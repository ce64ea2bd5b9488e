import Mathlib

/-! # Bounded vectors

    A vector with a fixed capacity: the contents, and the proof that they fit.
    Elements are pushed and popped at the back and removed at the front; a push
    into a full vector hands the vector back unchanged (`none`), so overflowing
    is a visible case and never a silent one. -/

/-- At most `cap` elements, oldest first. -/
structure ArrayVec (α : Type) (cap : Nat) where
  toList : List α
  length_le : toList.length ≤ cap

namespace ArrayVec

variable {α : Type} {cap : Nat}

@[ext] theorem ext {v w : ArrayVec α cap} (h : v.toList = w.toList) : v = w := by
  cases v
  cases w
  cases h
  rfl

/-- The empty vector. -/
def new : ArrayVec α cap := ⟨[], Nat.zero_le _⟩

def len (v : ArrayVec α cap) : Nat := v.toList.length

def isEmpty (v : ArrayVec α cap) : Bool := v.toList.isEmpty

/-- Append at the back; `none` when there is no room. -/
def tryPush (v : ArrayVec α cap) (x : α) : Option (ArrayVec α cap) :=
  if h : v.toList.length < cap then
    some ⟨v.toList ++ [x], by rw [List.length_append]; exact h⟩
  else none

/-- Append at the back of a vector known to have room. -/
def push (v : ArrayVec α cap) (x : α) (h : v.len < cap) : ArrayVec α cap :=
  ⟨v.toList ++ [x], by rw [List.length_append]; exact h⟩

/-- Take the element at the back. -/
def pop (v : ArrayVec α cap) : Option (α × ArrayVec α cap) :=
  match v.toList.getLast? with
  | none => none
  | some x => some (x, ⟨v.toList.dropLast, by
      rw [List.length_dropLast]
      exact Nat.le_trans (Nat.sub_le _ _) v.length_le⟩)

/-- Remove the `n` oldest elements. -/
def dropFront (v : ArrayVec α cap) (n : Nat) : ArrayVec α cap :=
  ⟨v.toList.drop n, by
    rw [List.length_drop]
    exact Nat.le_trans (Nat.sub_le _ _) v.length_le⟩

@[simp] theorem toList_push (v : ArrayVec α cap) (x : α) (h : v.len < cap) :
    (v.push x h).toList = v.toList ++ [x] := rfl

@[simp] theorem isEmpty_iff (v : ArrayVec α cap) :
    v.isEmpty = true ↔ v.toList = [] := List.isEmpty_iff

theorem len_le (v : ArrayVec α cap) : v.len ≤ cap := v.length_le

/-- With room, a push succeeds and appends. -/
theorem tryPush_of_lt {v : ArrayVec α cap} (x : α) (h : v.len < cap) :
    ∃ w, v.tryPush x = some w ∧ w.toList = v.toList ++ [x] := by
  have h' : v.toList.length < cap := h
  exact ⟨_, dif_pos h', rfl⟩

/-- A push fails exactly on a full vector. -/
theorem tryPush_eq_none {v : ArrayVec α cap} {x : α} :
    v.tryPush x = none ↔ cap ≤ v.len := by
  unfold tryPush len
  split <;> simp <;> omega

theorem toList_of_tryPush {v w : ArrayVec α cap} {x : α}
    (h : v.tryPush x = some w) :
    w.toList = v.toList ++ [x] ∧ v.len < cap := by
  unfold tryPush at h
  split at h
  · cases h
    exact ⟨rfl, ‹_›⟩
  · cases h

/-- Popping fails exactly on the empty vector. -/
theorem pop_eq_none {v : ArrayVec α cap} : v.pop = none ↔ v.toList = [] := by
  unfold pop
  cases h : v.toList.getLast? with
  | none => simpa using h
  | some x =>
      constructor
      · intro hn
        cases hn
      · intro hnil
        rw [hnil] at h
        cases h

/-- What a successful pop leaves. -/
theorem toList_of_pop {v w : ArrayVec α cap} {x : α}
    (h : v.pop = some (x, w)) : v.toList = w.toList ++ [x] := by
  unfold pop at h
  cases hl : v.toList.getLast? with
  | none =>
      rw [hl] at h
      cases h
  | some y =>
      rw [hl] at h
      cases h
      obtain ⟨ys, hys⟩ := List.getLast?_eq_some_iff.mp hl
      show v.toList = v.toList.dropLast ++ [x]
      rw [hys, List.dropLast_concat]

/-- A list emptied from the back comes out reversed. -/
theorem getLast?_append_reverse_dropLast (B : List α) :
    B.getLast?.toList ++ B.dropLast.reverse = B.reverse := by
  rcases List.eq_nil_or_concat B with rfl | ⟨L, x, rfl⟩
  · rfl
  · simp

end ArrayVec
