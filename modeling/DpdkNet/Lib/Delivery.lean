import Mathlib

/-! # A finite stream delivered in pieces

    The reading end of a connection: what is still to come, cut into the
    non-empty pieces in which it will arrive, with end of stream after the last.
    A read into a slice of `n` elements returns at most `n`, all from one piece;
    it returns nothing only at the end of the stream, or if the slice is empty.

    Every sequence of reads that a connection can produce is a `Delivery`, and a
    reader that depends only on `content` does not depend on the pieces. -/

structure Delivery (α : Type) where
  pieces : List (List α)
  nonempty : ∀ p ∈ pieces, p ≠ []

namespace Delivery

variable {α : Type}

/-- What is still to come. -/
def content (d : Delivery α) : List α := d.pieces.flatten

/-- Everything in one piece. -/
def whole (xs : List α) : Delivery α :=
  if h : xs = [] then ⟨[], nofun⟩
  else ⟨[xs], fun p hp => by rw [List.mem_singleton.mp hp]; exact h⟩

theorem content_whole (xs : List α) : (whole xs).content = xs := by
  rw [whole]
  split
  · rename_i h
    rw [h]
    rfl
  · exact List.append_nil xs

/-- Read into a slice of `n` elements. -/
def read (d : Delivery α) (n : Nat) : List α × Delivery α :=
  match hd : d.pieces with
  | [] => ([], d)
  | p :: ps =>
      if h : n < p.length then
        (p.take n, ⟨p.drop n :: ps, by
          intro q hq
          rcases List.mem_cons.mp hq with rfl | hq
          · exact fun hnil => absurd (List.drop_eq_nil_iff.mp hnil) (Nat.not_le.mpr h)
          · exact d.nonempty q (by rw [hd]; exact List.mem_cons_of_mem _ hq)⟩)
      else (p, ⟨ps, fun q hq => d.nonempty q (by rw [hd]; exact List.mem_cons_of_mem _ hq)⟩)

/-- A read takes elements from the front and leaves the others. -/
theorem read_append (d : Delivery α) (n : Nat) :
    (d.read n).1 ++ (d.read n).2.content = d.content := by
  rw [read]
  split
  · rfl
  · rename_i p ps hd
    have hc : d.content = p ++ ps.flatten := by rw [content, hd, List.flatten_cons]
    rw [hc]
    by_cases h : n < p.length
    · rw [dif_pos h]
      show p.take n ++ (p.drop n ++ ps.flatten) = _
      rw [← List.append_assoc, List.take_append_drop]
    · rw [dif_neg h]
      rfl

theorem length_read_le (d : Delivery α) (n : Nat) : (d.read n).1.length ≤ n := by
  rw [read]
  split
  · exact Nat.zero_le n
  · rename_i p ps hd
    by_cases h : n < p.length
    · rw [dif_pos h]
      show (p.take n).length ≤ n
      rw [List.length_take]
      exact Nat.min_le_left _ _
    · rw [dif_neg h]
      exact Nat.not_lt.mp h

/-- **END OF STREAM**: a read into a slice that is not empty returns nothing only
    if nothing is left. -/
theorem read_eq_nil_iff (d : Delivery α) {n : Nat} (hn : 0 < n) :
    (d.read n).1 = [] ↔ d.content = [] := by
  rw [read]
  split
  · rename_i hd
    rw [content, hd]
    exact iff_of_true rfl rfl
  · rename_i p ps hd
    have hp : p ≠ [] := d.nonempty p (by rw [hd]; exact List.mem_cons_self)
    refine iff_of_false ?_ ?_
    · by_cases h : n < p.length
      · rw [dif_pos h]
        show p.take n ≠ []
        rw [ne_eq, List.take_eq_nil_iff, not_or]
        exact ⟨Nat.ne_of_gt hn, hp⟩
      · rw [dif_neg h]
        exact hp
    · rw [content, hd, List.flatten_cons]
      exact List.append_ne_nil_of_left_ne_nil hp _

/-- A read that returns something makes progress. -/
theorem length_content_read (d : Delivery α) (n : Nat) :
    (d.read n).1.length + (d.read n).2.content.length = d.content.length := by
  rw [← List.length_append, read_append]

/-- A read while the first pieces last takes from these. -/
theorem read_pieces {d : Delivery α} {ps qs : List (List α)} (hd : d.pieces = ps ++ qs)
    (hps : ps ≠ []) {n : Nat} (hn : 0 < n) :
    (d.read n).1 ≠ [] ∧ ∃ ps', (d.read n).2.pieces = ps' ++ qs ∧
      (d.read n).1 ++ ps'.flatten = ps.flatten := by
  cases ps with
  | nil => exact absurd rfl hps
  | cons p ps =>
      have hp : p ≠ [] := d.nonempty p (by rw [hd]; exact List.mem_cons_self)
      rw [read]
      split
      · rename_i hnil
        rw [hd] at hnil
        cases hnil
      · rename_i p' ps' hcons
        rw [hd, List.cons_append, List.cons.injEq] at hcons
        obtain ⟨rfl, rfl⟩ := hcons
        by_cases h : n < p.length
        · rw [dif_pos h]
          refine ⟨?_, p.drop n :: ps, rfl, ?_⟩
          · show p.take n ≠ []
            rw [ne_eq, List.take_eq_nil_iff, not_or]
            exact ⟨Nat.ne_of_gt hn, hp⟩
          · show p.take n ++ (p.drop n :: ps).flatten = _
            rw [List.flatten_cons, ← List.append_assoc, List.take_append_drop, List.flatten_cons]
        · rw [dif_neg h]
          exact ⟨hp, ps, rfl, List.flatten_cons.symm⟩

/-! ## Reading exactly -/

/-- Keep reading until `need` more elements are there; `offer` says how large a
    slice is offered when that many are missing.  `none` at end of stream. -/
def fill (offer : Nat → Nat) : Nat → Nat → List α → Delivery α → Option (List α × Delivery α)
  | _, 0, acc, d => some (acc, d)
  | 0, _ + 1, _, _ => none
  | fuel + 1, need + 1, acc, d =>
      let r := d.read (offer (need + 1))
      if r.1.isEmpty then none
      else fill offer fuel (need + 1 - r.1.length) (acc ++ r.1) r.2

/-- **READ EXACTLY**: whatever the pieces and whatever is offered, the elements
    asked for are the front of the stream, and it fails exactly if the stream is
    shorter. -/
theorem fill_eq {offer : Nat → Nat} (hpos : ∀ n, 0 < n → 0 < offer n)
    (hle : ∀ n, offer n ≤ n) :
    ∀ (fuel need : Nat) (acc : List α) (d : Delivery α), need ≤ fuel →
      (need ≤ d.content.length → ∃ d', fill offer fuel need acc d
          = some (acc ++ d.content.take need, d') ∧ d'.content = d.content.drop need) ∧
      (d.content.length < need → fill offer fuel need acc d = none) := by
  intro fuel
  induction fuel with
  | zero =>
      intro need acc d hfuel
      obtain rfl : need = 0 := Nat.le_zero.mp hfuel
      refine ⟨fun _ => ⟨d, ?_, ?_⟩, fun h => absurd h (Nat.not_lt_zero _)⟩
      · rw [fill, List.take_zero, List.append_nil]
      · rw [List.drop_zero]
  | succ fuel ih =>
      intro need acc d hfuel
      cases need with
      | zero =>
          refine ⟨fun _ => ⟨d, ?_, ?_⟩, fun h => absurd h (Nat.not_lt_zero _)⟩
          · rw [fill, List.take_zero, List.append_nil]
          · rw [List.drop_zero]
      | succ need =>
          have happ := d.read_append (offer (need + 1))
          have hlen := d.length_content_read (offer (need + 1))
          have hread := d.length_read_le (offer (need + 1))
          have hoff := hle (need + 1)
          have hnil := d.read_eq_nil_iff (hpos (need + 1) (Nat.succ_pos _))
          by_cases he : (d.read (offer (need + 1))).1 = []
          · -- end of stream
            have hend := hnil.mp he
            have hfill : fill offer (fuel + 1) (need + 1) acc d = none := by
              simp only [fill, he, List.isEmpty_nil, if_true]
            rw [hend]
            exact ⟨fun h => absurd h (Nat.not_succ_le_zero _), fun _ => hfill⟩
          · have hpos' := List.length_pos_of_ne_nil he
            have hfill : fill offer (fuel + 1) (need + 1) acc d
                = fill offer fuel (need + 1 - (d.read (offer (need + 1))).1.length)
                    (acc ++ (d.read (offer (need + 1))).1) (d.read (offer (need + 1))).2 := by
              have hb : (d.read (offer (need + 1))).1.isEmpty = false := by
                rw [List.isEmpty_eq_false_iff]
                exact he
              simp only [fill, hb, Bool.false_eq_true, if_false]
            obtain ⟨h1, h2⟩ := ih (need + 1 - (d.read (offer (need + 1))).1.length)
              (acc ++ (d.read (offer (need + 1))).1) (d.read (offer (need + 1))).2 (by omega)
            rw [hfill]
            refine ⟨fun hn => ?_, fun hn => h2 (by omega)⟩
            obtain ⟨d', hd', hc⟩ := h1 (by omega)
            refine ⟨d', ?_, ?_⟩
            · have htake : (d.read (offer (need + 1))).1.take (need + 1)
                  = (d.read (offer (need + 1))).1 := List.take_of_length_le (by omega)
              rw [hd', List.append_assoc, ← happ, List.take_append, htake]
            · have hdrop : (d.read (offer (need + 1))).1.drop (need + 1) = [] :=
                List.drop_eq_nil_of_le (by omega)
              rw [hc, ← happ, List.drop_append, hdrop, List.nil_append]

/-- While the first pieces last, the elements asked for are taken from these, and
    the pieces behind them are not touched. -/
theorem fill_pieces {offer : Nat → Nat} (hpos : ∀ n, 0 < n → 0 < offer n)
    (hle : ∀ n, offer n ≤ n) {qs : List (List α)} :
    ∀ (fuel need : Nat) (acc : List α) (d : Delivery α) (ps : List (List α)), need ≤ fuel →
      d.pieces = ps ++ qs → need ≤ ps.flatten.length →
      ∃ d' ps', fill offer fuel need acc d = some (acc ++ ps.flatten.take need, d') ∧
        d'.pieces = ps' ++ qs ∧ ps'.flatten = ps.flatten.drop need := by
  intro fuel
  induction fuel with
  | zero =>
      intro need acc d ps hfuel hd _
      obtain rfl : need = 0 := Nat.le_zero.mp hfuel
      exact ⟨d, ps, by rw [fill, List.take_zero, List.append_nil], hd, by rw [List.drop_zero]⟩
  | succ fuel ih =>
      intro need acc d ps hfuel hd hneed
      cases need with
      | zero => exact ⟨d, ps, by rw [fill, List.take_zero, List.append_nil], hd, by rw [List.drop_zero]⟩
      | succ need =>
          have hps : ps ≠ [] := by
            rintro rfl
            exact absurd hneed (Nat.not_succ_le_zero _)
          obtain ⟨hne, ps', hd', hflat⟩ := read_pieces hd hps (hpos (need + 1) (Nat.succ_pos _))
          have hlen := List.length_pos_of_ne_nil hne
          have hread := d.length_read_le (offer (need + 1))
          have hoff := hle (need + 1)
          have htotal := congrArg List.length hflat
          rw [List.length_append] at htotal
          have hb : (d.read (offer (need + 1))).1.isEmpty = false :=
            List.isEmpty_eq_false_iff.mpr hne
          obtain ⟨d'', ps'', hfill, hd'', hrest⟩ :=
            ih (need + 1 - (d.read (offer (need + 1))).1.length)
              (acc ++ (d.read (offer (need + 1))).1) (d.read (offer (need + 1))).2 ps'
              (by omega) hd' (by omega)
          refine ⟨d'', ps'', ?_, hd'', ?_⟩
          · simp only [fill, hb, Bool.false_eq_true, if_false]
            have htake : (d.read (offer (need + 1))).1.take (need + 1)
                = (d.read (offer (need + 1))).1 := List.take_of_length_le (by omega)
            rw [hfill, List.append_assoc, ← hflat, List.take_append, htake]
          · have hdrop : (d.read (offer (need + 1))).1.drop (need + 1) = [] :=
              List.drop_eq_nil_of_le (by omega)
            rw [hrest, ← hflat, List.drop_append, hdrop, List.nil_append]

end Delivery
