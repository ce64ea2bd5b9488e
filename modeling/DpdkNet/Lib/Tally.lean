import Mathlib

/-! # Tallies of concurrent contributions

    Each of finitely many parties contributes an amount when it passes some
    point of its program.  The tally of a point is what the parties past it have
    contributed: a party that passes it adds its amount, a party that moves
    without passing it changes nothing, and once all are past it the tally is
    the total. -/

namespace Tally

variable {ι P : Type} [Fintype ι]

/-- What the parties past the point `p` have contributed. -/
def tally (p : P → Bool) (x : ι → Nat) (pc : ι → P) : Nat :=
  ∑ i, if p (pc i) then x i else 0

variable {p : P → Bool} {x : ι → Nat} {pc : ι → P}

theorem tally_le : tally p x pc ≤ ∑ i, x i := by
  refine Finset.sum_le_sum (fun i _ => ?_)
  split
  · exact Nat.le_refl _
  · exact Nat.zero_le _

theorem tally_none (h : ∀ i, p (pc i) = false) : tally p x pc = 0 := by
  refine Finset.sum_eq_zero (fun i _ => ?_)
  rw [h i]
  rfl

/-- All contributions are in exactly if those who are not past the point have
    nothing to contribute. -/
theorem tally_eq_total_iff :
    tally p x pc = ∑ i, x i ↔ ∀ i, p (pc i) = false → x i = 0 := by
  rw [tally, Finset.sum_eq_sum_iff_of_le]
  · constructor
    · intro h i hi
      have := h i (Finset.mem_univ i)
      rw [hi] at this
      exact this.symm
    · intro h i _
      cases hi : p (pc i) with
      | true => rfl
      | false => exact (h i hi).symm
  · intro i _
    split
    · exact Nat.le_refl _
    · exact Nat.zero_le _

variable [DecidableEq ι]

/-- A party that moves without passing the point. -/
theorem tally_update_same {i : ι} {a : P} (h : p a = p (pc i)) :
    tally p x (Function.update pc i a) = tally p x pc := by
  refine Finset.sum_congr rfl (fun j _ => ?_)
  by_cases hj : j = i
  · subst hj
    rw [Function.update_self, h]
  · rw [Function.update_of_ne hj]

/-- A party that passes the point. -/
theorem tally_update_new {i : ι} {a : P} (ha : p a = true) (h : p (pc i) = false) :
    tally p x (Function.update pc i a) = tally p x pc + x i := by
  rw [tally, tally, ← Finset.add_sum_erase _ _ (Finset.mem_univ i),
    ← Finset.add_sum_erase _ (fun j => if p (pc j) then x j else 0) (Finset.mem_univ i)]
  have hrest : ∀ j ∈ Finset.univ.erase i,
      (if p (Function.update pc i a j) then x j else 0) = if p (pc j) then x j else 0 := by
    intro j hj
    rw [Function.update_of_ne (Finset.ne_of_mem_erase hj)]
  rw [Finset.sum_congr rfl hrest, Function.update_self, ha, h]
  simp only [if_true, Bool.false_eq_true, if_false]
  omega

/-- One of the parties moves to `a`, whatever each of them counts for. -/
theorem sum_update (f : P → Nat) (pc : ι → P) (i : ι) (a : P) :
    (∑ j, f (Function.update pc i a j)) + f (pc i) = (∑ j, f (pc j)) + f a := by
  rw [← Finset.add_sum_erase _ _ (Finset.mem_univ i),
    ← Finset.add_sum_erase _ (fun j => f (pc j)) (Finset.mem_univ i)]
  have hrest : ∀ j ∈ Finset.univ.erase i, f (Function.update pc i a j) = f (pc j) := by
    intro j hj
    rw [Function.update_of_ne (Finset.ne_of_mem_erase hj)]
  rw [Finset.sum_congr rfl hrest, Function.update_self]
  omega

/-! ## Parties in a list -/

/-- One of the parties, in the list, moves from `a` to `b`. -/
theorem sum_map_set {α : Type} (f : α → Nat) {a b : α} :
    ∀ (l : List α) (i : Nat), l[i]? = some a →
      ((l.set i b).map f).sum + f a = (l.map f).sum + f b := by
  intro l
  induction l with
  | nil => intro i h; cases h
  | cons c l ih =>
      intro i h
      cases i with
      | zero =>
          cases h
          rw [List.set_cons_zero, List.map_cons, List.map_cons, List.sum_cons, List.sum_cons]
          omega
      | succ i =>
          have hrest := ih i h
          rw [List.set_cons_succ, List.map_cons, List.map_cons, List.sum_cons, List.sum_cons]
          omega

/-- What one party in the list has contributed is at most the total. -/
theorem le_sum_map {α : Type} (f : α → Nat) {a : α} :
    ∀ {l : List α} {i : Nat}, l[i]? = some a → f a ≤ (l.map f).sum := by
  intro l i h
  exact List.le_sum_of_mem (List.mem_map_of_mem (List.mem_of_getElem? h))

end Tally
