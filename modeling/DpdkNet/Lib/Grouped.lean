import Mathlib

/-! # Tables in groups

    A table of `n` entries kept in groups of `w`, the last one ragged.  Read
    group by group, with the slots beyond the end left out, it is the table
    again.  And a table filled in turn from `k` values holds each of them nearly
    equally often. -/

namespace Grouped

variable {α : Type}

/-- Group by group is one after the other. -/
theorem range_flatMap_groups (w : Nat) (h : Nat → List α) :
    ∀ k : Nat, (List.range k).flatMap (fun g => (List.range w).flatMap (fun i => h (g * w + i)))
      = (List.range (k * w)).flatMap h := by
  intro k
  induction k with
  | zero =>
      rw [Nat.zero_mul]
      rfl
  | succ k ih =>
      rw [List.range_succ, List.flatMap_append, ih, List.flatMap_singleton, Nat.succ_mul,
        List.range_add, List.flatMap_append, List.flatMap_map]

/-- Slots beyond the end contribute nothing. -/
theorem range_flatMap_lt (f : Nat → α) {n m : Nat} (hle : n ≤ m) :
    (List.range m).flatMap (fun j => if j < n then [f j] else []) = (List.range n).map f := by
  obtain ⟨d, rfl⟩ := Nat.exists_eq_add_of_le hle
  have hin : (List.range n).flatMap (fun j => if j < n then [f j] else []) = (List.range n).map f := by
    rw [List.map_eq_flatMap]
    refine List.flatMap_congr fun j hj => if_pos (List.mem_range.mp hj)
  have hout : ((List.range d).map (n + ·)).flatMap (fun j => if j < n then [f j] else []) = [] := by
    rw [List.flatMap_eq_nil_iff]
    intro j hj
    obtain ⟨i, -, rfl⟩ := List.mem_map.mp hj
    exact if_neg (by omega)
  rw [List.range_add, List.flatMap_append, hin, hout, List.append_nil]

/-- **READING A GROUPED TABLE**: the groups that cover `n` entries, read up to the
    `n`-th, give every entry once and in order. -/
theorem range_flatMap_ragged {w n k : Nat} (hcover : n ≤ k * w) (f : Nat → α) :
    (List.range k).flatMap (fun g => (List.range w).flatMap
        (fun i => if g * w + i < n then [f (g * w + i)] else []))
      = (List.range n).map f := by
  rw [range_flatMap_groups w (fun j => if j < n then [f j] else []) k]
  exact range_flatMap_lt f hcover

/-- How often a value is hit when `n` entries go in turn to `k` values. -/
theorem count_range_mod {k v : Nat} (n : Nat) (hv : v < k) :
    ((List.range n).map (· % k)).count v = n / k + if v < n % k then 1 else 0 := by
  have hcount : ((List.range n).map (· % k)).count v = n.count (· ≡ v [MOD k]) := by
    rw [List.count, List.countP_map, Nat.count]
    refine List.countP_congr fun j _ => ?_
    show (j % k == v) = true ↔ decide (j ≡ v [MOD k]) = true
    rw [beq_iff_eq, decide_eq_true_iff, Nat.ModEq, Nat.mod_eq_of_lt hv]
  rw [hcount, Nat.count_modEq_card n (Nat.zero_lt_of_lt hv), Nat.mod_eq_of_lt hv]

/-- **BALANCE**: two values are hit equally often, or one of them once more. -/
theorem count_range_mod_le {k u v : Nat} (n : Nat) (hu : u < k) (hv : v < k) :
    ((List.range n).map (· % k)).count u ≤ ((List.range n).map (· % k)).count v + 1 := by
  rw [count_range_mod n hu, count_range_mod n hv]
  split <;> split <;> omega

end Grouped
