import Mathlib

/-! # What a log of writes leaves in a key-value store

    A store with one writer is determined by the log of its writes: a key holds
    what the last write to it put there.  A reader that sees the store as it
    stood at some point of the log has seen, for every key written before an
    earlier point, either the value of that earlier point or one written
    since. -/

namespace WriteLog

variable {K V : Type} [DecidableEq K]

/-- The value that one write gives to `k`. -/
def written (k : K) (w : K × V) : Option V := if w.1 = k then some w.2 else none

/-- The value that the last write to `k` in the log put there. -/
def last (k : K) (log : List (K × V)) : Option V := (log.filterMap (written k)).getLast?

theorem last_append (k : K) (log log' : List (K × V)) :
    last k (log ++ log') = (last k log').or (last k log) := by
  rw [last, List.filterMap_append, List.getLast?_append]
  rfl

theorem last_concat (k : K) (log : List (K × V)) (w : K × V) :
    last k (log ++ [w]) = if w.1 = k then some w.2 else last k log := by
  rw [last_append]
  by_cases h : w.1 = k
  · simp [last, written, h]
  · simp [last, written, h]

/-- A value found in a store was written there. -/
theorem mem_of_last {k : K} {v : V} {log : List (K × V)} (h : last k log = some v) :
    (k, v) ∈ log := by
  obtain ⟨w, hw, hwv⟩ := List.mem_filterMap.mp (List.mem_of_getLast? h)
  rw [written] at hwv
  split at hwv
  · rename_i hk
    cases hwv
    subst hk
    exact hw
  · cases hwv

/-- **A LATER VIEW**: what a key held after `i` writes it still holds after `j`,
    or it holds the value of one of the writes in between. -/
theorem last_take_later {k : K} {v : V} {log : List (K × V)} {i j : Nat} (hij : i ≤ j)
    (h : last k (log.take i) = some v) :
    ∃ v', last k (log.take j) = some v' ∧
      (v' = v ∨ ∃ n, i ≤ n ∧ log[n]? = some (k, v')) := by
  have hsplit : log.take j = log.take i ++ (log.take j).drop i := by
    have h := (List.take_append_drop i (log.take j)).symm
    rw [List.take_take, Nat.min_eq_left hij] at h
    exact h
  rw [hsplit, last_append, h]
  cases hlater : last k ((log.take j).drop i) with
  | none => exact ⟨v, rfl, Or.inl rfl⟩
  | some v' =>
      refine ⟨v', rfl, Or.inr ?_⟩
      obtain ⟨n, hn⟩ := List.mem_iff_getElem?.mp (mem_of_last hlater)
      rw [List.getElem?_drop, List.getElem?_take] at hn
      split at hn
      · exact ⟨i + n, Nat.le_add_right i n, hn⟩
      · cases hn

end WriteLog
