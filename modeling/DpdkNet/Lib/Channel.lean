import Mathlib

/-! # One direction of a reliable connection

    A sender keeps what is not yet acknowledged, a receiver what is not yet read,
    and two numbers say how far the stream has come: `una` elements are
    acknowledged, `nxt` have arrived.  `Carries` ties the two buffers to the list
    of everything ever written.  It is kept by the four things that can happen
    (`write`, `arrive`, `ack`, `take`), so what has been read is a prefix of what
    was written, and all of it once everything has arrived and nothing is left
    unread. -/

namespace Channel

variable {α : Type}

/-- `tx` is what is not acknowledged; `read` and then `rx` is what has arrived. -/
structure Carries (written : List α) (una nxt : Nat) (tx read rx : List α) : Prop where
  una_le : una ≤ nxt
  nxt_le : nxt ≤ written.length
  tx : tx = written.drop una
  rx : read ++ rx = written.take nxt

namespace Carries

variable {written tx read rx : List α} {una nxt : Nat}

theorem empty : Carries ([] : List α) 0 0 [] [] [] :=
  ⟨Nat.le_refl 0, Nat.le_refl 0, rfl, rfl⟩

/-- How much of the send buffer has not arrived yet. -/
theorem length_tx (h : Carries written una nxt tx read rx) :
    tx.length = written.length - una := by
  rw [h.tx, List.length_drop]

theorem write (h : Carries written una nxt tx read rx) (bs : List α) :
    Carries (written ++ bs) una nxt (tx ++ bs) read rx := by
  have hle : una ≤ written.length := Nat.le_trans h.una_le h.nxt_le
  refine ⟨h.una_le, ?_, ?_, ?_⟩
  · rw [List.length_append]
    exact Nat.le_trans h.nxt_le (Nat.le_add_right _ _)
  · rw [h.tx, List.drop_append_of_le_length hle]
  · rw [h.rx, List.take_append_of_le_length h.nxt_le]

/-- The next `n` elements of the send buffer arrive. -/
theorem arrive (h : Carries written una nxt tx read rx) {n : Nat}
    (hn : n ≤ (tx.drop (nxt - una)).length) :
    Carries written una (nxt + n) tx read (rx ++ (tx.drop (nxt - una)).take n) := by
  have hnext : tx.drop (nxt - una) = written.drop nxt := by
    rw [h.tx, List.drop_drop, Nat.add_sub_cancel' h.una_le]
  rw [hnext, List.length_drop] at hn
  have hle := h.nxt_le
  refine ⟨Nat.le_trans h.una_le (Nat.le_add_right _ _), by omega, h.tx, ?_⟩
  rw [hnext, ← List.append_assoc, h.rx, List.take_add]

/-- Elements that have arrived are acknowledged. -/
theorem ack (h : Carries written una nxt tx read rx) {n : Nat} (hn : una + n ≤ nxt) :
    Carries written (una + n) nxt (tx.drop n) read rx := by
  refine ⟨hn, h.nxt_le, ?_, h.rx⟩
  rw [h.tx, List.drop_drop]

/-- The receiver reads. -/
theorem take (h : Carries written una nxt tx read rx) (n : Nat) :
    Carries written una nxt tx (read ++ rx.take n) (rx.drop n) := by
  refine ⟨h.una_le, h.nxt_le, h.tx, ?_⟩
  rw [List.append_assoc, List.take_append_drop]
  exact h.rx

theorem read_prefix (h : Carries written una nxt tx read rx) : read <+: written :=
  (List.prefix_append read rx).trans (h.rx ▸ List.take_prefix nxt written)

/-- Everything has arrived and nothing is left unread. -/
theorem read_eq (h : Carries written una nxt tx read rx) (hall : nxt = written.length)
    (hrx : rx = []) : read = written := by
  have heq := h.rx
  rw [hrx, List.append_nil, hall, List.take_length] at heq
  exact heq

end Carries

end Channel
