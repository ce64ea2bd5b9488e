import Mathlib

/-! # A window on a fixed store

    A store of fixed size of which a part is in use: the elements in front of the
    part, the part, and the elements behind it.  The part grows and shrinks at
    both ends, which moves elements across its borders and changes none.

    `slice` is the same window by its offset and length, which is how programs
    keep it; each operation is one on these two numbers. -/

structure Window (α : Type) where
  front : List α
  data : List α
  back : List α
  deriving DecidableEq

namespace Window

variable {α : Type}

/-- Everything that is stored. -/
def store (w : Window α) : List α := w.front ++ (w.data ++ w.back)

/-- The part from `off` on, `len` elements long. -/
def slice (s : List α) (off len : Nat) : Window α :=
  ⟨s.take off, (s.drop off).take len, s.drop (off + len)⟩

/-- Replace the elements from `i` on. -/
def write (i : Nat) (xs : List α) (w : Window α) : Window α :=
  if i + xs.length ≤ w.data.length then
    { w with data := w.data.take i ++ (xs ++ w.data.drop (i + xs.length)) }
  else w

/-! ## By offset and length -/

section Slice

variable {s : List α} {off len : Nat}

end Slice

/-! ## Growing undoes cutting -/

/-- A write through the store. -/
def writeStore (s : List α) (i : Nat) (xs : List α) : List α :=
  s.take i ++ (xs ++ s.drop (i + xs.length))

theorem length_writeStore {s : List α} {i : Nat} {xs : List α} (h : i + xs.length ≤ s.length) :
    (writeStore s i xs).length = s.length := by
  rw [writeStore, List.length_append, List.length_append, List.length_take, List.length_drop]
  omega

end Window
