import Mathlib

/-! # Refinement of stateful, fallible computations

    A computation over a concrete state `S` refines one over an abstract state
    `T`, along an abstraction `φ : S → T`, if running it and then abstracting is
    abstracting and then running the other: same value, same failure, related
    states.  Since the abstract side is a function of `φ x` alone, two states
    with the same abstraction cannot be told apart by a computation that refines
    anything, and neither can two computations that refine the same one. -/

namespace Refine

variable {S T E α β : Type}

/-- The outcome of a concrete computation, its state abstracted. -/
def view (φ : S → T) (r : Except E (α × S)) : Except E (α × T) :=
  match r with
  | .ok p => .ok (p.1, φ p.2)
  | .error e => .error e

/-- `m` refines `n` along `φ`. -/
def Refines (φ : S → T) (m : StateT S (Except E) α) (n : StateT T (Except E) α) : Prop :=
  ∀ x, view φ (m x) = n (φ x)

/-! ## Binds at one state -/

section Bind

variable {m : StateT S (Except E) α} {f : α → StateT S (Except E) β} {x y : S}

theorem bind_of_ok {a : α} (h : m x = .ok (a, y)) : (m >>= f) x = f a y := by
  show (m x >>= fun p => f p.1 p.2) = f a y
  rw [h]
  rfl

theorem bind_of_error {e : E} (h : m x = .error e) : (m >>= f) x = .error e := by
  show (m x >>= fun p => f p.1 p.2) = .error e
  rw [h]
  rfl

/-- A computation that succeeds after a bind, taken apart. -/
theorem bind_eq_ok {b : β} (h : (m >>= f) x = .ok (b, y)) :
    ∃ a z, m x = .ok (a, z) ∧ f a z = .ok (b, y) := by
  cases hm : m x with
  | error e =>
      rw [bind_of_error hm] at h
      cases h
  | ok p =>
      rw [bind_of_ok hm] at h
      exact ⟨p.1, p.2, rfl, h⟩

/-- One that fails. -/
theorem bind_eq_error {e : E} (h : (m >>= f) x = .error e) :
    m x = .error e ∨ ∃ a z, m x = .ok (a, z) ∧ f a z = .error e := by
  cases hm : m x with
  | error e' =>
      rw [bind_of_error hm] at h
      cases h
      exact Or.inl rfl
  | ok p =>
      rw [bind_of_ok hm] at h
      exact Or.inr ⟨p.1, p.2, rfl, h⟩

end Bind

/-! ## Refinement -/

variable {φ : S → T}

/-- A success that is seen is one. -/
theorem view_eq_ok {r : Except E (α × S)} {a : α} {t : T} (h : view φ r = .ok (a, t)) :
    ∃ y, r = .ok (a, y) ∧ φ y = t := by
  cases r with
  | error e => cases h
  | ok p =>
      cases h
      exact ⟨p.2, rfl, rfl⟩

/-- The rule for a bind at one state. -/
theorem view_bind {m : StateT S (Except E) α} {f : α → StateT S (Except E) β}
    {n : StateT T (Except E) α} {g : α → StateT T (Except E) β} {x : S} {t : T}
    (hm : view φ (m x) = n t) (hf : ∀ a y, view φ (f a y) = g a (φ y)) :
    view φ ((m >>= f) x) = (n >>= g) t := by
  cases hr : m x with
  | error e =>
      rw [hr] at hm
      rw [bind_of_error hr, bind_of_error hm.symm]
      rfl
  | ok p =>
      rw [hr] at hm
      rw [bind_of_ok hr, bind_of_ok hm.symm]
      exact hf p.1 p.2

theorem refines_pure (a : α) : Refines (E := E) φ (pure a) (pure a) := fun _ => rfl

theorem refines_throw (e : E) :
    Refines φ (throw e : StateT S (Except E) α) (throw e : StateT T (Except E) α) := fun _ => rfl

theorem Refines.bind {m : StateT S (Except E) α} {f : α → StateT S (Except E) β}
    {n : StateT T (Except E) α} {g : α → StateT T (Except E) β} (hm : Refines φ m n)
    (hf : ∀ a, Refines φ (f a) (g a)) : Refines φ (m >>= f) (n >>= g) :=
  fun x => view_bind (hm x) hf

theorem Refines.ite {c : Prop} [Decidable c] {m m' : StateT S (Except E) α}
    {n n' : StateT T (Except E) α} (h : c → Refines φ m n) (h' : ¬ c → Refines φ m' n') :
    Refines φ (if c then m else m') (if c then n else n') := by
  by_cases hc : c
  · rw [if_pos hc, if_pos hc]
    exact h hc
  · rw [if_neg hc, if_neg hc]
    exact h' hc

end Refine
