import Mathlib

/-! # Calls under a protocol

    A program asks a world to perform calls, one after the other.  Each goes
    through or is refused; a program may stop with an error, and the world stays
    as it is then.  A protocol says which call may be made in which state, and
    what a call that went through, or was refused, does to the state.

    A `Triple` is about the calls that a program makes: from a state of the
    precondition they are all permitted, and they lead to a state of the
    postcondition, for its result or for its error.  The rules below follow the
    program's text: sequence, loop, and a failure that is ignored. -/

namespace Protocol

variable {W C S E α β : Type}

/-- A program over the world `W`; an error does not undo what was done. -/
abbrev Prog (W E : Type) : Type → Type := ExceptT E (StateM W)

/-- The calls made so far, each with whether it went through. -/
abbrev Trace (C : Type) : Type := List (C × Bool)

/-- Which calls are permitted, and where they lead. -/
structure Rules (C S : Type) where
  permits : S → C → Prop
  next : S → C → Bool → S

/-- From `s` the trace is one of permitted calls, and leads to `s'`. -/
inductive Rules.Leads (R : Rules C S) : S → Trace C → S → Prop
  | nil (s : S) : R.Leads s [] s
  | cons {s s' : S} {c : C} {ok : Bool} {t : Trace C} (hc : R.permits s c)
      (ht : R.Leads (R.next s c ok) t s') : R.Leads s ((c, ok) :: t) s'

theorem Rules.Leads.append {R : Rules C S} {s s' s'' : S} {t u : Trace C} (ht : R.Leads s t s')
    (hu : R.Leads s' u s'') : R.Leads s (t ++ u) s'' := by
  induction ht with
  | nil s => exact hu
  | cons hc _ ih => exact .cons hc (ih hu)

/-! ## Programs -/

theorem bind_apply (m : Prog W E α) (f : α → Prog W E β) (w : W) :
    (m >>= f) w = match m w with
      | (.ok a, w') => f a w'
      | (.error e, w') => (.error e, w') := by
  show (ExceptT.bindCont f (m w).1) (m w).2 = _
  cases m w with
  | mk r w' =>
      cases r with
      | ok a => rfl
      | error e => rfl

theorem tryCatch_apply (m : Prog W E α) (h : E → Prog W E α) (w : W) :
    (tryCatch m h) w = match m w with
      | (.ok a, w') => (.ok a, w')
      | (.error e, w') => h e w' := by
  show (match (m w).1 with
    | .ok a => (pure (Except.ok a) : StateM W (Except E α))
    | .error e => h e) (m w).2 = _
  cases m w with
  | mk r w' =>
      cases r with
      | ok a => rfl
      | error e => rfl

/-- What holds of the state in the end, whichever way the program ends. -/
def Ends (post : α → S → Prop) (fail : E → S → Prop) (r : Except E α) (s : S) : Prop :=
  match r with
  | .ok a => post a s
  | .error e => fail e s

/-- **A TRIPLE**: started in a state of `pre`, the program makes permitted calls
    only, and ends as `post` or `fail` says. -/
def Triple (R : Rules C S) (pre : S → Prop) (m : Prog (W × Trace C) E α)
    (post : α → S → Prop) (fail : E → S → Prop) : Prop :=
  ∀ w s, pre s → ∃ t s', (m w).2.2 = w.2 ++ t ∧ R.Leads s t s' ∧ Ends post fail (m w).1 s'

namespace Triple

variable {R : Rules C S} {pre pre' : S → Prop} {m : Prog (W × Trace C) E α}
variable {post post' : α → S → Prop} {fail fail' : E → S → Prop}

/-- A program that makes no call. -/
theorem quiet {r : W × Trace C → Except E α} (h : ∀ w s, pre s → Ends post fail (r w) s) :
    Triple R pre (fun w => (r w, w) : Prog (W × Trace C) E α) post fail := by
  intro w s hs
  exact ⟨[], s, (List.append_nil _).symm, .nil s, h w s hs⟩

theorem pure (a : α) : Triple R (post a) (Pure.pure a : Prog (W × Trace C) E α) post fail :=
  quiet fun _ _ hs => hs

/-- The rule of consequence. -/
theorem mono (h : Triple R pre m post fail) (hpre : ∀ s, pre' s → pre s)
    (hpost : ∀ a s, post a s → post' a s) (hfail : ∀ e s, fail e s → fail' e s) :
    Triple R pre' m post' fail' := by
  intro w s hs
  obtain ⟨t, s', ht, hleads, hend⟩ := h w s (hpre s hs)
  refine ⟨t, s', ht, hleads, ?_⟩
  cases hr : (m w).1 with
  | ok a =>
      rw [hr] at hend
      exact hpost a s' hend
  | error e =>
      rw [hr] at hend
      exact hfail e s' hend

/-- **SEQUENCE**: the second program starts where the first has ended, unless that
    was with an error. -/
theorem bind {mid : α → S → Prop} {f : α → Prog (W × Trace C) E β} {post : β → S → Prop}
    (hm : Triple R pre m mid fail) (hf : ∀ a, Triple R (mid a) (f a) post fail) :
    Triple R pre (m >>= f) post fail := by
  intro w s hs
  obtain ⟨t, s', ht, hleads, hend⟩ := hm w s hs
  rw [bind_apply]
  rcases hmw : m w with ⟨_ | a, w'⟩
  · rw [hmw] at ht hend
    exact ⟨t, s', ht, hleads, hend⟩
  · rw [hmw] at ht hend
    obtain ⟨u, s'', hu, hleads', hend'⟩ := hf a w' s' hend
    refine ⟨t ++ u, s'', ?_, hleads.append hleads', hend'⟩
    show (f a w').2.2 = _
    rw [hu, ← List.append_assoc]
    exact congrArg (· ++ u) ht

/-- **A FAILURE THAT IS HANDLED**: the handler starts where the failure left off. -/
theorem handle {h : E → Prog (W × Trace C) E α} {mid : E → S → Prop}
    (hm : Triple R pre m post mid) (hh : ∀ e, Triple R (mid e) (h e) post fail) :
    Triple R pre (tryCatch m h) post fail := by
  intro w s hs
  obtain ⟨t, s', ht, hleads, hend⟩ := hm w s hs
  rw [tryCatch_apply]
  rcases hmw : m w with ⟨e | a, w'⟩
  · rw [hmw] at ht hend
    obtain ⟨u, s'', hu, hleads', hend'⟩ := hh e w' s' hend
    refine ⟨t ++ u, s'', ?_, hleads.append hleads', hend'⟩
    show (h e w').2.2 = _
    rw [hu, ← List.append_assoc]
    exact congrArg (· ++ u) ht
  · rw [hmw] at ht hend
    exact ⟨t, s', ht, hleads, hend⟩

/-- **A LOOP** over a list, with an invariant about what has been done so far. -/
theorem forM {ι : Type} {f : ι → Prog (W × Trace C) E PUnit} (inv : List ι → S → Prop) :
    ∀ (xs done : List ι),
      (∀ ys x zs, done ++ xs = ys ++ x :: zs →
        Triple R (inv ys) (f x) (fun _ => inv (ys ++ [x])) fail) →
      Triple R (inv done) (xs.forM f) (fun _ => inv (done ++ xs)) fail := by
  intro xs
  induction xs with
  | nil =>
      intro done _
      rw [List.append_nil]
      exact quiet (r := fun _ => .ok PUnit.unit) fun _ _ hs => hs
  | cons x xs ih =>
      intro done hbody
      have hrest := ih (done ++ [x]) (fun ys y zs h => hbody ys y zs (by
        rw [← h, List.append_assoc]
        rfl))
      rw [List.append_assoc] at hrest
      exact (hbody done x xs rfl).bind fun _ => hrest

end Triple

end Protocol
