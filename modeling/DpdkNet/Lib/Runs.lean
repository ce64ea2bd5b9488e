import Mathlib

/-! # Runs of a fallible step function

    A machine is a step function `S → A → Except E S`: an action either moves
    the state or stops the machine with a reason.  `run` plays a list of
    actions; `Along` says that a predicate of (state, action) holds at every
    step that is actually taken.  The invariant rules at the end are the only
    inductions over runs that a development needs: for a property preserved
    unconditionally, for one preserved by the steps that meet a condition, and
    for one preserved by exactly those. -/

namespace Runs

variable {S A E : Type}

/-- Play the actions from left to right, stopping at the first failure. -/
def run (step : S → A → Except E S) : S → List A → Except E S
  | s, [] => .ok s
  | s, a :: as =>
      match step s a with
      | .ok s' => run step s' as
      | .error e => .error e

/-- `P` holds of every (state, action) pair met while playing the actions. -/
def Along (step : S → A → Except E S) (P : S → A → Prop) : S → List A → Prop
  | _, [] => True
  | s, a :: as => P s a ∧ ∀ s', step s a = .ok s' → Along step P s' as

variable {step : S → A → Except E S} {P : S → A → Prop}

@[simp] theorem run_nil (s : S) : run step s [] = .ok s := rfl

theorem run_cons_ok {s s' : S} {a : A} {as : List A} (h : step s a = .ok s') :
    run step s (a :: as) = run step s' as := by
  simp only [run, h]

/-- An action that is possible under a condition only. -/
theorem guard_eq_ok {c : Prop} [Decidable c] {s t : S} {e : E}
    (h : (if c then .ok s else .error e : Except E S) = .ok t) : c ∧ s = t := by
  by_cases hc : c
  · rw [if_pos hc] at h
    exact ⟨hc, Except.ok.inj h⟩
  · rw [if_neg hc] at h
    cases h

/-- A successful run of `a :: as` is a step followed by a successful run. -/
theorem run_cons_eq_ok {s t : S} {a : A} {as : List A} :
    run step s (a :: as) = .ok t ↔
      ∃ s', step s a = .ok s' ∧ run step s' as = .ok t := by
  cases h : step s a with
  | error e => simp [run, h]
  | ok s' => simp [run, h]

/-- Runs compose. -/
theorem run_append {s s' : S} {as bs : List A} (h : run step s as = .ok s') :
    run step s (as ++ bs) = run step s' bs := by
  induction as generalizing s with
  | nil =>
      rw [run_nil] at h
      cases h
      rfl
  | cons a as ih =>
      obtain ⟨m, hm, hrest⟩ := run_cons_eq_ok.mp h
      rw [List.cons_append, run_cons_ok hm]
      exact ih hrest

/-- A condition on the actions alone. -/
theorem along_of_forall_mem {Q : A → Prop} :
    ∀ (as : List A) (s : S), (∀ a ∈ as, Q a) → Along step (fun _ a => Q a) s as := by
  intro as
  induction as with
  | nil => intro _ _; trivial
  | cons a as ih =>
      intro s h
      exact ⟨h a List.mem_cons_self, fun s' _ => ih s' (fun b hb => h b (List.mem_cons_of_mem _ hb))⟩

/-- Two conditions along the same run. -/
theorem Along.and {Q : S → A → Prop} :
    ∀ {as : List A} {s : S}, Along step P s as → Along step Q s as →
      Along step (fun s a => P s a ∧ Q s a) s as := by
  intro as
  induction as with
  | nil => intro _ _ _; trivial
  | cons a as ih =>
      rintro s ⟨hP, hPs⟩ ⟨hQ, hQs⟩
      exact ⟨⟨hP, hQ⟩, fun s' hs' => ih (hPs s' hs') (hQs s' hs')⟩

/-- **CONDITIONAL INVARIANCE**: an invariant kept by every step that meets the
    condition holds at the end of every run all of whose steps meet it. -/
theorem run_invariant_along {I : S → Prop}
    (hstep : ∀ s a s', I s → P s a → step s a = .ok s' → I s') :
    ∀ (as : List A) (s t : S), I s → Along step P s as →
      run step s as = .ok t → I t := by
  intro as
  induction as with
  | nil =>
      intro s t hs _ h
      rw [run_nil] at h
      cases h
      exact hs
  | cons a as ih =>
      intro s t hs hP h
      obtain ⟨s', hs', hrest⟩ := run_cons_eq_ok.mp h
      exact ih s' t (hstep s a s' hs hP.1 hs') (hP.2 s' hs') hrest

/-- Two conditions that agree in the states of an invariant agree along every
    run. -/
theorem along_iff_along {I : S → Prop} {Q : S → A → Prop}
    (hstep : ∀ s a s', I s → step s a = .ok s' → I s')
    (hiff : ∀ s a, I s → (P s a ↔ Q s a)) :
    ∀ (as : List A) (s : S), I s → (Along step P s as ↔ Along step Q s as) := by
  intro as
  induction as with
  | nil => intro _ _; exact Iff.rfl
  | cons a as ih =>
      intro s hs
      constructor
      · rintro ⟨hP, hrest⟩
        exact ⟨(hiff s a hs).mp hP, fun s' hs' => (ih s' (hstep s a s' hs hs')).mp (hrest s' hs')⟩
      · rintro ⟨hQ, hrest⟩
        exact ⟨(hiff s a hs).mpr hQ, fun s' hs' => (ih s' (hstep s a s' hs hs')).mpr (hrest s' hs')⟩

/-- **INVARIANCE**: an invariant kept by every step holds after every run. -/
theorem run_invariant {I : S → Prop}
    (hstep : ∀ s a s', I s → step s a = .ok s' → I s')
    {as : List A} {s t : S} (hs : I s) (h : run step s as = .ok t) : I t :=
  run_invariant_along (P := fun _ _ => True) (fun s a s' hs _ h => hstep s a s' hs h) as s t hs
    (along_of_forall_mem as s (fun _ _ => trivial)) h

/-- **AGREEMENT**: two machines whose steps agree in the states of an invariant of
    the first have the same runs. -/
theorem run_congr {I : S → Prop} {step' : S → A → Except E S}
    (hstep : ∀ s a s', I s → P s a → step s a = .ok s' → I s')
    (heq : ∀ s a, I s → P s a → step s a = step' s a) :
    ∀ (as : List A) (s : S), I s → Along step P s as → run step s as = run step' s as := by
  intro as
  induction as with
  | nil => intro _ _ _; rfl
  | cons a as ih =>
      rintro s hs ⟨hP, hrest⟩
      have hagree := heq s a hs hP
      cases ha : step s a with
      | error e =>
          rw [ha] at hagree
          simp only [run, ha, ← hagree]
      | ok s' =>
          rw [ha] at hagree
          rw [run_cons_ok ha, run_cons_ok hagree.symm]
          exact ih s' (hstep s a s' hs hP ha) (hrest s' ha)

/-- **PROGRESS**: if every step from a state of the invariant goes through and
    keeps it, then so does every run. -/
theorem run_total {I : S → Prop} (hstep : ∀ s a, I s → ∃ s', step s a = .ok s' ∧ I s') :
    ∀ (as : List A) (s : S), I s → ∃ t, run step s as = .ok t ∧ I t := by
  intro as
  induction as with
  | nil => intro s hs; exact ⟨s, rfl, hs⟩
  | cons a as ih =>
      intro s hs
      obtain ⟨s', hs', hI⟩ := hstep s a hs
      obtain ⟨t, ht, hIt⟩ := ih s' hI
      exact ⟨t, (run_cons_ok hs').trans ht, hIt⟩

/-- **SAFETY**: if no step from a state of the invariant stops for a bad reason,
    then no run does. -/
theorem run_safe {I : S → Prop} {B : E → Prop}
    (hstep : ∀ s a s', I s → step s a = .ok s' → I s')
    (hsafe : ∀ s a e, I s → step s a = .error e → ¬ B e)
    {as : List A} {s : S} {e : E} (hs : I s) (h : run step s as = .error e) : ¬ B e := by
  induction as generalizing s with
  | nil => cases h
  | cons a as ih =>
      cases ha : step s a with
      | ok s' => exact ih (hstep s a s' hs ha) (by rw [← run_cons_ok ha]; exact h)
      | error e' =>
          simp only [run, ha] at h
          cases h
          exact hsafe s a e hs ha

/-- **EXACT CONDITION**: if, from good states, a step leads to a good state
    exactly when it meets the condition, then a run stays within the good states
    exactly when all its steps meet the condition. -/
theorem always_iff_along {I : S → Prop}
    (hok : ∀ s a s', I s → step s a = .ok s' → (I s' ↔ P s a))
    (herr : ∀ s a e, I s → step s a = .error e → P s a) :
    ∀ (as : List A) (s : S), I s →
      ((∀ bs, bs <+: as → ∀ t, run step s bs = .ok t → I t) ↔ Along step P s as) := by
  intro as
  induction as with
  | nil =>
      intro s hs
      refine ⟨fun _ => trivial, fun _ bs hbs t ht => ?_⟩
      rw [List.prefix_nil.mp hbs, run_nil] at ht
      cases ht
      exact hs
  | cons a as ih =>
      intro s hs
      constructor
      · intro h
        cases hstep : step s a with
        | error e => exact ⟨herr s a e hs hstep, fun s' hs' => by rw [hstep] at hs'; cases hs'⟩
        | ok s' =>
            have hs' : I s' :=
              h [a] (by simp) s' (by rw [run_cons_ok hstep, run_nil])
            refine ⟨(hok s a s' hs hstep).mp hs', fun s'' hs'' => ?_⟩
            rw [hstep] at hs''
            cases hs''
            refine (ih s' hs').mp (fun bs hbs t ht => ?_)
            exact h (a :: bs) ((List.prefix_cons_inj a).mpr hbs) t
              (by rw [run_cons_ok hstep]; exact ht)
      · rintro ⟨hP, hrest⟩ bs hbs t ht
        cases bs with
        | nil =>
            rw [run_nil] at ht
            cases ht
            exact hs
        | cons b bs =>
            obtain ⟨rfl, hbs'⟩ := List.cons_prefix_cons.mp hbs
            obtain ⟨s', hs', hrun⟩ := run_cons_eq_ok.mp ht
            exact (ih s' ((hok s b s' hs hs').mpr hP)).mpr (hrest s' hs') bs hbs' t hrun

end Runs
