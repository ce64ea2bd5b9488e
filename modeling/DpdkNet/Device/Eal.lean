import DpdkNet.Lib.RustStr
import DpdkNet.Lib.Runs

/-! # The EAL guard

    `api/rte/eal.rs`, `Eal`: one flag for the process says that the EAL is
    initialized, `Eal::init` hands out a guard, and dropping the guard cleans up.
    The flag is taken by a swap before the arguments are converted and before
    `rte_eal_init` is called, so each way out of `init` has to give it back.

    The calls of DPDK are a parameter, over whatever state they keep.  A process
    makes calls of `init`, with any arguments, and drops guards that it has.
    `flag_tracks_guard_iff` says which runs keep flag and guard together: those
    where no argument with a NUL byte reaches the conversion.  There the `expect`
    panics with the flag taken, and `locked_out_of_run` says that nothing the
    process does afterwards clears it. -/

namespace DpdkNet

open RustStr Runs

/-- `std::ffi::CString`: no byte of it is zero. -/
structure CString where
  bytes : List UInt8
  nonzero : (0 : UInt8) ∉ bytes

/-- `CString::new` fails on a zero byte. -/
def CString.new (s : List UInt8) : Option CString :=
  if h : (0 : UInt8) ∈ s then none else some ⟨s, h⟩

theorem CString.new_eq_none_iff (s : List UInt8) : CString.new s = none ↔ (0 : UInt8) ∈ s := by
  rw [CString.new]
  split
  · rename_i h
    exact iff_of_true rfl h
  · rename_i h
    exact iff_of_false (Option.some_ne_none _) h

/-- The calls of DPDK, over whatever state it has; a negative return code of
    `rte_eal_init` is an error, and `rteErrno` then says which. -/
structure EalFfi (ρ : Type) where
  ealInit : ρ → Int → List CString → Int × ρ
  ealCleanup : ρ → Int × ρ
  rteErrno : ρ → Int

/-- The static `EAL_INITIALIZED`, and what DPDK keeps. -/
structure EalProcess (ρ : Type) where
  initialized : Bool
  ffi : ρ

/-- How a call of `Eal::init` ends; a guard comes with `ok` only. -/
inductive InitResult where
  | ok
  | err (code : Int)
  /-- The `expect` of the conversion. -/
  | panicked
  deriving DecidableEq

/-- `EALREADY` on Linux. -/
def ealready : Int := 114

/-- `len as i32` -/
def asI32 (n : Nat) : Int := Int.bmod n (2 ^ 32)

variable {ρ : Type}

namespace Eal

/-- The arguments as C strings; `none` is the panic of `expect`. -/
def cstrings (args : List String) : Option (List CString) :=
  args.mapM fun s => CString.new (RustStr.bytes s)

/-- Initialize the EAL environment. -/
def init (F : EalFfi ρ) (args : List String) (p : EalProcess ρ) : InitResult × EalProcess ρ :=
  let already := p.initialized
  let p := { p with initialized := true }
  if already then (.err ealready, p)
  else
    match cstrings args with
    | none => (.panicked, p)
    | some args =>
        let got := F.ealInit p.ffi (asI32 args.length) args
        let p := { p with ffi := got.2 }
        -- Reset flag on failure so user can retry
        if got.1 < 0 then (.err (F.rteErrno p.ffi), { p with initialized := false })
        else (.ok, p)

/-- Check if EAL has been initialized. -/
def isInitialized (p : EalProcess ρ) : Bool := p.initialized

/-- The guard goes: best effort cleanup, its errors are ignored. -/
def drop (F : EalFfi ρ) (p : EalProcess ρ) : EalProcess ρ :=
  let got := F.ealCleanup p.ffi
  { p with ffi := got.2, initialized := false }

/-- An argument that cannot be a C string. -/
def HasNul (args : List String) : Prop := ∃ s ∈ args, (0 : UInt8) ∈ RustStr.bytes s

/-- The conversion panics on exactly those. -/
theorem cstrings_eq_none_iff (args : List String) : cstrings args = none ↔ HasNul args := by
  induction args with
  | nil => simp [cstrings, HasNul]
  | cons s args ih =>
      have hcons : HasNul (s :: args) ↔ (0 : UInt8) ∈ RustStr.bytes s ∨ HasNul args := by
        simp [HasNul]
      rw [hcons, ← ih, ← CString.new_eq_none_iff]
      simp only [cstrings, List.mapM_cons]
      cases CString.new (RustStr.bytes s) with
      | none => simp
      | some c =>
          cases args.mapM fun s => CString.new (RustStr.bytes s) with
          | none => simp
          | some cs => simp

/-- A flag that is set is left set, whatever the arguments are. -/
theorem init_of_initialized (F : EalFfi ρ) (args : List String) {p : EalProcess ρ}
    (h : p.initialized = true) : init F args p = (.err ealready, p) := by
  cases p
  cases h
  rfl

/-- The panic leaves the flag as the swap made it. -/
theorem init_of_hasNul (F : EalFfi ρ) {args : List String} {p : EalProcess ρ}
    (h : p.initialized = false) (hargs : HasNul args) :
    init F args p = (.panicked, { p with initialized := true }) := by
  rw [← cstrings_eq_none_iff] at hargs
  simp only [init, h, hargs]
  rfl

/-- Without a NUL byte DPDK decides: an error gives the flag back, a guard keeps
    it. -/
theorem init_cases (F : EalFfi ρ) {args : List String} {p : EalProcess ρ}
    (h : p.initialized = false) (hargs : ¬ HasNul args) :
    ∃ ffi, (∃ e, init F args p = (.err e, ⟨false, ffi⟩)) ∨ init F args p = (.ok, ⟨true, ffi⟩) := by
  rw [← cstrings_eq_none_iff] at hargs
  cases hcs : cstrings args with
  | none => exact absurd hcs hargs
  | some cs =>
      refine ⟨(F.ealInit p.ffi (asI32 cs.length) cs).2, ?_⟩
      simp only [init, h, hcs, Bool.false_eq_true, if_false]
      split
      · exact Or.inl ⟨_, rfl⟩
      · exact Or.inr rfl

end Eal

/-! ## A process that makes the calls -/

/-- A call of `init` as it was: the flag before it, how it ended, the flag
    behind it. -/
structure InitCall where
  before : Bool
  result : InitResult
  after : Bool

/-- The process, the number of guards that are alive, and the calls so far. -/
structure EalRun (ρ : Type) where
  process : EalProcess ρ
  guards : Nat
  calls : List InitCall

inductive EalOp where
  | init (args : List String)
  | drop

/-- There is no guard to drop. -/
inductive NoGuard where
  | mk

namespace EalRun

/-- A process as it starts. -/
def start (ffi : ρ) : EalRun ρ := ⟨⟨false, ffi⟩, 0, []⟩

def step (F : EalFfi ρ) (s : EalRun ρ) : EalOp → Except NoGuard (EalRun ρ)
  | .init args =>
      let got := Eal.init F args s.process
      .ok { process := got.2
            guards := if got.1 = .ok then s.guards + 1 else s.guards
            calls := s.calls ++ [⟨Eal.isInitialized s.process, got.1, Eal.isInitialized got.2⟩] }
  | .drop =>
      if s.guards = 0 then .error .mk
      else .ok { s with process := Eal.drop F s.process, guards := s.guards - 1 }

/-- The flag tracks the guard: it is set while one is alive, there is at most
    one, and a call that did not return `Ok` left the flag alone. -/
structure Tracks (s : EalRun ρ) : Prop where
  alive : Eal.isInitialized s.process = true ↔ 0 < s.guards
  single : s.guards ≤ 1
  restored : ∀ c ∈ s.calls, c.result ≠ .ok → c.after = c.before

/-- No argument with a NUL byte reaches the conversion. -/
def NulFree (s : EalRun ρ) : EalOp → Prop
  | .init args => Eal.isInitialized s.process = false → ¬ Eal.HasNul args
  | .drop => True

theorem start_tracks (ffi : ρ) : Tracks (start ffi) := by
  constructor
  · simp [start, Eal.isInitialized]
  · exact Nat.zero_le 1
  · intro c hc
    cases hc

theorem Tracks.guards_eq_zero {s : EalRun ρ} (hs : Tracks s)
    (h : s.process.initialized = false) : s.guards = 0 := by
  have halive := hs.alive
  rw [Eal.isInitialized, h] at halive
  simpa using halive

/-- One more call. -/
theorem forall_mem_calls_append {calls : List InitCall} {c : InitCall} {P : InitCall → Prop} :
    (∀ d ∈ calls ++ [c], P d) ↔ (∀ d ∈ calls, P d) ∧ P c := by
  rw [List.forall_mem_append, List.forall_mem_singleton]

/-- A call of `init` keeps flag and guard together exactly if no NUL byte reaches
    the conversion. -/
theorem init_tracks_iff {F : EalFfi ρ} {s s' : EalRun ρ} {args : List String} (hs : Tracks s)
    (h : s.step F (.init args) = .ok s') : Tracks s' ↔ NulFree s (.init args) := by
  have hs' := (Except.ok.inj h).symm
  subst hs'
  cases hflag : s.process.initialized with
  | true =>
      have hinit := Eal.init_of_initialized F args hflag
      constructor
      · intro _ hfree
        rw [Eal.isInitialized, hflag] at hfree
        cases hfree
      · intro _
        constructor
        · simpa [hinit] using hs.alive
        · simpa [hinit] using hs.single
        · rw [hinit, forall_mem_calls_append]
          exact ⟨hs.restored, fun _ => rfl⟩
  | false =>
      have hnone := hs.guards_eq_zero hflag
      by_cases hargs : Eal.HasNul args
      · have hinit := Eal.init_of_hasNul F hflag hargs
        constructor
        · intro ht
          -- the flag is set, and nobody holds a guard
          have := ht.alive
          simp [hinit, Eal.isInitialized, hnone] at this
        · intro hfree
          exact absurd hargs (hfree hflag)
      · refine iff_of_true ?_ (fun _ => hargs)
        obtain ⟨ffi, ⟨e, hinit⟩ | hinit⟩ := Eal.init_cases F hflag hargs
        · constructor
          · simp [hinit, Eal.isInitialized, hnone]
          · simp [hinit, hnone]
          · rw [hinit, forall_mem_calls_append]
            exact ⟨hs.restored, fun _ => hflag.symm⟩
        · constructor
          · simp [hinit, Eal.isInitialized]
          · simp [hinit, hnone]
          · rw [hinit, forall_mem_calls_append]
            exact ⟨hs.restored, fun hne => absurd rfl hne⟩

/-- Dropping the guard gives the flag back. -/
theorem drop_tracks {F : EalFfi ρ} {s s' : EalRun ρ} (hs : Tracks s)
    (h : s.step F .drop = .ok s') : Tracks s' := by
  simp only [step] at h
  split at h
  · cases h
  · rename_i halive
    have hs' := (Except.ok.inj h).symm
    subst hs'
    have hlast : s.guards - 1 = 0 := by
      have := hs.single
      omega
    constructor
    · simp [Eal.drop, Eal.isInitialized, hlast]
    · show s.guards - 1 ≤ 1
      omega
    · exact hs.restored

/-- **THE FLAG AND THE GUARD**: a process keeps them together, over all its calls,
    exactly if no argument with a NUL byte reaches the conversion. -/
theorem flag_tracks_guard_iff (F : EalFfi ρ) (ffi : ρ) (ops : List EalOp) :
    (∀ bs, bs <+: ops → ∀ t, run (step F) (start ffi) bs = .ok t → Tracks t) ↔
      Along (step F) NulFree (start ffi) ops := by
  refine always_iff_along ?_ ?_ ops (start ffi) (start_tracks ffi)
  · intro s op s' hs hstep
    cases op with
    | init args => exact init_tracks_iff hs hstep
    | drop => exact iff_of_true (drop_tracks hs hstep) trivial
  · intro s op e _ hstep
    cases op with
    | init args => cases hstep
    | drop => trivial

/-- An EAL that always comes up. -/
def readyEal : EalFfi Unit where
  ealInit _ _ _ := (0, ())
  ealCleanup _ := (0, ())
  rteErrno _ := 0

/-- One call, one argument of one byte, and the flag is set without a guard. -/
theorem nul_argument_keeps_flag :
    ∃ t, run (step readyEal) (start ()) [.init ["\x00"]] = .ok t ∧ ¬ Tracks t := by
  refine ⟨_, rfl, fun ht => ?_⟩
  have := ht.alive
  revert this
  decide

/-! ## After the panic -/

/-- The flag is set, and nobody is there to clear it. -/
def LockedOut (s : EalRun ρ) : Prop := s.process.initialized = true ∧ s.guards = 0

theorem step_lockedOut {F : EalFfi ρ} {s s' : EalRun ρ} {op : EalOp} (hs : LockedOut s)
    (h : s.step F op = .ok s') : LockedOut s' := by
  obtain ⟨hflag, hnone⟩ := hs
  cases op with
  | init args =>
      have hs' := (Except.ok.inj h).symm
      subst hs'
      simp only [LockedOut, Eal.init_of_initialized F args hflag]
      exact ⟨hflag, hnone⟩
  | drop =>
      simp only [step, hnone, if_true] at h
      cases h

/-- Once an argument with a NUL byte has reached the conversion, the process
    never gets a guard again: every later call says `EALREADY`. -/
theorem locked_out_of_run {F : EalFfi ρ} {s s' t : EalRun ρ} {args : List String}
    {ops : List EalOp} (hs : Tracks s) (hflag : s.process.initialized = false)
    (hargs : Eal.HasNul args) (hpanic : s.step F (.init args) = .ok s')
    (h : run (step F) s' ops = .ok t) (again : List String) :
    (Eal.init F again t.process).1 = .err ealready := by
  have hnone := hs.guards_eq_zero hflag
  have hlocked : LockedOut s' := by
    have hs' := (Except.ok.inj hpanic).symm
    subst hs'
    simp [LockedOut, Eal.init_of_hasNul F hflag hargs, hnone]
  have ht : LockedOut t := run_invariant (fun _ _ _ => step_lockedOut) hlocked h
  rw [Eal.init_of_initialized F again ht.1]

/-- The arguments of the second and the third call are in order. -/
theorem locked_out_after_nul :
    ∃ s' t, step readyEal (start ()) (.init ["\x00"]) = .ok s' ∧
      run (step readyEal) s' [.init ["dpdk"]] = .ok t ∧
      (Eal.init readyEal ["dpdk"] t.process).1 = .err ealready := by
  have hnul : Eal.HasNul ["\x00"] := ⟨"\x00", List.mem_singleton_self _, by decide⟩
  obtain ⟨s', hpanic⟩ : ∃ s', step readyEal (start ()) (.init ["\x00"]) = .ok s' := ⟨_, rfl⟩
  obtain ⟨t, hrun⟩ : ∃ t, run (step readyEal) s' [.init ["dpdk"]] = .ok t := ⟨_, rfl⟩
  exact ⟨s', t, hpanic, hrun, locked_out_of_run (start_tracks ()) rfl hnul hpanic hrun _⟩

end EalRun

end DpdkNet
