import DpdkNet.Lib.Runs
import DpdkNet.Lib.Tally

/-! # Who frees the mempool

    `DpdkServerRunner::run` keeps an `Arc<MemPool>` and hands a clone to every
    worker, where it ends up in the worker's `DpdkDevice`.  Whoever drops the last
    clone frees the pool.  A device drops its fields in the order of their
    declaration: `mempool`, then the mbufs in `rx_batch` and `tx_batch`.  If its
    clone is the last, it frees the pool first and the mbufs afterwards.

    The threads of the runner interleave in any order, and a thread that panics
    drops what it holds like one that returns.  No mbuf is touched after its pool
    exactly if the drop that frees the pool finds no batch with something in it
    (`pool_outlives_mbufs_iff`).  The runner sees to that by joining all workers
    before it drops its own clone (`runner_frees_pool_last`); a device that is the
    only owner, as the test harness builds it, does not
    (`lone_device_outlives_pool`). -/

namespace DpdkNet.Lifecycle

open Runs

/-- Where a worker stands in `run_worker`. -/
inductive WorkerPhase where
  /-- it has its clone, but no device yet -/
  | starting
  /-- the device has mbufs in its batches -/
  | running (rxBatch txBatch : Nat)
  /-- the device has dropped its clone, and has mbufs left to free -/
  | draining (left : Nat)
  | finished
  deriving DecidableEq, Repr

/-- The clones that a worker holds. -/
def WorkerPhase.holds : WorkerPhase → Nat
  | .starting | .running _ _ => 1
  | _ => 0

/-- The mbufs that it still has to free. -/
def WorkerPhase.mbufs : WorkerPhase → Nat
  | .running rxBatch txBatch => rxBatch + txBatch
  | .draining left => left
  | _ => 0

/-- Where the main thread stands in `run`. -/
inductive MainPhase where
  | spawning
  /-- its own worker is this one -/
  | serving (own : Nat)
  /-- all workers are joined -/
  | joined
  | stopped
  | closed
  /-- the pool is dropped -/
  | returned
  /-- unwound, or never an owner -/
  | unwound
  deriving DecidableEq, Repr

def MainPhase.holds : MainPhase → Nat
  | .returned | .unwound => 0
  | _ => 1

/-- All workers are joined. -/
def MainPhase.afterJoin : MainPhase → Bool
  | .joined | .stopped | .closed | .returned => true
  | _ => false

/-- The port has been stopped. -/
def MainPhase.portDown : MainPhase → Bool
  | .stopped | .closed | .returned => true
  | _ => false

/-- The owners of the pool, how often it was freed, how many calls touched it after
    that or the port after its end, and the threads. -/
structure State where
  owners : Nat
  frees : Nat
  faults : Nat
  main : MainPhase
  workers : List WorkerPhase
  deriving DecidableEq, Repr

inductive WorkerOp where
  /-- `create_device` -/
  | create
  /-- any traffic, after which the batches have these sizes -/
  | poll (rxBatch txBatch : Nat)
  /-- the clone is dropped, by the device or without one -/
  | release
  /-- an mbuf of a batch is dropped -/
  | freeMbuf
  | finish

inductive Op where
  | spawn
  /-- `run_worker` on the main thread -/
  | serve
  | worker (i : Nat) (op : WorkerOp)
  | join
  | stop
  | close
  | dropPool
  /-- the main thread unwinds; the threads it has spawned go on -/
  | panic

inductive NotNow where
  | mk

namespace State

/-- The runner as it has built the pool. -/
def start : State := ⟨1, 0, 0, .spawning, []⟩

/-- A clone is dropped; the last one frees the pool. -/
def release (s : State) : State :=
  { s with
    owners := s.owners - 1
    frees := if s.owners = 1 then s.frees + 1 else s.frees }

/-- A call that needs the pool. -/
def touch (s : State) : State :=
  if s.frees = 0 then s else { s with faults := s.faults + 1 }

/-- A burst on the port needs the port as well. -/
def burst (s : State) : State :=
  if s.main.portDown = true then { s with faults := s.faults + 1 } else s.touch

def setWorker (s : State) (i : Nat) (w : WorkerPhase) : State :=
  { s with workers := s.workers.set i w }

def workerStep (s : State) (i : Nat) (w : WorkerPhase) : WorkerOp → Except NotNow State
  | .create =>
      match w with
      | .starting => .ok (s.setWorker i (.running 0 0))
      | _ => .error .mk
  | .poll rxBatch txBatch =>
      match w with
      | .running _ _ => .ok (s.burst.setWorker i (.running rxBatch txBatch))
      | _ => .error .mk
  | .release =>
      match w with
      | .starting => .ok (s.release.setWorker i .finished)
      | .running rxBatch txBatch => .ok (s.release.setWorker i (.draining (rxBatch + txBatch)))
      | _ => .error .mk
  | .freeMbuf =>
      match w with
      | .draining (left + 1) => .ok (s.touch.setWorker i (.draining left))
      | _ => .error .mk
  | .finish =>
      match w with
      | .draining 0 => .ok (s.setWorker i .finished)
      | _ => .error .mk

/-- The main thread can unwind when no worker runs on it. -/
def canPanic (s : State) : Bool :=
  match s.main with
  | .serving own => s.workers[own]? = some .finished
  | .returned | .unwound => false
  | _ => true

def step (s : State) : Op → Except NotNow State
  | .spawn =>
      if s.main = .spawning then
        .ok { s with owners := s.owners + 1, workers := s.workers ++ [.starting] }
      else .error .mk
  | .serve =>
      if s.main = .spawning then
        .ok { s with
          owners := s.owners + 1
          workers := s.workers ++ [.starting]
          main := .serving s.workers.length }
      else .error .mk
  | .worker i op =>
      match s.workers[i]? with
      | some w => s.workerStep i w op
      | none => .error .mk
  | .join =>
      match s.main with
      | .serving _ =>
          if ∀ w ∈ s.workers, w = .finished then .ok { s with main := .joined } else .error .mk
      | _ => .error .mk
  | .stop => if s.main = .joined then .ok { s.touch with main := .stopped } else .error .mk
  | .close => if s.main = .stopped then .ok { s.touch with main := .closed } else .error .mk
  | .dropPool => if s.main = .closed then .ok { s.release with main := .returned } else .error .mk
  | .panic =>
      if s.canPanic = true then .ok { s.release with main := .unwound } else .error .mk

/-- The clones that the workers hold, and the mbufs that they have left to free. -/
def held (s : State) : Nat := (s.workers.map WorkerPhase.holds).sum

def left (s : State) : Nat := (s.workers.map WorkerPhase.mbufs).sum

/-! ## What a step does -/

/-- Everything that a step of a worker can be. -/
theorem workerStep_cases {s s' : State} {i : Nat} {w : WorkerPhase} {op : WorkerOp}
    (h : s.workerStep i w op = .ok s') :
    (op ≠ .release ∧ ∃ w', w = .starting ∧ w'.holds = 1 ∧ s' = s.setWorker i w') ∨
    (op ≠ .release ∧ ∃ w', w.holds = 1 ∧ w'.holds = 1 ∧ s' = s.burst.setWorker i w') ∨
    (op = .release ∧ ∃ w', w.holds = 1 ∧ w'.holds = 0 ∧ w'.mbufs = w.mbufs ∧
      s' = s.release.setWorker i w') ∨
    (op ≠ .release ∧ ∃ n, w = .draining (n + 1) ∧ s' = s.touch.setWorker i (.draining n)) ∨
    (op ≠ .release ∧ w = .draining 0 ∧ s' = s.setWorker i .finished) := by
  cases op with
  | create =>
      cases w <;> cases h
      exact Or.inl ⟨WorkerOp.noConfusion, _, rfl, rfl, rfl⟩
  | poll rxBatch txBatch =>
      cases w <;> cases h
      exact Or.inr (Or.inl ⟨WorkerOp.noConfusion, _, rfl, rfl, rfl⟩)
  | release =>
      cases w <;> cases h
      · exact Or.inr (Or.inr (Or.inl ⟨rfl, .finished, rfl, rfl, rfl, rfl⟩))
      · exact Or.inr (Or.inr (Or.inl ⟨rfl, .draining _, rfl, rfl, rfl, rfl⟩))
  | freeMbuf =>
      match w, h with
      | .draining (n + 1), h =>
          cases h
          exact Or.inr (Or.inr (Or.inr (Or.inl ⟨WorkerOp.noConfusion, n, rfl, rfl⟩)))
  | finish =>
      match w, h with
      | .draining 0, h =>
          cases h
          exact Or.inr (Or.inr (Or.inr (Or.inr ⟨WorkerOp.noConfusion, rfl, rfl⟩)))

section Set

variable {s : State} {i : Nat} {w : WorkerPhase}

theorem held_setWorker (w' : WorkerPhase) (h : s.workers[i]? = some w) :
    (s.setWorker i w').held + w.holds = s.held + w'.holds :=
  Tally.sum_map_set WorkerPhase.holds s.workers i h

theorem left_setWorker (w' : WorkerPhase) (h : s.workers[i]? = some w) :
    (s.setWorker i w').left + w.mbufs = s.left + w'.mbufs :=
  Tally.sum_map_set WorkerPhase.mbufs s.workers i h

theorem holds_le_held (h : s.workers[i]? = some w) : w.holds ≤ s.held :=
  Tally.le_sum_map WorkerPhase.holds h

theorem mbufs_le_left (h : s.workers[i]? = some w) : w.mbufs ≤ s.left :=
  Tally.le_sum_map WorkerPhase.mbufs h

end Set

/-- What a call changes, at most, is the number of faults. -/
structure OnlyFaults (s s' : State) : Prop where
  owners : s'.owners = s.owners
  frees : s'.frees = s.frees
  main : s'.main = s.main
  workers : s'.workers = s.workers

theorem touch_only (s : State) : OnlyFaults s s.touch := by
  rw [touch]
  split
  · exact ⟨rfl, rfl, rfl, rfl⟩
  · exact ⟨rfl, rfl, rfl, rfl⟩

theorem burst_only (s : State) : OnlyFaults s s.burst := by
  rw [burst]
  split
  · exact ⟨rfl, rfl, rfl, rfl⟩
  · exact touch_only s

/-! ## The owners are counted -/

/-- The number of owners is right, the pool is freed when there is none, and after
    the join all workers are finished. -/
structure Counted (s : State) : Prop where
  owners : s.owners = s.main.holds + s.held
  frees : s.frees = if s.owners = 0 then 1 else 0
  done : s.main.afterJoin = true → ∀ w ∈ s.workers, w = .finished

theorem Counted.frees_release {s : State} (hs : s.Counted) (hpos : 1 ≤ s.owners) :
    s.release.frees = if s.release.owners = 0 then 1 else 0 := by
  have hfrees := hs.frees
  rw [if_neg (by omega)] at hfrees
  show (if s.owners = 1 then s.frees + 1 else s.frees) = if s.owners - 1 = 0 then 1 else 0
  rw [hfrees]
  by_cases hone : s.owners = 1
  · rw [if_pos hone, if_pos (by omega)]
  · rw [if_neg hone, if_neg (by omega)]

/-- A worker that can take a step is not joined. -/
theorem Counted.not_afterJoin {s : State} (hs : s.Counted) {i : Nat} {w : WorkerPhase}
    (hi : s.workers[i]? = some w) (hw : w ≠ .finished) : s.main.afterJoin = false := by
  by_contra hjoin
  exact hw (hs.done (Bool.not_eq_false _ ▸ hjoin) w (List.mem_of_getElem? hi))

theorem WorkerPhase.ne_finished_of_holds {w : WorkerPhase} (h : w.holds = 1) : w ≠ .finished := by
  rintro rfl
  cases h

/-- The counts after a step of a worker that keeps its clone or has none. -/
theorem Counted.setWorker {s s' : State} (hs : s.Counted) (hsame : OnlyFaults s s') {i : Nat}
    {w w' : WorkerPhase} (hi : s.workers[i]? = some w) (hw : w ≠ .finished)
    (hholds : w'.holds = w.holds) : (s'.setWorker i w').Counted := by
  have hi' : s'.workers[i]? = some w := by
    rw [hsame.workers]
    exact hi
  have hheld := held_setWorker w' hi'
  have hsum : s'.held = s.held := by rw [held, held, hsame.workers]
  have hjoin := hs.not_afterJoin hi hw
  refine ⟨?_, ?_, ?_⟩
  · show s'.owners = s'.main.holds + (s'.setWorker i w').held
    rw [hsame.owners, hsame.main, hs.owners]
    omega
  · show s'.frees = if s'.owners = 0 then 1 else 0
    rw [hsame.frees, hsame.owners]
    exact hs.frees
  · intro hjoin'
    have hfalse : s'.main.afterJoin = true := hjoin'
    rw [hsame.main, hjoin] at hfalse
    cases hfalse

/-- The counts after the main thread has moved on, keeping its clone. -/
theorem Counted.setMain {s s' : State} (hs : s.Counted) (hsame : OnlyFaults s s')
    {m : MainPhase} (hholds : m.holds = s.main.holds)
    (hdone : m.afterJoin = true → ∀ w ∈ s.workers, w = .finished) :
    Counted { s' with main := m } := by
  refine ⟨?_, ?_, ?_⟩
  · show s'.owners = m.holds + (s'.workers.map WorkerPhase.holds).sum
    rw [hsame.owners, hsame.workers, hholds]
    exact hs.owners
  · show s'.frees = if s'.owners = 0 then 1 else 0
    rw [hsame.frees, hsame.owners]
    exact hs.frees
  · show m.afterJoin = true → ∀ w ∈ s'.workers, w = .finished
    rw [hsame.workers]
    exact hdone

/-- A clone for a new worker. -/
theorem Counted.addWorker {s : State} (hs : s.Counted) {m : MainPhase}
    (hmain : s.main = .spawning) (hholds : m.holds = 1) (hjoin : m.afterJoin = false) :
    Counted ⟨s.owners + 1, s.frees, s.faults, m, s.workers ++ [.starting]⟩ := by
  have howners := hs.owners
  rw [hmain] at howners
  have hpos : s.owners = 1 + s.held := howners
  refine ⟨?_, ?_, ?_⟩
  · show s.owners + 1 = m.holds + ((s.workers ++ [WorkerPhase.starting]).map WorkerPhase.holds).sum
    rw [List.map_append, List.sum_append, hholds, hpos]
    show 1 + s.held + 1 = 1 + (s.held + 1)
    omega
  · show s.frees = if s.owners + 1 = 0 then 1 else 0
    rw [hs.frees, if_neg (by omega), if_neg (by omega)]
  · intro h
    exact absurd (hjoin.symm.trans h) Bool.false_ne_true

/-- The main thread drops its clone. -/
theorem Counted.releaseMain {s : State} (hs : s.Counted) {m : MainPhase}
    (hholds : s.main.holds = 1) (hm : m.holds = 0)
    (hdone : m.afterJoin = true → ∀ w ∈ s.workers, w = .finished) :
    Counted { s.release with main := m } := by
  have howners := hs.owners
  refine ⟨?_, hs.frees_release (by omega), hdone⟩
  show s.owners - 1 = m.holds + s.held
  omega

theorem holds_of_canPanic {s : State} (hcan : s.canPanic = true) : s.main.holds = 1 := by
  rw [canPanic] at hcan
  cases hmain : s.main with
  | returned | unwound =>
      rw [hmain] at hcan
      cases hcan
  | _ => rfl

/-- **ONE STEP** keeps the counts. -/
theorem counted_step {s s' : State} {op : Op} (hs : s.Counted) (h : s.step op = .ok s') :
    s'.Counted := by
  have hself : OnlyFaults s s := ⟨rfl, rfl, rfl, rfl⟩
  cases op with
  | spawn =>
      obtain ⟨hmain, rfl⟩ := guard_eq_ok h
      exact hs.addWorker hmain (by rw [hmain]; rfl) (by rw [hmain]; rfl)
  | serve =>
      obtain ⟨hmain, rfl⟩ := guard_eq_ok h
      exact hs.addWorker hmain rfl rfl
  | worker i op =>
      simp only [step] at h
      split at h
      · rename_i w hi
        rcases workerStep_cases h with ⟨-, w', rfl, hw', rfl⟩ | ⟨-, w', hw, hw', rfl⟩ |
          ⟨-, w', hw, hw', -, rfl⟩ | ⟨-, n, rfl, rfl⟩ | ⟨-, rfl, rfl⟩
        · exact hs.setWorker hself hi WorkerPhase.noConfusion hw'
        · exact hs.setWorker (burst_only s) hi (WorkerPhase.ne_finished_of_holds hw)
            (hw'.trans hw.symm)
        · have hheld := held_setWorker w' hi
          have hle := holds_le_held hi
          have howners := hs.owners
          refine ⟨?_, hs.frees_release (by omega), ?_⟩
          · show s.owners - 1 = s.main.holds + (s.setWorker i w').held
            omega
          · intro hjoin
            have hfalse := hs.not_afterJoin hi (WorkerPhase.ne_finished_of_holds hw)
            exact absurd (hfalse.symm.trans hjoin) Bool.false_ne_true
        · exact hs.setWorker (touch_only s) hi WorkerPhase.noConfusion rfl
        · exact hs.setWorker hself hi WorkerPhase.noConfusion rfl
      · cases h
  | join =>
      simp only [step] at h
      split at h
      · rename_i own hmain
        obtain ⟨hall, rfl⟩ := guard_eq_ok h
        exact hs.setMain hself (by rw [hmain]; rfl) (fun _ => hall)
      · cases h
  | stop =>
      obtain ⟨hmain, rfl⟩ := guard_eq_ok h
      exact hs.setMain (touch_only s) (by rw [hmain]; rfl) (fun _ => hs.done (by rw [hmain]; rfl))
  | close =>
      obtain ⟨hmain, rfl⟩ := guard_eq_ok h
      exact hs.setMain (touch_only s) (by rw [hmain]; rfl) (fun _ => hs.done (by rw [hmain]; rfl))
  | dropPool =>
      obtain ⟨hmain, rfl⟩ := guard_eq_ok h
      exact hs.releaseMain (by rw [hmain]; rfl) rfl (fun _ => hs.done (by rw [hmain]; rfl))
  | panic =>
      obtain ⟨hcan, rfl⟩ := guard_eq_ok h
      exact hs.releaseMain (holds_of_canPanic hcan) rfl (fun h => by cases h)

/-! ## When the pool outlives its mbufs -/

/-- Nothing was touched after its end, and once the pool is freed no batch has
    anything left in it. -/
structure Sound (s : State) : Prop where
  faults : s.faults = 0
  drained : s.frees ≠ 0 → s.left = 0

/-- Does this operation drop a clone? -/
def releases (s : State) : Op → Bool
  | .worker i .release => (s.workers[i]?.map WorkerPhase.holds) = some 1
  | .dropPool => s.main = .closed
  | .panic => s.canPanic
  | _ => false

/-- The condition: a drop of the last clone finds all batches empty, those of the
    device that drops it included. -/
def FreesLast (s : State) (op : Op) : Prop :=
  s.releases op = true → s.owners = 1 → s.left = 0

/-- With an owner left, the pool is there. -/
theorem Counted.frees_eq_zero {s : State} (hs : s.Counted) (hpos : s.owners ≠ 0) :
    s.frees = 0 := by
  rw [hs.frees, if_neg hpos]

/-- A call that needs the pool, while it is there. -/
theorem touch_eq {s : State} (h : s.frees = 0) : s.touch = s := by
  rw [touch, if_pos h]

/-- After the drop of a clone. -/
theorem Sound.release_iff {s : State} (hs : s.Sound) (s' : State) (hcount : s.Counted)
    (hpos : s.owners ≠ 0) (hfaults : s'.faults = s.faults) (hfrees : s'.frees = s.release.frees)
    (hleft : s'.left = s.left) : s'.Sound ↔ (s.owners = 1 → s.left = 0) := by
  have hzero := hcount.frees_eq_zero hpos
  have hnow : s'.frees = if s.owners = 1 then 1 else 0 := by
    rw [hfrees]
    show (if s.owners = 1 then s.frees + 1 else s.frees) = _
    rw [hzero]
  constructor
  · intro hsound hone
    rw [← hleft]
    refine hsound.drained ?_
    rw [hnow, if_pos hone]
    exact Nat.one_ne_zero
  · intro hempty
    refine ⟨hfaults.trans hs.faults, fun hne => ?_⟩
    rw [hleft]
    refine hempty ?_
    by_contra hmore
    rw [hnow, if_neg hmore] at hne
    exact hne rfl

/-- A step that drops no clone, and puts nothing into a batch of a freed pool. -/
theorem Sound.of_same {s s' : State} (hs : s.Sound) (hfaults : s'.faults = s.faults)
    (hfrees : s'.frees = s.frees) (hleft : s.frees ≠ 0 → s'.left ≤ s.left) : s'.Sound := by
  refine ⟨hfaults.trans hs.faults, fun hne => ?_⟩
  rw [hfrees] at hne
  have hzero := hs.drained hne
  have hle := hleft hne
  omega

/-- A burst of a worker that has its clone. -/
theorem Counted.burst_eq {s : State} (hs : s.Counted) {i : Nat} {w : WorkerPhase}
    (hi : s.workers[i]? = some w) (hw : w.holds = 1) : s.burst = s := by
  have hle := holds_le_held hi
  have howners := hs.owners
  have hup : ¬ s.main.portDown = true := by
    have hjoin := hs.not_afterJoin hi (WorkerPhase.ne_finished_of_holds hw)
    cases hmain : s.main with
    | stopped | closed | returned =>
        rw [hmain] at hjoin
        cases hjoin
    | _ => exact Bool.noConfusion
  rw [burst, if_neg hup, touch_eq (hs.frees_eq_zero (by omega))]

theorem releases_of_ne {s : State} {i : Nat} {op : WorkerOp} (h : op ≠ .release) :
    s.releases (.worker i op) = false := by
  cases op with
  | release => exact absurd rfl h
  | _ => rfl

/-- A step of a worker is sound exactly if it meets the condition. -/
theorem sound_worker_iff {s s' : State} {i : Nat} {w : WorkerPhase} {op : WorkerOp}
    (hcount : s.Counted) (hs : s.Sound) (hi : s.workers[i]? = some w)
    (h : s.workerStep i w op = .ok s') : s'.Sound ↔ s.FreesLast (.worker i op) := by
  have howners := hcount.owners
  have hle := holds_le_held hi
  have hle' := mbufs_le_left hi
  have hkeeps : op ≠ .release → s.FreesLast (.worker i op) := by
    intro hop hrel
    rw [releases_of_ne hop] at hrel
    cases hrel
  -- a worker that has its clone can rely on the pool
  have hthere : w.holds = 1 → s.frees = 0 := fun hw => hcount.frees_eq_zero (by omega)
  rcases workerStep_cases h with ⟨hop, w', rfl, -, rfl⟩ | ⟨hop, w', hw, -, rfl⟩ |
    ⟨rfl, w', hw, hw', hmbufs, rfl⟩ | ⟨hop, n, rfl, rfl⟩ | ⟨hop, rfl, rfl⟩
  · exact iff_of_true (hs.of_same rfl rfl fun hne => absurd (hthere rfl) hne) (hkeeps hop)
  · rw [hcount.burst_eq hi hw]
    exact iff_of_true (hs.of_same rfl rfl fun hne => absurd (hthere hw) hne) (hkeeps hop)
  · have hleft := left_setWorker w' hi
    have hrel : s.releases (.worker i .release) = true := by
      simp only [releases, hi, Option.map_some, hw, decide_true]
    rw [hs.release_iff (s.release.setWorker i w') hcount (by omega) rfl rfl
      (show (s.setWorker i w').left = s.left by omega), FreesLast]
    exact ⟨fun hempty _ => hempty, fun hempty => hempty hrel⟩
  · -- there is an mbuf left, so the pool is not freed
    have hzero : s.frees = 0 := by
      by_contra hne
      have hnone := hs.drained hne
      have hsome : n + 1 ≤ s.left := hle'
      omega
    rw [touch_eq hzero]
    exact iff_of_true (hs.of_same rfl rfl fun hne => absurd hzero hne) (hkeeps hop)
  · have hleft := left_setWorker .finished hi
    refine iff_of_true (hs.of_same rfl rfl fun _ => ?_) (hkeeps hop)
    exact Nat.le_of_eq hleft

/-- **ONE STEP** is sound exactly if it meets the condition. -/
theorem sound_step_iff {s s' : State} {op : Op} (hcount : s.Counted) (hs : s.Sound)
    (h : s.step op = .ok s') : s'.Sound ↔ s.FreesLast op := by
  have howners := hcount.owners
  -- the main thread has its clone
  have hthere : s.main.holds = 1 → s.frees = 0 := fun hm => hcount.frees_eq_zero (by omega)
  cases op with
  | spawn =>
      obtain ⟨hmain, rfl⟩ := guard_eq_ok h
      exact iff_of_true (hs.of_same rfl rfl fun hne => absurd (hthere (by rw [hmain]; rfl)) hne)
        (fun hfalse => by cases hfalse)
  | serve =>
      obtain ⟨hmain, rfl⟩ := guard_eq_ok h
      exact iff_of_true (hs.of_same rfl rfl fun hne => absurd (hthere (by rw [hmain]; rfl)) hne)
        (fun hfalse => by cases hfalse)
  | worker i op =>
      simp only [step] at h
      split at h
      · rename_i w hi
        exact sound_worker_iff hcount hs hi h
      · cases h
  | join =>
      simp only [step] at h
      split at h
      · obtain ⟨-, rfl⟩ := guard_eq_ok h
        exact iff_of_true (hs.of_same rfl rfl fun _ => Nat.le_refl _)
          (fun hfalse => by cases hfalse)
      · cases h
  | stop =>
      obtain ⟨hmain, rfl⟩ := guard_eq_ok h
      rw [touch_eq (hthere (by rw [hmain]; rfl))]
      exact iff_of_true (hs.of_same rfl rfl fun _ => Nat.le_refl _) (fun hfalse => by cases hfalse)
  | close =>
      obtain ⟨hmain, rfl⟩ := guard_eq_ok h
      rw [touch_eq (hthere (by rw [hmain]; rfl))]
      exact iff_of_true (hs.of_same rfl rfl fun _ => Nat.le_refl _) (fun hfalse => by cases hfalse)
  | dropPool =>
      obtain ⟨hmain, rfl⟩ := guard_eq_ok h
      have hone : s.main.holds = 1 := by
        rw [hmain]
        rfl
      have hiff := hs.release_iff { s.release with main := .returned } hcount (by omega)
        rfl rfl rfl
      exact hiff.trans ⟨fun hempty _ => hempty, fun hempty => hempty (decide_eq_true hmain)⟩
  | panic =>
      obtain ⟨hcan, rfl⟩ := guard_eq_ok h
      have hone : s.main.holds = 1 := holds_of_canPanic hcan
      have hiff := hs.release_iff { s.release with main := .unwound } hcount (by omega)
        rfl rfl rfl
      exact hiff.trans ⟨fun hempty _ => hempty, fun hempty => hempty hcan⟩

theorem start_inv : start.Counted ∧ start.Sound :=
  ⟨⟨rfl, rfl, fun h => by cases h⟩, rfl, fun h => absurd rfl h⟩

/-- While the main thread has its clone nobody else frees the pool, and when it
    drops it all workers are finished. -/
theorem freesLast_of_counted {s : State} {op : Op} (hs : s.Counted) (hmain : s.main ≠ .unwound)
    (hop : op ≠ .panic) : s.FreesLast op := by
  intro hrel hone
  have howners := hs.owners
  cases op with
  | worker i op =>
      cases op with
      | release =>
          have hholds := of_decide_eq_true hrel
          cases hi : s.workers[i]? with
          | none =>
              rw [hi] at hholds
              cases hholds
          | some w =>
              rw [hi] at hholds
              have hw : w.holds = 1 := Option.some.inj hholds
              have hle := holds_le_held hi
              have hjoin := hs.not_afterJoin hi (WorkerPhase.ne_finished_of_holds hw)
              have hheld : s.main.holds = 1 := by
                cases hm : s.main with
                | unwound => exact absurd hm hmain
                | returned =>
                    rw [hm] at hjoin
                    cases hjoin
                | _ => rfl
              omega
      | _ => cases hrel
  | dropPool =>
      have hclosed : s.main = .closed := of_decide_eq_true hrel
      have hall := hs.done (by rw [hclosed]; rfl)
      refine List.sum_eq_zero (fun n hn => ?_)
      obtain ⟨w, hw, rfl⟩ := List.mem_map.mp hn
      rw [hall w hw]
      rfl
  | panic => exact absurd rfl hop
  | _ => cases hrel

/-- The main thread unwinds only by a panic. -/
theorem main_step {s s' : State} {op : Op} (hmain : s.main ≠ .unwound) (hop : op ≠ .panic)
    (h : s.step op = .ok s') : s'.main ≠ .unwound := by
  cases op with
  | spawn =>
      obtain ⟨-, rfl⟩ := guard_eq_ok h
      exact hmain
  | worker i op =>
      simp only [step] at h
      split at h
      · rename_i w hi
        rcases workerStep_cases h with ⟨-, w', -, -, rfl⟩ | ⟨-, w', -, -, rfl⟩ |
          ⟨-, w', -, -, -, rfl⟩ | ⟨-, n, -, rfl⟩ | ⟨-, -, rfl⟩
        · exact hmain
        · show s.burst.main ≠ .unwound
          rw [(burst_only s).main]
          exact hmain
        · exact hmain
        · show s.touch.main ≠ .unwound
          rw [(touch_only s).main]
          exact hmain
        · exact hmain
      · cases h
  | join =>
      simp only [step] at h
      split at h
      · obtain ⟨-, rfl⟩ := guard_eq_ok h
        exact MainPhase.noConfusion
      · cases h
  | panic => exact absurd rfl hop
  | serve | stop | close | dropPool =>
      obtain ⟨-, rfl⟩ := guard_eq_ok h
      exact MainPhase.noConfusion

/-- **THE RUNNER FREES THE POOL LAST**: in every run of its threads, whatever the
    workers do and whichever of the spawned ones panics, as long as the main
    thread does not unwind: nothing is touched after its end, the pool is freed
    exactly once, when `run` returns, and then every worker is finished. -/
theorem runner_frees_pool_last (ops : List Op) (hops : ∀ op ∈ ops, op ≠ .panic) (t : State)
    (hrun : run step start ops = .ok t) :
    t.faults = 0 ∧ t.frees = (if t.main = .returned then 1 else 0) ∧
      (t.main = .returned → ∀ w ∈ t.workers, w = .finished) := by
  have hinv : (t.Counted ∧ t.Sound) ∧ t.main ≠ .unwound := by
    refine run_invariant_along (P := fun _ op => op ≠ .panic)
      (I := fun u : State => (u.Counted ∧ u.Sound) ∧ u.main ≠ .unwound) ?_ ops start t
      ⟨start_inv, MainPhase.noConfusion⟩ (along_of_forall_mem ops start hops) hrun
    rintro u op u' ⟨⟨hu, hsound⟩, hmain⟩ hop h
    exact ⟨⟨counted_step hu h, (sound_step_iff hu hsound h).mpr (freesLast_of_counted hu hmain hop)⟩,
      main_step hmain hop h⟩
  obtain ⟨⟨hcount, hsound⟩, hmain⟩ := hinv
  refine ⟨hsound.faults, ?_, fun hret => hcount.done (by rw [hret]; rfl)⟩
  have howners := hcount.owners
  by_cases hret : t.main = .returned
  · -- no worker holds a clone
    have hheld : t.held = 0 := by
      refine List.sum_eq_zero (fun n hn => ?_)
      obtain ⟨w, hw, rfl⟩ := List.mem_map.mp hn
      rw [hcount.done (by rw [hret]; rfl) w hw]
      rfl
    rw [hret] at howners
    rw [hcount.frees, if_pos hret, if_pos]
    rw [howners, hheld]
    rfl
  · have hholds : t.main.holds = 1 := by
      cases hm : t.main with
      | returned => exact absurd hm hret
      | unwound => exact absurd hm hmain
      | _ => rfl
    rw [if_neg hret, hcount.frees_eq_zero (by omega)]

/-- Two workers, one of which panics with mbufs in its batches while the other is
    still receiving. -/
theorem runner_survives_worker_panic :
    ∃ ops t, run step start ops = .ok t ∧ t.main = .returned ∧ t.frees = 1 ∧ t.faults = 0 := by
  obtain ⟨t, hrun, hret⟩ : ∃ t, run step start
      [.spawn, .serve, .worker 0 .create, .worker 1 .create, .worker 0 (.poll 1 1),
        .worker 0 .release, .worker 1 (.poll 2 0), .worker 0 .freeMbuf, .worker 0 .freeMbuf,
        .worker 0 .finish, .worker 1 (.poll 0 0), .worker 1 .release, .worker 1 .finish, .join,
        .stop, .close, .dropPool] = .ok t ∧ t.main = .returned := ⟨_, rfl, rfl⟩
  obtain ⟨hfaults, hfrees, -⟩ := runner_frees_pool_last _ (by simp) t hrun
  rw [if_pos hret] at hfrees
  exact ⟨_, t, hrun, hret, hfrees, hfaults⟩

/-! ## A device that is the only owner -/

/-- What `DpdkTestContextBuilder::build` returns: the device has the only clone. -/
def lone (rxBatch txBatch : Nat) : State := ⟨1, 0, 0, .unwound, [.running rxBatch txBatch]⟩

/-- The mbufs of a batch, one after the other, into a pool that is freed. -/
theorem run_freeMbuf : ∀ (n faults : Nat),
    run step ⟨0, 1, faults, .unwound, [.draining n]⟩ (List.replicate n (.worker 0 .freeMbuf))
      = .ok ⟨0, 1, faults + n, .unwound, [.draining 0]⟩ := by
  intro n
  induction n with
  | zero => intro faults; rfl
  | succ n ih =>
      intro faults
      have hfree : step ⟨0, 1, faults, .unwound, [.draining (n + 1)]⟩ (.worker 0 .freeMbuf)
        = .ok ⟨0, 1, faults + 1, .unwound, [.draining n]⟩ := rfl
      rw [List.replicate_succ, run_cons_ok hfree, ih (faults + 1)]
      congr 2
      omega

/-- **A LONE DEVICE OUTLIVES ITS POOL**: dropping a device that is the only owner
    frees the pool first, and then every mbuf in its batches into the freed
    pool. -/
theorem lone_device_outlives_pool (rxBatch txBatch : Nat) :
    run step (lone rxBatch txBatch)
        (.worker 0 .release :: List.replicate (rxBatch + txBatch) (.worker 0 .freeMbuf) ++
          [.worker 0 .finish])
      = .ok ⟨0, 1, rxBatch + txBatch, .unwound, [.finished]⟩ := by
  have hrelease : step (lone rxBatch txBatch) (.worker 0 .release)
    = .ok ⟨0, 1, 0, .unwound, [.draining (rxBatch + txBatch)]⟩ := rfl
  rw [List.cons_append, run_cons_ok hrelease, run_append (run_freeMbuf (rxBatch + txBatch) 0), Nat.zero_add]
  rfl

end State

end DpdkNet.Lifecycle
