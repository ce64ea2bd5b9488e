import DpdkNet.Lib.Runs
import DpdkNet.Lib.Tally

/-! # The statistics of the benchmark client

    `stats.rs`: each connection task accumulates its own `LocalStats` and merges
    them into the shared ones when it ends.  The three counters are added
    atomically; the histogram is added under a lock that is only tried.

    All tasks end at the same deadline, so their merges overlap.  Every access
    to the shared statistics is a step here, and the steps of any number of
    tasks interleave in any order. -/

namespace DpdkNet.Bench

open Runs Tally

def u64Max : Nat := 2 ^ 64 - 1

/-- The histograms of `hdrhistogram` with bounds 1 to 60 000 000, as far as their
    total count goes: the count saturates, a latency within the bounds counts
    once, and adding a histogram adds its count. -/
structure HistogramCrate where
  Histogram : Type
  new : Histogram
  record : Histogram → Nat → Histogram
  add : Histogram → Histogram → Histogram
  len : Histogram → Nat
  len_new : len new = 0
  len_record : ∀ h v, 1 ≤ v → v ≤ 60000000 → len (record h v) = min (len h + 1) u64Max
  len_add : ∀ h h', len (add h h') = min (len h + len h') u64Max

/-- A latency in microseconds, within the histogram's bounds. -/
structure Latency where
  us : Nat
  low : 1 ≤ us
  high : us ≤ 60000000

/-- What a task records of one request. -/
inductive Outcome where
  | success (latency : Latency) (bytes : UInt64)
  | error

/-- Local stats accumulated per connection. -/
structure LocalStats (C : HistogramCrate) where
  histogram : C.Histogram
  requests : UInt64
  bytes : UInt64
  errors : UInt64

variable {C : HistogramCrate}

namespace LocalStats

def new : LocalStats C := ⟨C.new, 0, 0, 0⟩

def recordSuccess (l : LocalStats C) (latencyUs : Nat) (bytes : UInt64) : LocalStats C :=
  { l with
    requests := l.requests + 1
    bytes := l.bytes + bytes
    histogram := C.record l.histogram latencyUs }

def recordError (l : LocalStats C) : LocalStats C := { l with errors := l.errors + 1 }

def record (l : LocalStats C) : Outcome → LocalStats C
  | .success latency bytes => l.recordSuccess latency.us bytes
  | .error => l.recordError

/-- The statistics of a task that has recorded these outcomes. -/
def recordAll (outcomes : List Outcome) : LocalStats C := outcomes.foldl record new

end LocalStats

/-! ## Merging -/

/-- Where a task stands in `merge_into`. -/
inductive Pc where
  | start
  | requestsAdded
  | bytesAdded
  | errorsAdded
  /-- `try_lock` succeeded -/
  | locked
  | histogramAdded
  | merged
  /-- `try_lock` failed -/
  | missed
  deriving DecidableEq, Repr

def Pc.finished : Pc → Bool
  | .merged | .missed => true
  | _ => false

/-- The shared statistics and the tasks. -/
structure BenchStats (C : HistogramCrate) (ι : Type) where
  requests : UInt64
  bytesRead : UInt64
  errors : UInt64
  latencyHistogram : C.Histogram
  lock : Option ι
  pc : ι → Pc

/-- The task has nothing left to do. -/
inductive Finished where
  | finished

variable {ι : Type}

def BenchStats.new : BenchStats C ι := ⟨0, 0, 0, C.new, none, fun _ => .start⟩

section Steps

variable [DecidableEq ι]

def BenchStats.goto (s : BenchStats C ι) (i : ι) (a : Pc) : BenchStats C ι :=
  { s with pc := Function.update s.pc i a }

/-- The next step of task `i` in `merge_into`. -/
def mergeStep (outcomes : ι → List Outcome) (s : BenchStats C ι) (i : ι) :
    Except Finished (BenchStats C ι) :=
  let l : LocalStats C := .recordAll (outcomes i)
  match s.pc i with
  | .start =>
      .ok ({ s with requests := s.requests + l.requests }.goto i .requestsAdded)
  | .requestsAdded =>
      .ok ({ s with bytesRead := s.bytesRead + l.bytes }.goto i .bytesAdded)
  | .bytesAdded =>
      .ok ({ s with errors := s.errors + l.errors }.goto i .errorsAdded)
  | .errorsAdded =>
      match s.lock with
      | none => .ok ({ s with lock := some i }.goto i .locked)
      | some _ => .ok (s.goto i .missed)
  | .locked =>
      .ok ({ s with
        latencyHistogram := C.add s.latencyHistogram l.histogram }.goto i .histogramAdded)
  | .histogramAdded => .ok ({ s with lock := none }.goto i .merged)
  | .merged | .missed => .error .finished

end Steps

/-! ## What was recorded -/

namespace Outcome

def requests : Outcome → Nat
  | .success _ _ => 1
  | .error => 0

def bytes : Outcome → Nat
  | .success _ bytes => bytes.toNat
  | .error => 0

def errors : Outcome → Nat
  | .success _ _ => 0
  | .error => 1

end Outcome

/-- What the outcomes of a task add up to. -/
def total (amount : Outcome → Nat) (outcomes : List Outcome) : Nat := (outcomes.map amount).sum

theorem total_cons (amount : Outcome → Nat) (o : Outcome) (os : List Outcome) :
    total amount (o :: os) = amount o + total amount os := rfl

/-- A local counter is the total of what was recorded, modulo `2^64`. -/
theorem LocalStats.counter_recordAll (counter : LocalStats C → UInt64) (amount : Outcome → Nat)
    (hnew : (counter .new).toNat = 0)
    (hrecord : ∀ l o, (counter (l.record o)).toNat = ((counter l).toNat + amount o) % 2 ^ 64)
    (os : List Outcome) :
    (counter (.recordAll os)).toNat = total amount os % 2 ^ 64 := by
  have hfold : ∀ (os : List Outcome) (l : LocalStats C),
      (counter (os.foldl record l)).toNat = ((counter l).toNat + total amount os) % 2 ^ 64 := by
    intro os
    induction os with
    | nil =>
        intro l
        show (counter l).toNat = ((counter l).toNat + 0) % 2 ^ 64
        exact (Nat.mod_eq_of_lt (counter l).toNat_lt).symm
    | cons o os ih =>
        intro l
        rw [List.foldl_cons, ih, hrecord, total_cons, Nat.mod_add_mod, Nat.add_assoc]
  rw [recordAll, hfold, hnew, Nat.zero_add]

theorem LocalStats.requests_recordAll (os : List Outcome) :
    (LocalStats.recordAll os : LocalStats C).requests.toNat = total Outcome.requests os % 2 ^ 64 := by
  refine counter_recordAll (C := C) LocalStats.requests Outcome.requests rfl ?_ os
  intro l o
  cases o with
  | success latency bytes => exact UInt64.toNat_add _ _
  | error => exact (Nat.mod_eq_of_lt l.requests.toNat_lt).symm

theorem LocalStats.bytes_recordAll (os : List Outcome) :
    (LocalStats.recordAll os : LocalStats C).bytes.toNat = total Outcome.bytes os % 2 ^ 64 := by
  refine counter_recordAll (C := C) LocalStats.bytes Outcome.bytes rfl ?_ os
  intro l o
  cases o with
  | success latency bytes => exact UInt64.toNat_add _ _
  | error => exact (Nat.mod_eq_of_lt l.bytes.toNat_lt).symm

theorem LocalStats.errors_recordAll (os : List Outcome) :
    (LocalStats.recordAll os : LocalStats C).errors.toNat = total Outcome.errors os % 2 ^ 64 := by
  refine counter_recordAll (C := C) LocalStats.errors Outcome.errors rfl ?_ os
  intro l o
  cases o with
  | success latency bytes => exact (Nat.mod_eq_of_lt l.errors.toNat_lt).symm
  | error => exact UInt64.toNat_add _ _

/-- The local histogram counts the successes, up to the largest count there is. -/
theorem LocalStats.len_recordAll (os : List Outcome) :
    C.len (LocalStats.recordAll os : LocalStats C).histogram
      = min (total Outcome.requests os) u64Max := by
  have hfold : ∀ (os : List Outcome) (l : LocalStats C), C.len l.histogram ≤ u64Max →
      C.len (os.foldl record l).histogram
        = min (C.len l.histogram + total Outcome.requests os) u64Max := by
    intro os
    induction os with
    | nil =>
        intro l hl
        exact (Nat.min_eq_left hl).symm
    | cons o os ih =>
        intro l hl
        rw [List.foldl_cons, total_cons]
        cases o with
        | success latency bytes =>
            have hrec : C.len (l.record (.success latency bytes)).histogram
                = min (C.len l.histogram + 1) u64Max :=
              C.len_record l.histogram latency.us latency.low latency.high
            rw [ih _ (by rw [hrec]; exact Nat.min_le_right _ _), hrec]
            show _ = min (C.len l.histogram + (1 + total Outcome.requests os)) u64Max
            omega
        | error =>
            rw [ih (l.record .error) hl]
            show _ = min (C.len l.histogram + (0 + total Outcome.requests os)) u64Max
            rw [Nat.zero_add]
            rfl
  have hzero : C.len (LocalStats.new : LocalStats C).histogram = 0 := C.len_new
  rw [recordAll, hfold os .new (by rw [hzero]; exact Nat.zero_le _), hzero, Nat.zero_add]

/-! ## The tallies -/

namespace Pc

def pastRequests : Pc → Bool
  | .start => false
  | _ => true

def pastBytes : Pc → Bool
  | .start | .requestsAdded => false
  | _ => true

def pastErrors : Pc → Bool
  | .start | .requestsAdded | .bytesAdded => false
  | _ => true

/-- The histogram of the task is in. -/
def counted : Pc → Bool
  | .histogramAdded | .merged => true
  | _ => false

/-- A finished task is past the additions, and counted unless it missed the
    lock. -/
theorem past_of_finished {a : Pc} (h : a.finished = true) :
    a.pastRequests = true ∧ a.pastBytes = true ∧ a.pastErrors = true ∧
      (a.counted = false ↔ a = .missed) := by
  cases a with
  | merged => exact ⟨rfl, rfl, rfl, by decide⟩
  | missed => exact ⟨rfl, rfl, rfl, by decide⟩
  | _ => cases h

end Pc

variable [Fintype ι]

/-- Each shared counter is the tally of the tasks past its addition, modulo
    `2^64`, and the histogram that of the tasks whose histogram is in. -/
structure Tallied (outcomes : ι → List Outcome) (s : BenchStats C ι) : Prop where
  requests : s.requests.toNat =
    tally Pc.pastRequests (fun i => total Outcome.requests (outcomes i)) s.pc % 2 ^ 64
  bytes : s.bytesRead.toNat =
    tally Pc.pastBytes (fun i => total Outcome.bytes (outcomes i)) s.pc % 2 ^ 64
  errors : s.errors.toNat =
    tally Pc.pastErrors (fun i => total Outcome.errors (outcomes i)) s.pc % 2 ^ 64
  histogram : C.len s.latencyHistogram =
    min (tally Pc.counted (fun i => total Outcome.requests (outcomes i)) s.pc) u64Max

theorem tallied_new (outcomes : ι → List Outcome) : Tallied outcomes (.new : BenchStats C ι) := by
  refine ⟨?_, ?_, ?_, ?_⟩
  · rw [tally_none (fun _ => rfl)]
    rfl
  · rw [tally_none (fun _ => rfl)]
    rfl
  · rw [tally_none (fun _ => rfl)]
    rfl
  · rw [tally_none (fun _ => rfl)]
    exact C.len_new

/-- Adding a wrapped amount to a wrapped tally. -/
theorem toNat_add_mod {c a : UInt64} {n m : Nat} (hc : c.toNat = n % 2 ^ 64)
    (ha : a.toNat = m % 2 ^ 64) : (c + a).toNat = (n + m) % 2 ^ 64 := by
  rw [UInt64.toNat_add, hc, ha, ← Nat.add_mod]

variable [DecidableEq ι]

/-- A move past no point leaves every tally alone. -/
theorem Tallied.move {outcomes : ι → List Outcome} {s s' : BenchStats C ι} {i : ι} {a : Pc}
    (hs : Tallied outcomes s) (hpc : s'.pc = Function.update s.pc i a)
    (hnum : s'.requests = s.requests ∧ s'.bytesRead = s.bytesRead ∧ s'.errors = s.errors ∧
      s'.latencyHistogram = s.latencyHistogram)
    (hpast : a.pastRequests = (s.pc i).pastRequests ∧ a.pastBytes = (s.pc i).pastBytes ∧
      a.pastErrors = (s.pc i).pastErrors ∧ a.counted = (s.pc i).counted) : Tallied outcomes s' := by
  obtain ⟨hreq, hbytes, herr, hlen⟩ := hnum
  obtain ⟨preq, pbytes, perr, plen⟩ := hpast
  refine ⟨?_, ?_, ?_, ?_⟩
  · rw [hreq, hpc, tally_update_same preq]
    exact hs.requests
  · rw [hbytes, hpc, tally_update_same pbytes]
    exact hs.bytes
  · rw [herr, hpc, tally_update_same perr]
    exact hs.errors
  · rw [hlen, hpc, tally_update_same plen]
    exact hs.histogram

/-- **ONE STEP** of a merge keeps the tallies. -/
theorem tallied_step {outcomes : ι → List Outcome} {s s' : BenchStats C ι} {i : ι}
    (hs : Tallied outcomes s) (h : mergeStep outcomes s i = .ok s') : Tallied outcomes s' := by
  -- a move past no point leaves every tally alone
  have keep : ∀ {a : Pc} {p : Pc → Bool} {x : ι → Nat}, p a = p (s.pc i) →
      tally p x s.pc % 2 ^ 64 = tally p x (Function.update s.pc i a) % 2 ^ 64 :=
    fun h => congrArg (· % 2 ^ 64) (tally_update_same h).symm
  have keepLen : ∀ {a : Pc} {x : ι → Nat}, Pc.counted a = Pc.counted (s.pc i) →
      min (tally Pc.counted x s.pc) u64Max
        = min (tally Pc.counted x (Function.update s.pc i a)) u64Max :=
    fun h => congrArg (min · u64Max) (tally_update_same h).symm
  unfold mergeStep at h
  cases hpc : s.pc i with
  | start =>
      simp only [hpc] at h keep keepLen
      cases h
      refine ⟨?_, ?_, ?_, ?_⟩
      · refine (toNat_add_mod hs.requests (LocalStats.requests_recordAll _)).trans ?_
        exact congrArg (· % 2 ^ 64) (tally_update_new rfl (by rw [hpc]; rfl)).symm
      · exact hs.bytes.trans (keep rfl)
      · exact hs.errors.trans (keep rfl)
      · exact hs.histogram.trans (keepLen rfl)
  | requestsAdded =>
      simp only [hpc] at h keep keepLen
      cases h
      refine ⟨?_, ?_, ?_, ?_⟩
      · exact hs.requests.trans (keep rfl)
      · refine (toNat_add_mod hs.bytes (LocalStats.bytes_recordAll _)).trans ?_
        exact congrArg (· % 2 ^ 64) (tally_update_new rfl (by rw [hpc]; rfl)).symm
      · exact hs.errors.trans (keep rfl)
      · exact hs.histogram.trans (keepLen rfl)
  | bytesAdded =>
      simp only [hpc] at h keep keepLen
      cases h
      refine ⟨?_, ?_, ?_, ?_⟩
      · exact hs.requests.trans (keep rfl)
      · exact hs.bytes.trans (keep rfl)
      · refine (toNat_add_mod hs.errors (LocalStats.errors_recordAll _)).trans ?_
        exact congrArg (· % 2 ^ 64) (tally_update_new rfl (by rw [hpc]; rfl)).symm
      · exact hs.histogram.trans (keepLen rfl)
  | errorsAdded =>
      simp only [hpc] at h keep keepLen
      split at h
      · cases h
        exact hs.move rfl ⟨rfl, rfl, rfl, rfl⟩ (by rw [hpc]; exact ⟨rfl, rfl, rfl, rfl⟩)
      · cases h
        exact hs.move rfl ⟨rfl, rfl, rfl, rfl⟩ (by rw [hpc]; exact ⟨rfl, rfl, rfl, rfl⟩)
  | locked =>
      simp only [hpc] at h keep keepLen
      cases h
      refine ⟨?_, ?_, ?_, ?_⟩
      · exact hs.requests.trans (keep rfl)
      · exact hs.bytes.trans (keep rfl)
      · exact hs.errors.trans (keep rfl)
      · have hnew : tally Pc.counted (fun i => total Outcome.requests (outcomes i))
            (Function.update s.pc i .histogramAdded) = _ :=
          tally_update_new rfl (by rw [hpc]; rfl)
        show C.len (C.add s.latencyHistogram (LocalStats.recordAll (outcomes i)).histogram)
          = min (tally Pc.counted _ (Function.update s.pc i .histogramAdded)) u64Max
        rw [C.len_add, hs.histogram, LocalStats.len_recordAll, hnew]
        omega
  | histogramAdded =>
      simp only [hpc] at h keep keepLen
      cases h
      exact hs.move rfl ⟨rfl, rfl, rfl, rfl⟩ (by rw [hpc]; exact ⟨rfl, rfl, rfl, rfl⟩)
  | merged =>
      simp only [hpc] at h
      cases h
  | missed =>
      simp only [hpc] at h
      cases h

/-! ## Who misses the lock -/

/-- The task finds the lock free, or has no latency to lose. -/
def LockFree (outcomes : ι → List Outcome) (s : BenchStats C ι) (i : ι) : Prop :=
  s.pc i = .errorsAdded → s.lock = none ∨ total Outcome.requests (outcomes i) = 0

/-- Whoever missed the lock had no latency to lose. -/
def NothingLost (outcomes : ι → List Outcome) (s : BenchStats C ι) : Prop :=
  ∀ i, s.pc i = .missed → total Outcome.requests (outcomes i) = 0

omit [Fintype ι] in
/-- A step is a move of one task; it misses the lock exactly if it tries it while
    it is held. -/
theorem mergeStep_pc {outcomes : ι → List Outcome} {s s' : BenchStats C ι} {i : ι}
    (h : mergeStep outcomes s i = .ok s') :
    ∃ a, s'.pc = Function.update s.pc i a ∧ (s.pc i).finished = false ∧
      (a = .missed ↔ s.pc i = .errorsAdded ∧ s.lock ≠ none) := by
  unfold mergeStep at h
  cases hpc : s.pc i with
  | errorsAdded =>
      simp only [hpc] at h
      split at h
      · rename_i hlock
        cases h
        exact ⟨.locked, rfl, rfl, by simp [hlock]⟩
      · rename_i j hlock
        cases h
        exact ⟨.missed, rfl, rfl, by simp [hlock]⟩
  | merged =>
      simp only [hpc] at h
      cases h
  | missed =>
      simp only [hpc] at h
      cases h
  | _ =>
      simp only [hpc] at h
      cases h
      exact ⟨_, rfl, rfl, by simp⟩

omit [Fintype ι] in
theorem nothingLost_step {outcomes : ι → List Outcome} {s s' : BenchStats C ι} {i : ι}
    (hs : NothingLost outcomes s) (h : mergeStep outcomes s i = .ok s') :
    NothingLost outcomes s' ↔ LockFree outcomes s i := by
  obtain ⟨a, hpc, -, hmiss⟩ := mergeStep_pc h
  constructor
  · intro hlost hi
    by_contra hno
    obtain ⟨hlock, hsome⟩ := not_or.mp hno
    refine hsome (hlost i ?_)
    rw [hpc, Function.update_self]
    exact hmiss.mpr ⟨hi, hlock⟩
  · intro hfree j hj
    rw [hpc] at hj
    by_cases hji : j = i
    · subst hji
      rw [Function.update_self] at hj
      obtain ⟨hi, hlock⟩ := hmiss.mp hj
      exact (hfree hi).resolve_left hlock
    · rw [Function.update_of_ne hji] at hj
      exact hs j hj

omit [Fintype ι] in
/-- Whoever has missed the lock has missed it for good. -/
theorem missed_run {outcomes : ι → List Outcome} {s t : BenchStats C ι} {is : List ι} {j : ι}
    (hs : s.pc j = .missed) (h : run (mergeStep outcomes) s is = .ok t) : t.pc j = .missed := by
  refine run_invariant (I := fun s => s.pc j = .missed) ?_ hs h
  intro s i s' hs h
  obtain ⟨a, hpc, hfin, -⟩ := mergeStep_pc h
  rw [hpc]
  by_cases hji : j = i
  · subst hji
    rw [hs] at hfin
    cases hfin
  · rw [Function.update_of_ne hji]
    exact hs

omit [Fintype ι] in
/-- Nothing is lost in a run exactly if every task with latencies finds the lock
    free. -/
theorem nothingLost_iff {outcomes : ι → List Outcome} {is : List ι} {t : BenchStats C ι}
    (h : run (mergeStep outcomes) .new is = .ok t) :
    NothingLost outcomes t ↔ Along (mergeStep outcomes) (LockFree outcomes) (.new : BenchStats C ι) is := by
  rw [← always_iff_along (I := NothingLost outcomes) (fun s i s' hs h => nothingLost_step hs h)
    ?_ is .new ?_]
  · constructor
    · rintro ht pre ⟨rest, rfl⟩ s hs j hj
      rw [run_append hs] at h
      exact ht j (missed_run hj h)
    · intro hall
      exact hall is List.prefix_rfl t h
  · intro s i e _ herr hi
    unfold mergeStep at herr
    simp only [hi] at herr
    split at herr <;> cases herr
  · intro j hj
    cases hj

/-- **WHEN NO LATENCY IS LOST**: once all tasks have merged, the shared numbers
    are those of the tasks and the histogram counts every request exactly if
    the totals fit the counters and every task with a latency to add finds the
    lock free when it tries it. -/
theorem merged_stats_exact_iff (C : HistogramCrate) (outcomes : ι → List Outcome)
    (schedule : List ι) (t : BenchStats C ι)
    (hrun : run (mergeStep outcomes) .new schedule = .ok t)
    (hdone : ∀ i, (t.pc i).finished = true) :
    (C.len t.latencyHistogram = t.requests.toNat ∧
      t.requests.toNat = ∑ i, total Outcome.requests (outcomes i) ∧
      t.bytesRead.toNat = ∑ i, total Outcome.bytes (outcomes i) ∧
      t.errors.toNat = ∑ i, total Outcome.errors (outcomes i)) ↔
    (∑ i, total Outcome.requests (outcomes i) < 2 ^ 64 ∧
      ∑ i, total Outcome.bytes (outcomes i) < 2 ^ 64 ∧
      ∑ i, total Outcome.errors (outcomes i) < 2 ^ 64 ∧
      Along (mergeStep outcomes) (LockFree outcomes) (.new : BenchStats C ι) schedule) := by
  have ht : Tallied outcomes t :=
    run_invariant (fun s i s' hs h => tallied_step hs h) (tallied_new outcomes) hrun
  -- everybody is past the three additions
  have hall : ∀ (p : Pc → Bool) (x : ι → Nat), (∀ a, a.finished = true → p a = true) →
      tally p x t.pc = ∑ i, x i := by
    intro p x hp
    refine tally_eq_total_iff.mpr (fun i hi => ?_)
    rw [hp _ (hdone i)] at hi
    cases hi
  have hreq := ht.requests
  have hbytes := ht.bytes
  have herr := ht.errors
  have hlen := ht.histogram
  rw [hall Pc.pastRequests _ (fun a ha => (Pc.past_of_finished ha).1)] at hreq
  rw [hall Pc.pastBytes _ (fun a ha => (Pc.past_of_finished ha).2.1)] at hbytes
  rw [hall Pc.pastErrors _ (fun a ha => (Pc.past_of_finished ha).2.2.1)] at herr
  have hle : tally Pc.counted (fun i => total Outcome.requests (outcomes i)) t.pc
      ≤ ∑ i, total Outcome.requests (outcomes i) := tally_le
  -- a finished task is counted or has missed the lock
  have hcounted : tally Pc.counted (fun i => total Outcome.requests (outcomes i)) t.pc
      = ∑ i, total Outcome.requests (outcomes i) ↔ NothingLost outcomes t := by
    rw [tally_eq_total_iff]
    refine forall_congr' (fun i => ?_)
    rw [(Pc.past_of_finished (hdone i)).2.2.2]
  rw [← nothingLost_iff hrun, ← hcounted, hreq, hbytes, herr, hlen]
  have hM : u64Max = 2 ^ 64 - 1 := rfl
  rw [hM]
  omega

/-- Histograms that keep nothing but their count. -/
def countOnly : HistogramCrate where
  Histogram := Nat
  new := 0
  record h v := if v ≤ 60000000 then min (h + 1) u64Max else h
  add h h' := min (h + h') u64Max
  len h := h
  len_new := rfl
  len_record _ _ _ hv := if_pos hv
  len_add _ _ := rfl

/-- Two connections, with one request each. -/
def twoConnections : Fin 2 → List Outcome
  | 0 => [.success ⟨250, by decide, by decide⟩ 120]
  | 1 => [.success ⟨900, by decide, by decide⟩ 120]

/-- One merge after the other: nobody finds the lock held. -/
theorem merged_stats_exact_in_turn :
    ∃ t, run (mergeStep twoConnections) (.new : BenchStats countOnly (Fin 2))
        [0, 0, 0, 0, 0, 0, 1, 1, 1, 1, 1, 1] = .ok t ∧
      Along (mergeStep twoConnections) (LockFree twoConnections)
        (.new : BenchStats countOnly (Fin 2)) [0, 0, 0, 0, 0, 0, 1, 1, 1, 1, 1, 1] :=
  ⟨_, rfl, ((merged_stats_exact_iff countOnly twoConnections [0, 0, 0, 0, 0, 0, 1, 1, 1, 1, 1, 1] _
    rfl (by decide)).mp (by decide)).2.2.2⟩

/-- The second connection ends while the first is merging: two requests, one
    latency. -/
theorem latency_lost_in_overlap :
    ∃ t, run (mergeStep twoConnections) (.new : BenchStats countOnly (Fin 2))
        [0, 0, 0, 0, 1, 1, 1, 1, 0, 0] = .ok t ∧
      (∀ i, (t.pc i).finished = true) ∧
      t.requests = 2 ∧ countOnly.len t.latencyHistogram = 1 :=
  ⟨_, rfl, by decide, by decide, by decide⟩

end DpdkNet.Bench
