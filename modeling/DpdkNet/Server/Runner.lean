import DpdkNet.Device.EthDev

/-! # The queues of the server runner

    `app/dpdk_server_runner.rs`, `DpdkServerRunner::run`: how many queues, and so
    how many workers, the server gets.  The number starts from the hardware
    queues, is raised to the number of CPUs and lowered to the user's maximum,
    and then goes into the mempool size as a `u32` and into the device
    configuration as a `u16`.

    A worker is of use if the NIC has its queue and the redirection table leads
    to it.  The limits of the device are read and logged; `workers_served_iff`
    says when the number respects them. -/

namespace DpdkNet

open EthDev

/-- The fields that decide about the queues. -/
structure DpdkServerRunner where
  maxQueues : Option UInt64
  mbufsPerQueue : UInt32

namespace DpdkServerRunner

/-- The number of queues: `hwQueues` is the configured number and `numCpus` the
    available parallelism. -/
def numQueues (r : DpdkServerRunner) (hwQueues numCpus : UInt64) : UInt64 :=
  let numQueues := hwQueues
  let numQueues := if numCpus > numQueues then numCpus else numQueues
  match r.maxQueues with
  | some maxQueue => if maxQueue < numQueues then maxQueue else numQueues
  | none => numQueues

def totalMbufs (r : DpdkServerRunner) (numQueues : UInt64) : UInt32 :=
  r.mbufsPerQueue * numQueues.toUInt32

/-- `num_queues as u16`, the number the device is configured with. -/
def nbQueues (numQueues : UInt64) : UInt16 := numQueues.toUInt16

/-- The queues that get a worker: queue 0 on the main thread, the others on
    threads of their own. -/
def workers (numQueues : UInt64) : List Nat := 0 :: List.range' 1 (numQueues.toNat - 1)

/-- Every worker has a queue that can receive, and nothing was lost on the way
    to the configuration. -/
structure Served (r : DpdkServerRunner) (dev : DevInfo) (n : UInt64) : Prop where
  pos : 1 ≤ n.toNat
  le_rx : n.toNat ≤ dev.maxRxQueues.toNat
  le_tx : n.toNat ≤ dev.maxTxQueues.toNat
  le_reta : 0 < dev.retaSize → n.toNat ≤ dev.retaSize.toNat
  /-- Each worker's queue is in the table that is written. -/
  entry : 0 < dev.retaSize → ∀ q ∈ workers n,
    ∃ e ∈ retaTable dev.retaSize (retaConf dev.retaSize (nbQueues n)), e.toNat = q
  toU16 : (nbQueues n).toNat = n.toNat
  toU32 : (r.totalMbufs n).toNat = r.mbufsPerQueue.toNat * n.toNat

/-- A number of queues within the limits of the device, with mbufs for all. -/
def Fits (r : DpdkServerRunner) (dev : DevInfo) (k : UInt64) : Prop :=
  k.toNat ≤ dev.maxRxQueues.toNat ∧ k.toNat ≤ dev.maxTxQueues.toNat ∧
    (0 < dev.retaSize → k.toNat ≤ dev.retaSize.toNat) ∧
    r.mbufsPerQueue.toNat * k.toNat < 2 ^ 32

/-- The table that is written, read as `query_rss_reta` reads it. -/
theorem retaTable_retaConf (retaSize nbRxQueues : UInt16) :
    retaTable retaSize (retaConf retaSize nbRxQueues)
      = (List.range retaSize.toNat).map (turn nbRxQueues) :=
  retaTable_eq (length_retaConf retaSize nbRxQueues) (turn nbRxQueues)
    (fun _ i _ h hi => (retaConf_get h).2 i hi)

theorem mem_workers {n : UInt64} (hpos : 1 ≤ n.toNat) {q : Nat} :
    q ∈ workers n ↔ q < n.toNat := by
  rw [workers, List.mem_cons, List.mem_range'_1]
  omega

theorem served_iff (r : DpdkServerRunner) (dev : DevInfo) (n : UInt64) :
    r.Served dev n ↔ 1 ≤ n.toNat ∧ r.Fits dev n := by
  constructor
  · intro h
    have hlt := (r.totalMbufs n).toNat_lt
    rw [h.toU32] at hlt
    exact ⟨h.pos, h.le_rx, h.le_tx, h.le_reta, hlt⟩
  · rintro ⟨hpos, hrx, htx, hreta, hmbufs⟩
    have hmax := dev.maxRxQueues.toNat_lt
    have h16 : (nbQueues n).toNat = n.toNat := by
      rw [nbQueues, UInt64.toNat_toUInt16]
      omega
    have h32 : n.toUInt32.toNat = n.toNat := by
      rw [UInt64.toNat_toUInt32]
      omega
    refine ⟨hpos, hrx, htx, hreta, ?_, h16, ?_⟩
    · -- the first round through the queues reaches each of them
      intro hsize q hq
      have hlt := (mem_workers hpos).mp hq
      have hnb : 0 < nbQueues n := by
        rw [UInt16.lt_iff_toNat_lt, h16]
        exact hpos
      refine ⟨turn (nbQueues n) q, ?_, ?_⟩
      · rw [retaTable_retaConf]
        exact List.mem_map_of_mem (List.mem_range.mpr (Nat.lt_of_lt_of_le hlt (hreta hsize)))
      · rw [(toNat_turn hnb q).1, h16, Nat.mod_eq_of_lt hlt]
    · rw [totalMbufs, UInt32.toNat_mul, h32]
      exact Nat.mod_eq_of_lt hmbufs

/-- A smaller number fits as well. -/
theorem Fits.mono {r : DpdkServerRunner} {dev : DevInfo} {k l : UInt64} (h : r.Fits dev l)
    (hle : k ≤ l) : r.Fits dev k := by
  obtain ⟨hrx, htx, hreta, hmbufs⟩ := h
  have hle' : k.toNat ≤ l.toNat := hle
  refine ⟨Nat.le_trans hle' hrx, Nat.le_trans hle' htx, fun hs => Nat.le_trans hle' (hreta hs), ?_⟩
  exact Nat.lt_of_le_of_lt (Nat.mul_le_mul_left _ hle') hmbufs

/-- The scale-up takes one of the two numbers, and both are at most what it
    takes. -/
theorem scaleUp_cases (hwQueues numCpus : UInt64) :
    ∃ w, w = (if numCpus > hwQueues then numCpus else hwQueues) ∧ hwQueues ≤ w ∧ numCpus ≤ w ∧
      (w = hwQueues ∨ w = numCpus) := by
  by_cases h : numCpus > hwQueues
  · exact ⟨numCpus, (if_pos h).symm, UInt64.le_of_lt h, UInt64.le_refl _, Or.inr rfl⟩
  · exact ⟨hwQueues, (if_neg h).symm, UInt64.le_refl _, UInt64.not_lt.mp h, Or.inl rfl⟩

/-- **WHEN EVERY WORKER IS SERVED**: the user's maximum is not zero, and either
    the hardware queues and the CPUs both fit the device or the maximum does. -/
theorem workers_served_iff (r : DpdkServerRunner) (dev : DevInfo) (hwQueues numCpus : UInt64)
    (hhw : 1 ≤ hwQueues) :
    r.Served dev (r.numQueues hwQueues numCpus) ↔
      r.maxQueues ≠ some 0 ∧
        (r.Fits dev hwQueues ∧ r.Fits dev numCpus ∨
          ∃ m, r.maxQueues = some m ∧ r.Fits dev m) := by
  obtain ⟨w, hw, hle, hle', hone⟩ := scaleUp_cases hwQueues numCpus
  have hpos : 1 ≤ w.toNat := UInt64.le_trans hhw hle
  have hfits : r.Fits dev w ↔ r.Fits dev hwQueues ∧ r.Fits dev numCpus := by
    constructor
    · intro h
      exact ⟨h.mono hle, h.mono hle'⟩
    · rintro ⟨h, h'⟩
      rcases hone with rfl | rfl
      · exact h
      · exact h'
  rw [served_iff, numQueues, ← hw, ← hfits]
  cases r.maxQueues with
  | none =>
      constructor
      · rintro ⟨-, h⟩
        exact ⟨nofun, Or.inl h⟩
      · rintro ⟨-, h | ⟨m, hm, -⟩⟩
        · exact ⟨hpos, h⟩
        · cases hm
  | some m =>
      have hzero : some m ≠ some (0 : UInt64) ↔ 1 ≤ m.toNat := by
        rw [ne_eq, Option.some_inj, Nat.one_le_iff_ne_zero, ← UInt64.toNat_inj]
        exact Iff.rfl
      rw [hzero]
      by_cases hlt : m < w
      · -- the maximum is taken
        show 1 ≤ (if m < w then m else w).toNat ∧ r.Fits dev (if m < w then m else w) ↔ _
        rw [if_pos hlt]
        refine and_congr_right fun _ => ?_
        constructor
        · intro h
          exact Or.inr ⟨m, rfl, h⟩
        · rintro (h | ⟨m', hm', h⟩)
          · exact h.mono (UInt64.le_of_lt hlt)
          · cases hm'
            exact h
      · show 1 ≤ (if m < w then m else w).toNat ∧ r.Fits dev (if m < w then m else w) ↔ _
        have hge : w ≤ m := UInt64.not_lt.mp hlt
        rw [if_neg hlt]
        constructor
        · rintro ⟨-, h⟩
          exact ⟨Nat.le_trans hpos hge, Or.inl h⟩
        · rintro ⟨-, h | ⟨m', hm', h⟩⟩
          · exact ⟨hpos, h⟩
          · cases hm'
            exact ⟨hpos, h.mono hge⟩

/-- Four hardware queues and sixteen CPUs on a NIC with eight queues: a maximum
    of eight makes it work. -/
theorem eight_of_sixteen_served :
    Served ⟨some 8, 8192⟩ ⟨128, 8, 8⟩ (numQueues ⟨some 8, 8192⟩ 4 16) :=
  (workers_served_iff ⟨some 8, 8192⟩ ⟨128, 8, 8⟩ 4 16 (by decide)).mpr
    ⟨by decide, Or.inr ⟨8, rfl, by decide, by decide, by decide, by decide⟩⟩

/-- Without one, and with a table of eight entries, there are sixteen workers, and
    the table leads to none of the last eight. -/
theorem last_workers_not_served :
    numQueues ⟨none, 8192⟩ 4 16 = 16 ∧
      (∀ e ∈ retaTable 8 (retaConf 8 (nbQueues 16)), e.toNat < 8) ∧
      ¬ Served ⟨none, 8192⟩ ⟨8, 64, 64⟩ (numQueues ⟨none, 8192⟩ 4 16) := by
  refine ⟨rfl, ?_, fun h => ?_⟩
  · rw [retaTable_retaConf]
    rintro e he
    obtain ⟨j, hj, rfl⟩ := List.mem_map.mp he
    rw [(toNat_turn (by decide) j).1]
    exact Nat.lt_of_le_of_lt (Nat.mod_le j _) (List.mem_range.mp hj)
  · have hle : 16 ≤ 8 := h.le_reta (by decide)
    omega

end DpdkServerRunner

end DpdkNet
