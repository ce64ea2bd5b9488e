import DpdkNet.Device.DpdkDevice

/-! # Does a consumer queue catch up with the shared cache?

    A consumer that is behind re-injects the whole snapshot, from its first
    entry, on every `receive` until one injection gets through.  This file
    decides when that happens, for a driver whose allocations succeed.

    The answer is a matter of room.  If the buffered packets and the snapshot
    fit the 64 slots together, one call suffices.  If they do not, the call
    fills the batch, hands out one packet and leaves 63: from then on every
    retry finds a single free slot, so a snapshot of two or more entries never
    gets through, and every call hands out the frame it has just injected
    (`Wedged` is invariant).  A snapshot of one entry needs only that slot. -/

namespace DpdkNet

open DpdkDevice

variable {σ : Type}

/-- Every allocation succeeds, and its mbuf has room for an ARP frame. -/
def AllocOk (D : Dpdk σ) : Prop :=
  ∀ s, ∃ m s', D.pktmbufAlloc s = (some m, s') ∧ 42 ≤ m.buf.length

/-- `n` successive `receive` calls: the packets handed out, in order, and the
    device and world they leave. -/
def receives (D : Dpdk σ) (H : Hasher) : Nat → DpdkDevice → World σ →
    List Mbuf × DpdkDevice × World σ
  | 0, dev, w => ([], dev, w)
  | n + 1, dev, w =>
      let r := receive D H dev w
      let rest := receives D H n r.2.1 r.2.2
      (r.1.toList ++ rest.1, rest.2)

/-- The batch once a poll is done: the buffered packets, or the next burst if
    there are none. -/
def polledBatch (D : Dpdk σ) (dev : DpdkDevice) (s : σ) : List Mbuf :=
  if dev.rxBatch.toList = [] then (nextBurst D dev s).1 else dev.rxBatch.toList

theorem polledBatch_length_le (D : Dpdk σ) (dev : DpdkDevice) (s : σ) :
    (polledBatch D dev s).length ≤ 64 := by
  rw [polledBatch]
  split
  · exact D.rx_le _ 64
  · exact dev.rxBatch.length_le

/-- With allocations succeeding, only the slots limit the injection loop. -/
theorem injectEntries_allocOk {D : Dpdk σ} (hD : AllocOk D) (ourMac : MacAddress)
    (ourIp : Ipv4Addr) :
    ∀ (es : List (Σ _ : Ipv4Addr, MacAddress)) (batch : ArrayVec Mbuf 64) (s : σ),
      (injectEntries D ourMac ourIp es batch s).1 = decide (batch.len + es.length ≤ 64) ∧
      (injectEntries D ourMac ourIp es batch s).2.1.len = min 64 (batch.len + es.length) := by
  intro es
  induction es with
  | nil =>
      intro batch s
      have := batch.len_le
      constructor
      · show true = decide (batch.len + 0 ≤ 64)
        exact (decide_eq_true (by omega)).symm
      · show batch.len = min 64 (batch.len + 0)
        omega
  | cons e es ih =>
      intro batch s
      obtain ⟨ip, mac⟩ := e
      have hle := batch.len_le
      rw [List.length_cons]
      by_cases hroom : batch.len < 64
      · obtain ⟨m, s', hm, hbuf⟩ := hD s
        obtain ⟨m', hac⟩ := allocCopy_of_fits
          (d := buildArpReplyForInjection ourMac ourIp mac ip) hm
          (by rw [length_buildArpReplyForInjection]; decide)
          (by rw [length_buildArpReplyForInjection]; exact hbuf)
        have hpush : (batch.push m' hroom).len = batch.len + 1 := by
          show (batch.toList ++ [m']).length = batch.toList.length + 1
          rw [List.length_append]
          rfl
        obtain ⟨h1, h2⟩ := ih (batch.push m' hroom) s'
        rw [hpush] at h1 h2
        simp only [injectEntries, hroom, dif_pos, hac]
        refine ⟨h1.trans ?_, h2.trans ?_⟩
        · congr 1
          exact propext ⟨fun h => by omega, fun h => by omega⟩
        · omega
      · simp only [injectEntries, hroom, dif_neg, not_false_eq_true]
        refine ⟨(decide_eq_false ?_).symm, ?_⟩
        · omega
        · omega

/-- What polling leaves on a consumer, whichever branch it takes. -/
theorem pollRx_consumer (D : Dpdk σ) (H : Hasher) {dev : DpdkDevice} (w : World σ)
    (hq : dev.queueId ≠ 0) :
    (pollRx D H dev w).1.rxBatch.toList = polledBatch D dev w.ffi ∧
      (pollRx D H dev w).1.queueId = dev.queueId ∧
      (pollRx D H dev w).1.sharedArpCache = dev.sharedArpCache ∧
      (pollRx D H dev w).1.lastCacheVersion = dev.lastCacheVersion ∧
      (pollRx D H dev w).2.arp = w.arp := by
  rw [polledBatch]
  by_cases hnil : dev.rxBatch.toList = []
  · obtain ⟨batch, hb, heq⟩ := pollRx_of_nil D H w hnil
    rw [heq, if_pos hnil, flushTx_fst]
    refine ⟨hb, rfl, rfl, rfl, ?_⟩
    exact if_neg (fun h => hq h.2)
  · rw [pollRx_of_ne_nil D H w hnil, if_neg hnil, flushTx_fst]
    exact ⟨rfl, rfl, rfl, rfl, rfl⟩

/-- A consumer that is up to date is prepared once it has polled; -/
theorem prepared_of_current (D : Dpdk σ) (H : Hasher) {dev : DpdkDevice} {w : World σ}
    (hq : dev.queueId ≠ 0) (hv : w.arp.version = dev.lastCacheVersion) :
    prepared D H dev w = pollRx D H dev w := by
  obtain ⟨-, -, -, hversion, harp⟩ := pollRx_consumer D H w hq
  refine injectFromSharedCache_skip D (Or.inr (Or.inr ?_))
  rw [harp, hversion]
  exact hv

/-- on one that is behind, the loop over the snapshot runs on what was polled. -/
theorem prepared_of_behind (D : Dpdk σ) (H : Hasher) {dev : DpdkDevice} {w : World σ}
    (hq : dev.queueId ≠ 0) (hc : dev.sharedArpCache = true)
    (hv : w.arp.version ≠ dev.lastCacheVersion) :
    ∃ ourMac ourIp,
      (prepared D H dev w).1.rxBatch = (injectEntries D ourMac ourIp w.arp.inner.entries
        (pollRx D H dev w).1.rxBatch (pollRx D H dev w).2.ffi).2.1 ∧
      (prepared D H dev w).1.lastCacheVersion =
        (if (injectEntries D ourMac ourIp w.arp.inner.entries (pollRx D H dev w).1.rxBatch
            (pollRx D H dev w).2.ffi).1 then w.arp.version else dev.lastCacheVersion) ∧
      (prepared D H dev w).1.queueId = dev.queueId ∧
      (prepared D H dev w).1.sharedArpCache = true ∧
      (prepared D H dev w).2.arp = w.arp := by
  obtain ⟨-, hqueue, hcache, hversion, harp⟩ := pollRx_consumer D H w hq
  have hq' : (pollRx D H dev w).1.queueId ≠ 0 := by
    rw [hqueue]
    exact hq
  have hv' : (pollRx D H dev w).2.arp.version ≠ (pollRx D H dev w).1.lastCacheVersion := by
    rw [harp, hversion]
    exact hv
  obtain ⟨ourMac, ourIp, -, -, hrun⟩ := injectFromSharedCache_run D hq' (hcache.trans hc) hv'
  have hrun' : prepared D H dev w = _ := hrun
  rw [hrun', harp, hversion]
  exact ⟨ourMac, ourIp, rfl, rfl, hqueue, hcache.trans hc, rfl⟩

/-- **ONE CALL ON A CONSUMER**: the configuration and the cache stay, a packet
    leaves from the back of `B`, and `B` is the polled batch, with as much of
    the snapshot behind it as fits if the consumer was behind. -/
theorem receive_consumer {D : Dpdk σ} (hD : AllocOk D) (H : Hasher) {dev : DpdkDevice}
    {w : World σ} (hq : dev.queueId ≠ 0) (hc : dev.sharedArpCache = true) :
    ∃ B : List Mbuf,
      (receive D H dev w).1 = B.getLast? ∧
      (receive D H dev w).2.1.rxBatch.toList = B.dropLast ∧
      (receive D H dev w).2.1.queueId ≠ 0 ∧
      (receive D H dev w).2.1.sharedArpCache = true ∧
      (receive D H dev w).2.2.arp = w.arp ∧
      ((w.arp.version = dev.lastCacheVersion ∧ B = polledBatch D dev w.ffi ∧
          (receive D H dev w).2.1.lastCacheVersion = dev.lastCacheVersion) ∨
        (w.arp.version ≠ dev.lastCacheVersion ∧ polledBatch D dev w.ffi <+: B ∧
          B.length = min 64 ((polledBatch D dev w.ffi).length + w.arp.inner.entries.length) ∧
          (receive D H dev w).2.1.lastCacheVersion =
            if (polledBatch D dev w.ffi).length + w.arp.inner.entries.length ≤ 64
            then w.arp.version else dev.lastCacheVersion)) := by
  obtain ⟨hp1, hp2, hp3, hp4, hp5⟩ := pollRx_consumer D H w hq
  obtain ⟨batch, hbatch, hrecv⟩ := receive_spec D H dev w
  refine ⟨(prepared D H dev w).1.rxBatch.toList, by rw [hrecv], by rw [hrecv]; exact hbatch, ?_⟩
  rw [hrecv]
  by_cases hv : w.arp.version = dev.lastCacheVersion
  · rw [prepared_of_current D H hq hv]
    exact ⟨by rw [← hp2] at hq; exact hq, hp3.trans hc, hp5, Or.inl ⟨hv, hp1, hp4⟩⟩
  · obtain ⟨ourMac, ourIp, hbatch', hversion, hqueue, hcache, harp⟩ := prepared_of_behind D H hq hc hv
    obtain ⟨ms, hms, -, -⟩ := injectEntries_spec D ourMac ourIp w.arp.inner.entries
      (pollRx D H dev w).1.rxBatch (pollRx D H dev w).2.ffi
    obtain ⟨hok, hlen⟩ := injectEntries_allocOk hD ourMac ourIp w.arp.inner.entries
      (pollRx D H dev w).1.rxBatch (pollRx D H dev w).2.ffi
    have hL : (pollRx D H dev w).1.rxBatch.len = (polledBatch D dev w.ffi).length := by
      rw [← hp1]
      rfl
    refine ⟨by rw [← hqueue] at hq; exact hq, hcache, harp, Or.inr ⟨hv, ?_, ?_, ?_⟩⟩
    · rw [hbatch', hms, hp1]
      exact List.prefix_append _ _
    · rw [hbatch', ← hL]
      exact hlen
    · refine hversion.trans ?_
      rw [hok, hL]
      simp only [decide_eq_true_eq]

/-- Some number of `receive` calls hands out every packet buffered at the start,
    brings the consumer to the version of the cache, and empties the batch, so
    that the call after them polls the RX queue again. -/
def CatchesUp (D : Dpdk σ) (H : Hasher) (dev : DpdkDevice) (w : World σ) : Prop :=
  ∃ n, dev.rxBatch.toList.Subperm (receives D H n dev w).1 ∧
    (receives D H n dev w).2.1.lastCacheVersion = w.arp.version ∧
    (receives D H n dev w).2.1.rxBatch.toList = []

/-- **DRAINING**: a consumer that is up to date hands out its batch from the
    back and injects nothing. -/
theorem receives_drain {D : Dpdk σ} (hD : AllocOk D) (H : Hasher) :
    ∀ (k : Nat) (dev : DpdkDevice) (w : World σ),
      dev.queueId ≠ 0 → dev.sharedArpCache = true →
      w.arp.version = dev.lastCacheVersion → dev.rxBatch.toList.length = k →
      (receives D H k dev w).1 = dev.rxBatch.toList.reverse ∧
      (receives D H k dev w).2.1.lastCacheVersion = w.arp.version ∧
      (receives D H k dev w).2.1.rxBatch.toList = [] := by
  intro k
  induction k with
  | zero =>
      intro dev w _ _ hv hk
      have hnil := List.length_eq_zero_iff.mp hk
      exact ⟨by rw [hnil]; rfl, hv.symm, hnil⟩
  | succ k ih =>
      intro dev w hq hc hv hk
      obtain ⟨B, hB1, hB2, hq', hc', harp, hcase⟩ := receive_consumer hD H (w := w) hq hc
      have hne : dev.rxBatch.toList ≠ [] := by
        intro h
        rw [h] at hk
        cases hk
      obtain ⟨-, rfl, hlast⟩ | ⟨hv', -⟩ := hcase
      · -- up to date: the batch polled is the batch held
        have hpoll : polledBatch D dev w.ffi = dev.rxBatch.toList := by
          rw [polledBatch, if_neg hne]
        rw [hpoll] at hB1 hB2
        obtain ⟨h1, h2, h3⟩ := ih _ _ hq' hc' (by rw [harp, hlast]; exact hv)
          (by rw [hB2, List.length_dropLast, hk]; rfl)
        refine ⟨?_, ?_, h3⟩
        · show (receive D H dev w).1.toList ++ _ = _
          rw [h1, hB1, hB2, ArrayVec.getLast?_append_reverse_dropLast]
        · rw [harp] at h2
          exact h2
      · exact absurd hv hv'

/-- With room for the whole snapshot, one injection brings the consumer up to
    date and draining does the rest. -/
theorem catchesUp_of_fits {D : Dpdk σ} (hD : AllocOk D) (H : Hasher) {dev : DpdkDevice}
    {w : World σ} (hq : dev.queueId ≠ 0) (hc : dev.sharedArpCache = true)
    (hfit : w.arp.version = dev.lastCacheVersion ∨
      (polledBatch D dev w.ffi).length + w.arp.inner.entries.length ≤ 64) :
    CatchesUp D H dev w := by
  by_cases hv : w.arp.version = dev.lastCacheVersion
  · obtain ⟨h1, h2, h3⟩ := receives_drain hD H _ dev w hq hc hv rfl
    refine ⟨_, ?_, h2, h3⟩
    rw [h1]
    exact (List.reverse_perm _).symm.subperm
  · have hroom := hfit.resolve_left hv
    obtain ⟨B, hB1, hB2, hq', hc', harp, hcase⟩ := receive_consumer hD H (w := w) hq hc
    obtain ⟨hv', -⟩ | ⟨-, hsub, -, hlast⟩ := hcase
    · exact absurd hv' hv
    · rw [if_pos hroom] at hlast
      obtain ⟨h1, h2, h3⟩ := receives_drain hD H _ _ (receive D H dev w).2.2 hq' hc'
        (by rw [harp, hlast]) rfl
      refine ⟨_ + 1, ?_, ?_, h3⟩
      · show dev.rxBatch.toList.Subperm ((receive D H dev w).1.toList ++ _)
        rw [h1, hB1, hB2, ArrayVec.getLast?_append_reverse_dropLast]
        refine List.Subperm.trans ?_ (List.reverse_perm B).symm.subperm
        refine List.Subperm.trans ?_ hsub.sublist.subperm
        rw [polledBatch]
        split
        · rename_i hnil
          rw [hnil]
          exact List.nil_subperm
        · exact List.Subperm.refl _
      · rw [harp] at h2
        exact h2

/-- A snapshot of a single entry gets through at the second call at the
    latest: the first leaves a slot free. -/
theorem catchesUp_of_le_one {D : Dpdk σ} (hD : AllocOk D) (H : Hasher) {dev : DpdkDevice}
    {w : World σ} (hq : dev.queueId ≠ 0) (hc : dev.sharedArpCache = true)
    (hone : w.arp.inner.entries.length ≤ 1) : CatchesUp D H dev w := by
  by_cases hfit : w.arp.version = dev.lastCacheVersion ∨
      (polledBatch D dev w.ffi).length + w.arp.inner.entries.length ≤ 64
  · exact catchesUp_of_fits hD H hq hc hfit
  · obtain ⟨hv, hroom⟩ := not_or.mp hfit
    have hle := polledBatch_length_le D dev w.ffi
    obtain ⟨B, hB1, hB2, hq', hc', harp, hcase⟩ := receive_consumer hD H (w := w) hq hc
    obtain ⟨hv', -⟩ | ⟨-, hsub, hlen, hlast⟩ := hcase
    · exact absurd hv' hv
    · rw [if_neg hroom] at hlast
      -- the batch was full, so nothing was injected
      have hB : polledBatch D dev w.ffi = B := hsub.eq_of_length (by omega)
      have hdrop : (receive D H dev w).2.1.rxBatch.toList.length = 63 := by
        rw [hB2, List.length_dropLast]
        omega
      have hpoll : polledBatch D (receive D H dev w).2.1 (receive D H dev w).2.2.ffi
          = (receive D H dev w).2.1.rxBatch.toList := by
        rw [polledBatch, if_neg]
        intro h
        rw [h] at hdrop
        cases hdrop
      obtain ⟨n, h1, h2, h3⟩ := catchesUp_of_fits hD H (w := (receive D H dev w).2.2) hq' hc'
        (Or.inr (by rw [hpoll, hdrop, harp]; omega))
      refine ⟨n + 1, ?_, ?_, h3⟩
      · show dev.rxBatch.toList.Subperm ((receive D H dev w).1.toList ++ _)
        have hout : B.Subperm
            (B.getLast?.toList ++ (receives D H n (receive D H dev w).2.1
              (receive D H dev w).2.2).1) := by
          rw [hB2] at h1
          rcases List.eq_nil_or_concat B with rfl | ⟨L, x, rfl⟩
          · exact List.nil_subperm
          · rw [List.concat_eq_append, List.dropLast_concat] at h1
            rw [List.concat_eq_append, List.getLast?_concat]
            exact (List.perm_append_comm.subperm).trans
              ((List.subperm_append_left [x]).mpr h1)
        rw [hB1]
        refine List.Subperm.trans ?_ hout
        rw [← hB, polledBatch]
        split
        · rename_i hnil
          rw [hnil]
          exact List.nil_subperm
        · exact List.Subperm.refl _
      · rw [harp] at h2
        exact h2

/-! ## The wedge -/

/-- Behind, with at least two entries to inject and no room for all of them. -/
structure Wedged (D : Dpdk σ) (dev : DpdkDevice) (w : World σ) : Prop where
  consumer : dev.queueId ≠ 0
  shared : dev.sharedArpCache = true
  behind : w.arp.version ≠ dev.lastCacheVersion
  entries : 2 ≤ w.arp.inner.entries.length
  no_room : 64 < (polledBatch D dev w.ffi).length + w.arp.inner.entries.length

/-- **A WEDGED CONSUMER STAYS WEDGED**: the call fills the batch and pops one
    packet, which leaves room for one entry only. -/
theorem Wedged.receive {D : Dpdk σ} (hD : AllocOk D) (H : Hasher) {dev : DpdkDevice}
    {w : World σ} (h : Wedged D dev w) :
    Wedged D (receive D H dev w).2.1 (receive D H dev w).2.2 := by
  obtain ⟨B, -, hB2, hq', hc', harp, hcase⟩ := receive_consumer hD H (w := w) h.consumer h.shared
  obtain ⟨hv, -⟩ | ⟨-, -, hlen, hlast⟩ := hcase
  · exact absurd hv h.behind
  · have hno := h.no_room
    have htwo := h.entries
    have hdrop : (DpdkDevice.receive D H dev w).2.1.rxBatch.toList.length = 63 := by
      rw [hB2, List.length_dropLast]
      omega
    refine ⟨hq', hc', ?_, ?_, ?_⟩
    · rw [harp, hlast, if_neg (by omega)]
      exact h.behind
    · rw [harp]
      exact htwo
    · rw [polledBatch, if_neg, hdrop, harp]
      · omega
      · intro hnil
        rw [hnil] at hdrop
        cases hdrop

/-- A wedged consumer never catches up: no number of calls changes it. -/
theorem Wedged.not_catchesUp {D : Dpdk σ} (hD : AllocOk D) (H : Hasher) {dev : DpdkDevice}
    {w : World σ} (h : Wedged D dev w) : ¬ CatchesUp D H dev w := by
  have hkeep : ∀ n, ∀ (dev : DpdkDevice) (w : World σ), Wedged D dev w →
      Wedged D (receives D H n dev w).2.1 (receives D H n dev w).2.2 ∧
        (receives D H n dev w).2.2.arp = w.arp := by
    intro n
    induction n with
    | zero => intro dev w h; exact ⟨h, rfl⟩
    | succ n ih =>
        intro dev w h
        obtain ⟨-, -, -, -, -, harp, -⟩ := receive_consumer hD H (w := w) h.consumer h.shared
        obtain ⟨h1, h2⟩ := ih _ _ (h.receive hD H)
        exact ⟨h1, h2.trans harp⟩
  rintro ⟨n, -, hlast, -⟩
  obtain ⟨hw, harp⟩ := hkeep n dev w h
  exact hw.behind (by rw [harp, hlast])

/-- **WHEN A CONSUMER CATCHES UP**: exactly when it is up to date already, or
    the snapshot has at most one entry, or the snapshot fits the batch beside
    the packets of the first poll. -/
theorem consumer_catchesUp_iff (D : Dpdk σ) (H : Hasher) (hD : AllocOk D) (dev : DpdkDevice)
    (w : World σ) (hq : dev.queueId ≠ 0) (hc : dev.sharedArpCache = true) :
    CatchesUp D H dev w ↔
      w.arp.version = dev.lastCacheVersion ∨ w.arp.inner.entries.length ≤ 1 ∨
        (polledBatch D dev w.ffi).length + w.arp.inner.entries.length ≤ 64 := by
  constructor
  · intro h
    by_contra hno
    obtain ⟨hv, hone, hroom⟩ : w.arp.version ≠ dev.lastCacheVersion ∧
        ¬ w.arp.inner.entries.length ≤ 1 ∧
        ¬ (polledBatch D dev w.ffi).length + w.arp.inner.entries.length ≤ 64 := by
      simpa only [not_or] using hno
    exact Wedged.not_catchesUp hD H ⟨hq, hc, hv, by omega, by omega⟩ h
  · rintro (h | h | h)
    · exact catchesUp_of_fits hD H hq hc (Or.inl h)
    · exact catchesUp_of_le_one hD H hq hc h
    · exact catchesUp_of_fits hD H hq hc (Or.inr h)

/-- Queue 1 with `n` packets buffered, configured but not yet in step with the
    cache. -/
def busyConsumer (n : Nat) (h : n ≤ 64) : DpdkDevice where
  rxBatch := ⟨List.replicate n (blankMbuf 7), by rw [List.length_replicate]; exact h⟩
  txBatch := .new
  mtu := 1500
  mbufCapacity := 2048
  queueId := 1
  sharedArpCache := true
  ourMac := some ⟨2, 0, 0, 0, 0, 1⟩
  ourIp := some ⟨10, 0, 0, 5⟩
  lastCacheVersion := 0
  addresses_set := fun _ => ⟨rfl, rfl⟩

/-- The cache after queue 0 has learnt two neighbours. -/
def twoNeighbours : SharedArpCache :=
  (SharedArpCache.new.insert Hasher.id ⟨10, 0, 0, 1⟩ ⟨2, 0, 0, 0, 1, 1⟩).insert Hasher.id
    ⟨10, 0, 0, 2⟩ ⟨2, 0, 0, 0, 1, 2⟩

theorem allocOk_scriptedNic (ps : List Mbuf) (room : Nat) : AllocOk (scriptedNic ps room) := by
  intro s
  refine ⟨blankMbuf 0, s, rfl, ?_⟩
  show 42 ≤ (List.replicate 2048 (0 : UInt8)).length
  rw [List.length_replicate]
  decide

/-- 63 packets buffered and two neighbours to inject: the consumer is stuck. -/
theorem consumer_stuck_with_two_neighbours :
    AllocOk (scriptedNic [] 0) ∧ (busyConsumer 63 (by decide)).queueId ≠ 0 ∧
      (busyConsumer 63 (by decide)).sharedArpCache = true ∧
      ¬ CatchesUp (scriptedNic [] 0) Hasher.id (busyConsumer 63 (by decide)) ⟨(), twoNeighbours⟩ := by
  refine ⟨allocOk_scriptedNic [] 0, by decide, rfl, ?_⟩
  exact Wedged.not_catchesUp (allocOk_scriptedNic [] 0) Hasher.id
    ⟨by decide, rfl, by decide, by decide, by decide⟩

/-- With 62 packets buffered the same two neighbours get through. -/
theorem consumer_catchesUp_with_two_neighbours :
    CatchesUp (scriptedNic [] 0) Hasher.id (busyConsumer 62 (by decide)) ⟨(), twoNeighbours⟩ :=
  (consumer_catchesUp_iff (scriptedNic [] 0) Hasher.id (allocOk_scriptedNic [] 0)
    (busyConsumer 62 (by decide)) ⟨(), twoNeighbours⟩ (by decide) rfl).mpr
    (Or.inr (Or.inr (by decide)))

end DpdkNet
