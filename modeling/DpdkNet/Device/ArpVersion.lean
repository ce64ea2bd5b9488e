import DpdkNet.Lib.Runs
import DpdkNet.Lib.WriteLog
import DpdkNet.Device.ArpInjection

/-! # The version check, step by step

    `SharedArpCache::insert` and `DpdkDevice::receive` run on different cores.
    Here each of their accesses to shared memory is a step of its own: the
    producer loads the map, stores the new one and increments the version; a
    consumer polls its queue, loads the version, loads the snapshot, injects the
    entries one by one and takes a packet.  Steps of the producer and of any
    number of consumers interleave in any order, and DPDK may do anything
    between two of them.

    The log of the `insert` calls says what the map must hold.  The order of the
    two accesses on either side is what matters: the map is stored BEFORE the
    version moves and loaded AFTER the version is read, so the snapshot a
    consumer injects under version `v` is the map after `v` inserts or a later
    one. -/

namespace DpdkNet.ArpVersion

open DpdkDevice Runs

variable {σ ι : Type}

abbrev Entry := Σ _ : Ipv4Addr, MacAddress

/-- Where the producer stands in `insert`. -/
inductive Producer where
  | idle
  /-- the map has been cloned and updated, the store is next -/
  | storing (newMap : ArpMap)
  /-- the map is in place (or was unchanged), `fetch_add` is next -/
  | bumping

/-- Where a consumer stands in `receive`. -/
inductive Phase where
  | idle
  /-- `poll_rx` is done, the version load is next -/
  | polled
  /-- the version differs from the last one, the snapshot load is next -/
  | versioned (currentVersion : UInt64)
  /-- in the injection loop, with the entries still to inject -/
  | injecting (currentVersion : UInt64) (rest : List Entry)
  /-- injection has returned, the `pop` is next -/
  | injected

/-- A consumer queue.  `pushed` records the mbufs its injections have pushed
    into `rx_batch`. -/
structure Consumer where
  dev : DpdkDevice
  phase : Phase
  pushed : List Mbuf
  not_producer : dev.queueId ≠ 0

/-- The whole system.  `inserts` records the `insert` calls in order and `maps`
    the map as it stood at the start and after each of them returned. -/
structure System (ι σ : Type) where
  cache : SharedArpCache
  producer : Producer
  consumers : ι → Consumer
  ffi : σ
  inserts : List (Ipv4Addr × MacAddress)
  maps : List ArpMap

/-- The atomic steps. -/
inductive Op (ι σ : Type) where
  /-- `insert` is called: load the current map, compare, clone and update -/
  | insert (ip : Ipv4Addr) (mac : MacAddress)
  /-- store the new map -/
  | store
  /-- increment the version; `insert` returns -/
  | fetchAdd
  /-- `receive` is called: `poll_rx` -/
  | pollRx (i : ι)
  /-- load the version and compare it with the last one -/
  | loadVersion (i : ι)
  /-- load the snapshot -/
  | loadSnapshot (i : ι)
  /-- one round of the injection loop, or the end of it -/
  | inject (i : ι)
  /-- take the packet at the back; `receive` returns -/
  | pop (i : ι)
  /-- anything that others do to the driver and the mempools -/
  | dpdk (ffi : σ)

/-- The step does not apply where its party stands. -/
inductive Disabled where
  | disabled

namespace Consumer

/-- `poll_rx` on a consumer leaves the cache alone. -/
def poll (D : Dpdk σ) (H : Hasher) (c : Consumer) (w : World σ) : Consumer :=
  { c with
    dev := (DpdkDevice.pollRx D H c.dev w).1
    phase := .polled
    not_producer := by
      rw [(pollRx_consumer D H w c.not_producer).2.1]
      exact c.not_producer }

/-- The version load of `inject_from_shared_cache`, behind its early returns. -/
def loadVersion (c : Consumer) (version : UInt64) : Consumer :=
  if c.dev.sharedArpCache = false ∨ version = c.dev.lastCacheVersion then
    { c with phase := .injected }
  else { c with phase := .versioned version }

/-- One round of the injection loop.  A failure returns without the version; at
    the end of the snapshot the version is set. -/
def inject (D : Dpdk σ) (ourMac : MacAddress) (ourIp : Ipv4Addr) (c : Consumer)
    (currentVersion : UInt64) (s : σ) : List Entry → Consumer × σ
  | [] =>
      ({ c with
          dev := { c.dev with lastCacheVersion := currentVersion }
          phase := .injected }, s)
  | ⟨ip, mac⟩ :: rest =>
      if h : c.dev.rxBatch.len < 64 then
        match allocCopy D s (buildArpReplyForInjection ourMac ourIp mac ip) with
        | (some m, s) =>
            ({ c with
                dev := { c.dev with rxBatch := c.dev.rxBatch.push m h }
                phase := .injecting currentVersion rest
                pushed := c.pushed ++ [m] }, s)
        | (none, s) => ({ c with phase := .injected }, s)
      else ({ c with phase := .injected }, s)

/-- The end of `receive`. -/
def pop (c : Consumer) : Consumer :=
  match c.dev.rxBatch.pop with
  | some (_, batch) => { c with dev := { c.dev with rxBatch := batch }, phase := .idle }
  | none => { c with phase := .idle }

end Consumer

section Steps

variable [DecidableEq ι]

/-- Replace one consumer. -/
def System.setConsumer (s : System ι σ) (i : ι) (c : Consumer) : System ι σ :=
  { s with consumers := Function.update s.consumers i c }

/-- One atomic step of one party. -/
def step (D : Dpdk σ) (H : Hasher) (s : System ι σ) : Op ι σ → Except Disabled (System ι σ)
  | .insert ip mac =>
      match s.producer with
      | .idle =>
          .ok
            { s with
              producer :=
                if s.cache.inner.lookup ip = some mac then .bumping
                else .storing (H.layout (s.cache.inner.insert ip mac))
              inserts := s.inserts ++ [(ip, mac)] }
      | _ => .error .disabled
  | .store =>
      match s.producer with
      | .storing newMap =>
          .ok { s with cache := { s.cache with inner := newMap }, producer := .bumping }
      | _ => .error .disabled
  | .fetchAdd =>
      match s.producer with
      | .bumping =>
          .ok
            { s with
              cache := { s.cache with version := s.cache.version + 1 }
              producer := .idle
              maps := s.maps ++ [s.cache.inner] }
      | _ => .error .disabled
  | .pollRx i =>
      match (s.consumers i).phase with
      | .idle =>
          .ok
            { s.setConsumer i ((s.consumers i).poll D H ⟨s.ffi, s.cache⟩) with
              ffi := (DpdkDevice.pollRx D H (s.consumers i).dev ⟨s.ffi, s.cache⟩).2.ffi }
      | _ => .error .disabled
  | .loadVersion i =>
      match (s.consumers i).phase with
      | .polled => .ok (s.setConsumer i ((s.consumers i).loadVersion s.cache.version))
      | _ => .error .disabled
  | .loadSnapshot i =>
      match (s.consumers i).phase with
      | .versioned v =>
          .ok (s.setConsumer i
            { s.consumers i with phase := .injecting v s.cache.inner.entries })
      | _ => .error .disabled
  | .inject i =>
      match (s.consumers i).phase, (s.consumers i).dev.ourMac, (s.consumers i).dev.ourIp with
      | .injecting v rest, some ourMac, some ourIp =>
          let r := (s.consumers i).inject D ourMac ourIp v s.ffi rest
          .ok { s.setConsumer i r.1 with ffi := r.2 }
      | _, _, _ => .error .disabled
  | .pop i =>
      match (s.consumers i).phase with
      | .injected => .ok (s.setConsumer i (s.consumers i).pop)
      | _ => .error .disabled
  | .dpdk ffi => .ok { s with ffi := ffi }

/-- A consumer's device that has not received yet. -/
structure FreshConsumer where
  dev : DpdkDevice
  not_producer : dev.queueId ≠ 0
  fresh : dev.lastCacheVersion = 0

/-- The start: an empty cache, nobody inside a call. -/
def start (devs : ι → FreshConsumer) (ffi : σ) : System ι σ where
  cache := .new
  producer := .idle
  consumers := fun i => ⟨(devs i).dev, .idle, [], (devs i).not_producer⟩
  ffi := ffi
  inserts := []
  maps := [∅]

/-! ## The calls, without interleaving -/

/-- The three accesses of an `insert` with nothing in between are `insert`. -/
theorem insert_atomic (D : Dpdk σ) (H : Hasher) {s : System ι σ} (ip : Ipv4Addr)
    (mac : MacAddress) (hs : s.producer = .idle) :
    ∃ ops s', run (step D H) s ops = .ok s' ∧ s'.cache = s.cache.insert H ip mac ∧
      s'.producer = .idle ∧ s'.consumers = s.consumers := by
  rw [SharedArpCache.insert]
  by_cases hsame : s.cache.inner.lookup ip = some mac
  · rw [if_pos hsame]
    refine ⟨[.insert ip mac, .fetchAdd],
      { s with
        cache := { s.cache with version := s.cache.version + 1 }
        producer := .idle
        inserts := s.inserts ++ [(ip, mac)]
        maps := s.maps ++ [s.cache.inner] }, ?_, rfl, rfl, rfl⟩
    simp only [run, step, hs, if_pos hsame]
  · rw [if_neg hsame]
    refine ⟨[.insert ip mac, .store, .fetchAdd],
      { s with
        cache :=
          { inner := H.layout (s.cache.inner.insert ip mac), version := s.cache.version + 1 }
        producer := .idle
        inserts := s.inserts ++ [(ip, mac)]
        maps := s.maps ++ [H.layout (s.cache.inner.insert ip mac)] }, ?_, rfl, rfl, rfl⟩
    simp only [run, step, hs, if_neg hsame]

@[simp] theorem consumers_setConsumer_self (s : System ι σ) (i : ι) (c : Consumer) :
    (s.setConsumer i c).consumers i = c := by
  simp only [System.setConsumer, Function.update_self]

/-- The rounds of the injection loop with nothing in between are the loop. -/
theorem inject_atomic (D : Dpdk σ) (H : Hasher) (i : ι) (ourMac : MacAddress)
    (ourIp : Ipv4Addr) (v : UInt64) :
    ∀ (rest : List Entry) (s : System ι σ),
      (s.consumers i).phase = .injecting v rest →
      (s.consumers i).dev.ourMac = some ourMac → (s.consumers i).dev.ourIp = some ourIp →
      ∃ ops s', run (step D H) s ops = .ok s' ∧
        (s'.consumers i).phase = .injected ∧
        (s'.consumers i).dev =
          { (s.consumers i).dev with
            rxBatch := (injectEntries D ourMac ourIp rest (s.consumers i).dev.rxBatch s.ffi).2.1
            lastCacheVersion :=
              if (injectEntries D ourMac ourIp rest (s.consumers i).dev.rxBatch s.ffi).1
              then v else (s.consumers i).dev.lastCacheVersion } ∧
        s'.ffi = (injectEntries D ourMac ourIp rest (s.consumers i).dev.rxBatch s.ffi).2.2 ∧
        s'.cache = s.cache := by
  intro rest
  induction rest with
  | nil =>
      intro s hp hm hi
      refine ⟨[.inject i], { s.setConsumer i ((s.consumers i).inject D ourMac ourIp v s.ffi []).1
        with ffi := s.ffi }, ?_, ?_, ?_, rfl, rfl⟩
      · simp only [run, step, hp, hm, hi, Consumer.inject]
      · show ((s.setConsumer i _).consumers i).phase = _
        rw [consumers_setConsumer_self]
        rfl
      · show ((s.setConsumer i _).consumers i).dev = _
        rw [consumers_setConsumer_self]
        rfl
  | cons e rest ih =>
      intro s hp hm hi
      obtain ⟨ip, mac⟩ := e
      by_cases hroom : (s.consumers i).dev.rxBatch.len < 64
      · rcases hac : allocCopy D s.ffi (buildArpReplyForInjection ourMac ourIp mac ip)
          with ⟨_ | m, ffi⟩
        · -- no mbuf: the loop returns
          refine ⟨[.inject i], { s.setConsumer i { s.consumers i with phase := .injected }
            with ffi := ffi }, ?_, ?_, ?_, ?_, rfl⟩
          · simp only [run, step, hp, hm, hi, Consumer.inject, hroom, dif_pos, hac]
          · show ((s.setConsumer i _).consumers i).phase = _
            rw [consumers_setConsumer_self]
          · show ((s.setConsumer i _).consumers i).dev = _
            rw [consumers_setConsumer_self]
            simp only [injectEntries, hroom, dif_pos, hac]
            rfl
          · simp only [injectEntries, hroom, dif_pos, hac]
        · obtain ⟨ops, s', hrun, h1, h2, h3, h4⟩ := ih
            { s.setConsumer i { s.consumers i with
                dev := { (s.consumers i).dev with
                  rxBatch := (s.consumers i).dev.rxBatch.push m hroom }
                phase := .injecting v rest
                pushed := (s.consumers i).pushed ++ [m] } with ffi := ffi }
            (by simp) (by simpa using hm) (by simpa using hi)
          refine ⟨.inject i :: ops, s', ?_, h1, ?_, ?_, h4⟩
          · rw [run_cons_ok, hrun]
            simp only [step, hp, hm, hi, Consumer.inject, hroom, dif_pos, hac]
          · simp only [injectEntries, hroom, dif_pos, hac]
            simpa using h2
          · simp only [injectEntries, hroom, dif_pos, hac]
            simpa using h3
      · refine ⟨[.inject i], s.setConsumer i { s.consumers i with phase := .injected },
          ?_, ?_, ?_, ?_, rfl⟩
        · simp only [run, step, hp, hm, hi, Consumer.inject, hroom, dif_neg, not_false_eq_true]
          rfl
        · rw [consumers_setConsumer_self]
        · rw [consumers_setConsumer_self]
          simp only [injectEntries, hroom, dif_neg, not_false_eq_true]
          rfl
        · simp only [injectEntries, hroom, dif_neg, not_false_eq_true]
          rfl

/-- Version load, snapshot load and loop with nothing in between are
    `inject_from_shared_cache`. -/
theorem injectFromSharedCache_atomic (D : Dpdk σ) (H : Hasher) (i : ι) {s : System ι σ}
    (hs : (s.consumers i).phase = .polled) :
    ∃ ops s', run (step D H) s ops = .ok s' ∧
      (s'.consumers i).phase = .injected ∧
      (s'.consumers i).dev =
        (injectFromSharedCache D (s.consumers i).dev ⟨s.ffi, s.cache⟩).1 ∧
      (⟨s'.ffi, s'.cache⟩ : World σ) =
        (injectFromSharedCache D (s.consumers i).dev ⟨s.ffi, s.cache⟩).2 := by
  by_cases hskip : (s.consumers i).dev.sharedArpCache = false ∨
      s.cache.version = (s.consumers i).dev.lastCacheVersion
  · rw [injectFromSharedCache_skip D (Or.inr hskip)]
    refine ⟨[.loadVersion i], s.setConsumer i ((s.consumers i).loadVersion s.cache.version),
      ?_, ?_, ?_, rfl⟩
    · simp only [run, step, hs]
    · rw [consumers_setConsumer_self, Consumer.loadVersion, if_pos hskip]
    · rw [consumers_setConsumer_self, Consumer.loadVersion, if_pos hskip]
  · obtain ⟨hc, hv⟩ := not_or.mp hskip
    have hc := Bool.eq_true_of_not_eq_false hc
    obtain ⟨ourMac, ourIp, hm, hip, hrun⟩ := injectFromSharedCache_run D
      (w := ⟨s.ffi, s.cache⟩) (s.consumers i).not_producer hc hv
    obtain ⟨ops, s', hops, h1, h2, h3, h4⟩ := inject_atomic D H i ourMac ourIp
      s.cache.version s.cache.inner.entries
      (s.setConsumer i
        { s.consumers i with phase := .injecting s.cache.version s.cache.inner.entries })
      (by simp) (by simpa using hm) (by simpa using hip)
    rw [consumers_setConsumer_self] at h2 h3
    refine ⟨.loadVersion i :: .loadSnapshot i :: ops, s', ?_, h1, ?_, ?_⟩
    · rw [← hops]
      simp only [run, step, hs, Consumer.loadVersion, if_neg hskip, consumers_setConsumer_self]
      congr 1
      simp only [System.setConsumer, Function.update_idem]
    · rw [h2, hrun]
      rfl
    · rw [h3, h4, hrun]
      rfl

/-- The end of `receive`, by the list view of the batch. -/
theorem Consumer.pop_spec (c : Consumer) :
    ∃ batch : ArrayVec Mbuf 64, batch.toList = c.dev.rxBatch.toList.dropLast ∧
      c.pop = { c with dev := { c.dev with rxBatch := batch }, phase := .idle } := by
  cases hpop : c.dev.rxBatch.pop with
  | none =>
      refine ⟨c.dev.rxBatch, ?_, by simp only [pop, hpop]⟩
      rw [ArrayVec.pop_eq_none.mp hpop]
      rfl
  | some p =>
      obtain ⟨m, batch⟩ := p
      refine ⟨batch, ?_, by simp only [pop, hpop]⟩
      rw [ArrayVec.toList_of_pop hpop, List.dropLast_concat]

/-- The steps of a `receive` with nothing in between are `receive`. -/
theorem receive_atomic (D : Dpdk σ) (H : Hasher) (i : ι) {s : System ι σ}
    (hs : (s.consumers i).phase = .idle) :
    ∃ ops s', run (step D H) s ops = .ok s' ∧
      (s'.consumers i).phase = .idle ∧
      (s'.consumers i).dev = (receive D H (s.consumers i).dev ⟨s.ffi, s.cache⟩).2.1 ∧
      (⟨s'.ffi, s'.cache⟩ : World σ) =
        (receive D H (s.consumers i).dev ⟨s.ffi, s.cache⟩).2.2 := by
  have harp := (pollRx_consumer D H ⟨s.ffi, s.cache⟩ (s.consumers i).not_producer).2.2.2.2
  obtain ⟨ops, s', hops, h1, h2, h3⟩ := injectFromSharedCache_atomic D H i
    (s := { s.setConsumer i ((s.consumers i).poll D H ⟨s.ffi, s.cache⟩) with
      ffi := (DpdkDevice.pollRx D H (s.consumers i).dev ⟨s.ffi, s.cache⟩).2.ffi })
    (by simp [Consumer.poll])
  have hprep : injectFromSharedCache D ((s.consumers i).poll D H ⟨s.ffi, s.cache⟩).dev
      ⟨(DpdkDevice.pollRx D H (s.consumers i).dev ⟨s.ffi, s.cache⟩).2.ffi, s.cache⟩
      = prepared D H (s.consumers i).dev ⟨s.ffi, s.cache⟩ :=
    congrArg (fun arp => injectFromSharedCache D
      (DpdkDevice.pollRx D H (s.consumers i).dev ⟨s.ffi, s.cache⟩).1 ⟨_, arp⟩) harp.symm
  simp only [consumers_setConsumer_self] at h2 h3
  replace h2 := h2.trans (congrArg Prod.fst hprep)
  replace h3 := h3.trans (congrArg Prod.snd hprep)
  have hrun : run (step D H) s (.pollRx i :: ops) = .ok s' := by
    rw [run_cons_ok, hops]
    simp only [step, hs]
  obtain ⟨batch, hbatch, hpop⟩ := (s'.consumers i).pop_spec
  obtain ⟨batch', hbatch', hrecv⟩ := receive_spec D H (s.consumers i).dev ⟨s.ffi, s.cache⟩
  refine ⟨.pollRx i :: ops ++ [.pop i], s'.setConsumer i (s'.consumers i).pop, ?_, ?_, ?_, ?_⟩
  · rw [run_append hrun]
    simp only [run, step, h1]
  · rw [consumers_setConsumer_self, hpop]
  · have hsame : batch = batch' := ArrayVec.ext (by rw [hbatch, hbatch', h2])
    rw [consumers_setConsumer_self, hpop, hrecv, hsame]
    simp only [h2]
  · rw [hrecv]
    exact h3

end Steps

/-! ## The invariant -/

open WriteLog (last last_take_later last_concat)

/-- The map is what the log of inserts says. -/
def Holds (m : ArpMap) (log : List (Ipv4Addr × MacAddress)) : Prop :=
  ∀ ip, m.lookup ip = last ip log

/-- One of the mbufs is an ARP reply that announces `mac` for `ip`. -/
def Announced (pushed : List Mbuf) (ip : Ipv4Addr) (mac : MacAddress) : Prop :=
  ∃ p ∈ pushed, parseArpReply p.data = some (ip, mac)

/-- Every address the first `v` inserts knew has been announced with the MAC it
    had then, or with one inserted later. -/
def CoveredUpTo (log : List (Ipv4Addr × MacAddress)) (pushed : List Mbuf) (v : Nat) : Prop :=
  ∀ ip mac, last ip (log.take v) = some mac →
    ∃ mac', Announced pushed ip mac' ∧
      (mac' = mac ∨ ∃ n, v ≤ n ∧ log[n]? = some (ip, mac'))

/-- What holds of a consumer while it is in the middle of `receive`: a version
    it has loaded is not ahead of the counter, and the snapshot it injects is
    the map after at least that many inserts. -/
def InPhase (log : List (Ipv4Addr × MacAddress)) (version : Nat) (pushed : List Mbuf) :
    Phase → Prop
  | .versioned v => v.toNat ≤ version
  | .injecting v rest =>
      v.toNat ≤ version ∧ ∃ k, v.toNat ≤ k ∧ k ≤ log.length ∧
        ∀ ip mac, last ip (log.take k) = some mac →
          (⟨ip, mac⟩ : Entry) ∈ rest ∨ Announced pushed ip mac
  | _ => True

structure ConsumerOk (log : List (Ipv4Addr × MacAddress)) (version : Nat) (c : Consumer) :
    Prop where
  behind : c.dev.lastCacheVersion.toNat ≤ version
  covered : CoveredUpTo log c.pushed c.dev.lastCacheVersion.toNat
  phase : InPhase log version c.pushed c.phase

/-- What the producer's position says about the map and the number of calls. -/
def InInsert (log : List (Ipv4Addr × MacAddress)) (cache : SharedArpCache) : Producer → Prop
  | .idle => log.length = cache.version.toNat ∧ Holds cache.inner log
  | .storing newMap =>
      log.length = cache.version.toNat + 1 ∧ Holds newMap log ∧
        Holds cache.inner (log.take cache.version.toNat)
  | .bumping => log.length = cache.version.toNat + 1 ∧ Holds cache.inner log

structure Good (s : System ι σ) : Prop where
  insert : InInsert s.inserts s.cache s.producer
  count : s.maps.length = s.cache.version.toNat + 1
  maps : ∀ v m, s.maps[v]? = some m → Holds m (s.inserts.take v)
  consumers : ∀ i, ConsumerOk s.inserts s.cache.version.toNat (s.consumers i)

theorem Announced.mono {pushed pushed' : List Mbuf} {ip : Ipv4Addr} {mac : MacAddress}
    (hsub : pushed ⊆ pushed') (h : Announced pushed ip mac) : Announced pushed' ip mac := by
  obtain ⟨p, hp, hparse⟩ := h
  exact ⟨p, hsub hp, hparse⟩

theorem CoveredUpTo.mono {log log' : List (Ipv4Addr × MacAddress)}
    {pushed pushed' : List Mbuf} {v : Nat} (hlog : log <+: log') (hv : v ≤ log.length)
    (hsub : pushed ⊆ pushed') (h : CoveredUpTo log pushed v) : CoveredUpTo log' pushed' v := by
  obtain ⟨more, rfl⟩ := hlog
  intro ip mac hlast
  rw [List.take_append_of_le_length hv] at hlast
  obtain ⟨mac', hann, hmac⟩ := h ip mac hlast
  refine ⟨mac', hann.mono hsub, hmac.imp_right ?_⟩
  rintro ⟨n, hn, hget⟩
  refine ⟨n, hn, ?_⟩
  rw [List.getElem?_append_left (List.getElem?_eq_some_iff.mp hget).1]
  exact hget

theorem InPhase.mono {log log' : List (Ipv4Addr × MacAddress)} {version version' : Nat}
    {pushed : List Mbuf} {phase : Phase} (hlog : log <+: log') (hversion : version ≤ version')
    (h : InPhase log version pushed phase) : InPhase log' version' pushed phase := by
  cases phase with
  | versioned v => exact Nat.le_trans h hversion
  | injecting v rest =>
      obtain ⟨hv, k, hk, hlen, hall⟩ := h
      obtain ⟨more, rfl⟩ := hlog
      refine ⟨Nat.le_trans hv hversion, k, hk, ?_, ?_⟩
      · rw [List.length_append]
        exact Nat.le_trans hlen (Nat.le_add_right _ _)
      · intro ip mac hlast
        rw [List.take_append_of_le_length hlen] at hlast
        exact hall ip mac hlast
  | _ => trivial

/-- A growing log and a growing counter disturb no consumer. -/
theorem ConsumerOk.mono {log log' : List (Ipv4Addr × MacAddress)} {version version' : Nat}
    {c : Consumer} (hlog : log <+: log') (hversion : version ≤ version')
    (hlen : version ≤ log.length) (h : ConsumerOk log version c) : ConsumerOk log' version' c :=
  ⟨Nat.le_trans h.behind hversion,
    h.covered.mono hlog (Nat.le_trans h.behind hlen) (List.Subset.refl _),
    h.phase.mono hlog hversion⟩

/-- Inserting into the map is appending to the log, wherever the hash table
    puts the entry. -/
theorem Holds.insert {m : ArpMap} {log : List (Ipv4Addr × MacAddress)} (h : Holds m log)
    (H : Hasher) (ip : Ipv4Addr) (mac : MacAddress) :
    Holds (H.layout (m.insert ip mac)) (log ++ [(ip, mac)]) := by
  intro a
  rw [AList.perm_lookup (H.perm _), last_concat]
  by_cases ha : ip = a
  · subst ha
    rw [if_pos rfl, AList.lookup_insert]
  · rw [if_neg ha, AList.lookup_insert_ne (Ne.symm ha)]
    exact h a

/-- A step of one consumer leaves everybody else alone. -/
theorem Good.setConsumer [DecidableEq ι] {s : System ι σ} (h : Good s) (i : ι) {c : Consumer} (ffi : σ)
    (hc : ConsumerOk s.inserts s.cache.version.toNat c) :
    Good { s.setConsumer i c with ffi := ffi } := by
  refine ⟨h.insert, h.count, h.maps, fun j => ?_⟩
  by_cases hj : j = i
  · subst hj
    simp only [System.setConsumer, Function.update_self]
    exact hc
  · simp only [System.setConsumer, Function.update_of_ne hj]
    exact h.consumers j

/-- **ONE ROUND OF THE LOOP**: an entry that is not in the rest any more has
    been announced, and the version is set when there is no rest. -/
theorem ConsumerOk.inject {log : List (Ipv4Addr × MacAddress)} {version : Nat} {c : Consumer}
    (h : ConsumerOk log version c) (D : Dpdk σ) (ourMac : MacAddress) (ourIp : Ipv4Addr)
    {v : UInt64} (s : σ) {rest : List Entry} (hp : c.phase = .injecting v rest) :
    ConsumerOk log version (c.inject D ourMac ourIp v s rest).1 := by
  have hphase := h.phase
  rw [hp] at hphase
  obtain ⟨hv, k, hk, hlen, hall⟩ := hphase
  cases rest with
  | nil =>
      refine ⟨hv, ?_, trivial⟩
      intro ip mac hlast
      obtain ⟨mac', hlast', hmac⟩ := last_take_later hk hlast
      obtain hmem | hann := hall ip mac' hlast'
      · cases hmem
      · exact ⟨mac', hann, hmac⟩
  | cons e rest =>
      obtain ⟨ip, mac⟩ := e
      by_cases hroom : c.dev.rxBatch.len < 64
      · rcases hac : allocCopy D s (buildArpReplyForInjection ourMac ourIp mac ip)
          with ⟨_ | m, s'⟩
        · simp only [Consumer.inject, hroom, dif_pos, hac]
          exact ⟨h.behind, h.covered, trivial⟩
        · simp only [Consumer.inject, hroom, dif_pos, hac]
          have hsub : c.pushed ⊆ c.pushed ++ [m] := List.subset_append_left _ _
          refine ⟨h.behind, ?_, hv, k, hk, hlen, ?_⟩
          · intro ip' mac' hlast
            obtain ⟨mac'', hann, hmac⟩ := h.covered ip' mac' hlast
            exact ⟨mac'', hann.mono hsub, hmac⟩
          · intro ip' mac' hlast
            obtain hmem | hann := hall ip' mac' hlast
            · obtain heq | hrest := List.mem_cons.mp hmem
              · cases heq
                refine Or.inr ⟨m, List.mem_append_right _ List.mem_cons_self, ?_⟩
                rw [data_of_allocCopy hac, parseArpReply_build]
              · exact Or.inl hrest
            · exact Or.inr (hann.mono hsub)
      · simp only [Consumer.inject, hroom, dif_neg, not_false_eq_true]
        exact ⟨h.behind, h.covered, trivial⟩

theorem ConsumerOk.pop {log : List (Ipv4Addr × MacAddress)} {version : Nat} {c : Consumer}
    (h : ConsumerOk log version c) : ConsumerOk log version c.pop := by
  obtain ⟨batch, -, hpop⟩ := c.pop_spec
  rw [hpop]
  exact ⟨h.behind, h.covered, trivial⟩

theorem ConsumerOk.loadVersion {log : List (Ipv4Addr × MacAddress)} {version : UInt64}
    {c : Consumer} (h : ConsumerOk log version.toNat c) :
    ConsumerOk log version.toNat (c.loadVersion version) := by
  rw [Consumer.loadVersion]
  split
  · exact ⟨h.behind, h.covered, trivial⟩
  · exact ⟨h.behind, h.covered, Nat.le_refl _⟩

theorem ConsumerOk.poll {log : List (Ipv4Addr × MacAddress)} {version : Nat} {c : Consumer}
    (h : ConsumerOk log version c) (D : Dpdk σ) (H : Hasher) (w : World σ) :
    ConsumerOk log version (c.poll D H w) := by
  have hlast := (pollRx_consumer D H w c.not_producer).2.2.2.1
  refine ⟨?_, ?_, trivial⟩
  · show (DpdkDevice.pollRx D H c.dev w).1.lastCacheVersion.toNat ≤ version
    rw [hlast]
    exact h.behind
  · show CoveredUpTo log c.pushed (DpdkDevice.pollRx D H c.dev w).1.lastCacheVersion.toNat
    rw [hlast]
    exact h.covered

end DpdkNet.ArpVersion
