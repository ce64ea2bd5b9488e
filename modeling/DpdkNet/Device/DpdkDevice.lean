import DpdkNet.Device.ArpCache

/-! # The smoltcp device

    `device/dpdk_device.rs`: the drain-then-refill receive path, the injection
    of shared ARP entries into it, and the transmit batch with its tokens.

    A call takes the device and the world it shares with others (DPDK behind
    `ffi`, the ARP cache behind its `Arc`) and returns both.  A received token
    is its mbuf; a transmit token is the right to call `consume`, which is the
    only thing it borrows the device for. -/

namespace DpdkNet

variable {σ : Type}

/-- What a device shares with the rest of the program. -/
structure World (σ : Type) where
  ffi : σ
  arp : SharedArpCache

/-- The device.  `sharedArpCache` says whether it holds a handle to the shared
    cache; the handle comes with the two addresses (`withSharedArpCache` is the
    only way to set any of them). -/
structure DpdkDevice where
  rxBatch : ArrayVec Mbuf 64
  txBatch : ArrayVec Mbuf 256
  mtu : Nat
  mbufCapacity : Nat
  queueId : UInt16
  sharedArpCache : Bool
  ourMac : Option MacAddress
  ourIp : Option Ipv4Addr
  lastCacheVersion : UInt64
  addresses_set : sharedArpCache = true → ourMac.isSome = true ∧ ourIp.isSome = true

/-- Maximum packet overhead: Ethernet (14) + IP (20) + TCP with options (60). -/
def maxPacketOverhead : Nat := 14 + 20 + 60

namespace DpdkDevice

/-- Create a new device; `none` is the assertion on the MTU failing. -/
def new (mtu mbufCapacity : Nat) : Option DpdkDevice :=
  if mtu + maxPacketOverhead ≤ mbufCapacity then
    some
      { rxBatch := .new
        txBatch := .new
        mtu
        mbufCapacity
        queueId := 0
        sharedArpCache := false
        ourMac := none
        ourIp := none
        lastCacheVersion := 0
        addresses_set := nofun }
  else none

/-- A device as the server runner creates it. -/
def standard : DpdkDevice := (new 1500 2048).get (by decide)

/-- Configure the shared ARP cache for multi-queue support. -/
def withSharedArpCache (dev : DpdkDevice) (queueId : UInt16) (ourMac : MacAddress)
    (ourIp : Ipv4Addr) : DpdkDevice :=
  { dev with
    queueId
    sharedArpCache := true
    ourMac := some ourMac
    ourIp := some ourIp
    addresses_set := fun _ => ⟨rfl, rfl⟩ }

/-- Flush pending TX packets to the hardware; what it refuses stays. -/
def flushTx (D : Dpdk σ) (dev : DpdkDevice) (s : σ) : DpdkDevice × σ :=
  if dev.txBatch.isEmpty then (dev, s)
  else
    let sent := TxQueue.tx D s dev.txBatch
    ({ dev with txBatch := sent.2.1 }, sent.2.2)

/-- The producer's scan: every ARP reply of the burst goes into the cache. -/
def scanArpReplies (H : Hasher) (c : SharedArpCache) (burst : List Mbuf) : SharedArpCache :=
  burst.foldl (fun c m =>
    match parseArpReply m.data with
    | some (ip, mac) => c.insert H ip mac
    | none => c) c

/-- Flush, then refill the batch from the network if it is empty; queue 0
    updates the shared cache from the packets that arrived. -/
def pollRx (D : Dpdk σ) (H : Hasher) (dev : DpdkDevice) (w : World σ) :
    DpdkDevice × World σ :=
  let flushed := flushTx D dev w.ffi
  let dev := flushed.1
  if dev.rxBatch.isEmpty then
    let received := RxQueue.rx D flushed.2 dev.rxBatch
    let arp :=
      if dev.sharedArpCache ∧ dev.queueId = 0 then
        scanArpReplies H w.arp received.2.1.toList
      else w.arp
    ({ dev with rxBatch := received.2.1 }, ⟨received.2.2, arp⟩)
  else (dev, ⟨flushed.2, w.arp⟩)

/-- `try_alloc` followed by `copy_from_slice`; when the copy fails the mbuf is
    dropped. -/
def allocCopy (D : Dpdk σ) (s : σ) (d : Frame) : Option Mbuf × σ :=
  match D.pktmbufAlloc s with
  | (none, s) => (none, s)
  | (some m, s) =>
      match m.copyFromSlice d with
      | (true, m) => (some m, s)
      | (false, m) => (none, D.pktmbufFree s m)

/-- The injection loop: one frame per entry, `false` as soon as one entry finds
    no slot, no mbuf or no room in the mbuf. -/
def injectEntries (D : Dpdk σ) (ourMac : MacAddress) (ourIp : Ipv4Addr) :
    List (Σ _ : Ipv4Addr, MacAddress) → ArrayVec Mbuf 64 → σ → Bool × ArrayVec Mbuf 64 × σ
  | [], batch, s => (true, batch, s)
  | ⟨ip, mac⟩ :: rest, batch, s =>
      if h : batch.len < 64 then
        match allocCopy D s (buildArpReplyForInjection ourMac ourIp mac ip) with
        | (some m, s) => injectEntries D ourMac ourIp rest (batch.push m h) s
        | (none, s) => (false, batch, s)
      else (false, batch, s)

/-- Check the shared ARP cache and inject its entries into our rx path.  The
    version is only updated once every entry is in, so that a failed injection
    is retried. -/
def injectFromSharedCache (D : Dpdk σ) (dev : DpdkDevice) (w : World σ) :
    DpdkDevice × World σ :=
  if dev.queueId = 0 then (dev, w)
  else
    match dev.sharedArpCache, dev.ourMac, dev.ourIp with
    | true, some ourMac, some ourIp =>
        let currentVersion := w.arp.version
        if currentVersion = dev.lastCacheVersion then (dev, w)
        else
          let injected := injectEntries D ourMac ourIp w.arp.inner.entries dev.rxBatch w.ffi
          let dev := { dev with rxBatch := injected.2.1 }
          let w := { w with ffi := injected.2.2 }
          if injected.1 then ({ dev with lastCacheVersion := currentVersion }, w)
          else (dev, w)
    | _, _, _ => (dev, w)

/-- Inject a packet into the receive path; `false` if there is no space. -/
def injectRxPacket (D : Dpdk σ) (dev : DpdkDevice) (s : σ) (d : Frame) :
    Bool × DpdkDevice × σ :=
  if h : dev.rxBatch.len < 64 then
    match allocCopy D s d with
    | (some m, s) => (true, { dev with rxBatch := dev.rxBatch.push m h }, s)
    | (none, s) => (false, dev, s)
  else (false, dev, s)

/-- Receive: poll, inject, then hand out the packet at the back of the batch
    together with a transmit token. -/
def receive (D : Dpdk σ) (H : Hasher) (dev : DpdkDevice) (w : World σ) :
    Option Mbuf × DpdkDevice × World σ :=
  let polled := pollRx D H dev w
  let injected := injectFromSharedCache D polled.1 polled.2
  match injected.1.rxBatch.pop with
  | some (m, batch) => (some m, { injected.1 with rxBatch := batch }, injected.2)
  | none => (none, injected)

/-- Transmit: a token if the batch has room, if need be after a flush. -/
def transmit (D : Dpdk σ) (dev : DpdkDevice) (s : σ) : Bool × DpdkDevice × σ :=
  if dev.txBatch.len < 256 then (true, dev, s)
  else
    let flushed := flushTx D dev s
    (decide (flushed.1.txBatch.len < 256), flushed)

/-- The `expect` of `consume`. -/
inductive Panic where
  | txBatchFull

/-- Consume a transmit token: allocate, let smoltcp write, queue the packet.
    The frame written is returned beside the device; without an mbuf the frame
    goes to a scratch buffer and is lost. -/
def consume (D : Dpdk σ) (dev : DpdkDevice) (s : σ) (len : Nat) (f : SliceWriter) :
    Except Panic (Option Frame × DpdkDevice × σ) :=
  match D.pktmbufAlloc s with
  | (some m, s) =>
      let m := m.extend len
      match dev.txBatch.tryPush (m.writeData f) with
      | some batch => .ok (some (f.write m.data), { dev with txBatch := batch }, s)
      | none => .error .txBatchFull
  | (none, s) => .ok (none, dev, s)

/-! ## What each call does

    One equation or case lemma per function; nothing below unfolds them
    again. -/

/-- How many packets the driver takes in the flush that starts the next call. -/
def flushAccepts (D : Dpdk σ) (dev : DpdkDevice) (s : σ) : Nat :=
  if dev.txBatch.toList = [] then 0 else (D.ethTxBurst s (dev.txBatch.toList.take 64)).1

theorem flushAccepts_le (D : Dpdk σ) (dev : DpdkDevice) (s : σ) :
    flushAccepts D dev s ≤ (dev.txBatch.toList.take 64).length := by
  rw [flushAccepts]
  split
  · exact Nat.zero_le _
  · exact D.tx_le _ _

theorem flushTx_of_nil (D : Dpdk σ) {dev : DpdkDevice} (s : σ) (h : dev.txBatch.toList = []) :
    flushTx D dev s = (dev, s) := by
  rw [flushTx, if_pos ((ArrayVec.isEmpty_iff _).mpr h)]

theorem flushTx_of_ne_nil (D : Dpdk σ) {dev : DpdkDevice} (s : σ)
    (h : dev.txBatch.toList ≠ []) :
    flushTx D dev s =
      ({ dev with txBatch := dev.txBatch.dropFront (flushAccepts D dev s) },
        (D.ethTxBurst s (dev.txBatch.toList.take 64)).2) := by
  have he : ¬ dev.txBatch.isEmpty = true := fun hc => h ((ArrayVec.isEmpty_iff _).mp hc)
  rw [flushTx, if_neg he, TxQueue.tx_of_ne_nil D s _ h, flushAccepts, if_neg h]

/-- A flush only shortens the transmit batch, by what the driver accepted. -/
theorem flushTx_fst (D : Dpdk σ) (dev : DpdkDevice) (s : σ) :
    (flushTx D dev s).1 =
      { dev with txBatch := dev.txBatch.dropFront (flushAccepts D dev s) } := by
  by_cases h : dev.txBatch.toList = []
  · rw [flushTx_of_nil D s h, flushAccepts, if_pos h]
    rfl
  · rw [flushTx_of_ne_nil D s h]

/-- Polling with packets still buffered only flushes. -/
theorem pollRx_of_ne_nil (D : Dpdk σ) (H : Hasher) {dev : DpdkDevice} (w : World σ)
    (h : dev.rxBatch.toList ≠ []) :
    pollRx D H dev w = ((flushTx D dev w.ffi).1, ⟨(flushTx D dev w.ffi).2, w.arp⟩) := by
  have he : ¬ (flushTx D dev w.ffi).1.rxBatch.isEmpty = true := by
    rw [flushTx_fst]
    exact fun hc => h ((ArrayVec.isEmpty_iff _).mp hc)
  rw [pollRx, if_neg he]

/-- The burst that a poll with an empty batch receives. -/
def nextBurst (D : Dpdk σ) (dev : DpdkDevice) (s : σ) : List Mbuf × σ :=
  D.ethRxBurst (flushTx D dev s).2 64

/-- Polling with an empty batch refills it with exactly the next burst. -/
theorem pollRx_of_nil (D : Dpdk σ) (H : Hasher) {dev : DpdkDevice} (w : World σ)
    (h : dev.rxBatch.toList = []) :
    ∃ batch : ArrayVec Mbuf 64,
      batch.toList = (nextBurst D dev w.ffi).1 ∧
      pollRx D H dev w =
        ({ (flushTx D dev w.ffi).1 with rxBatch := batch },
          ⟨(nextBurst D dev w.ffi).2,
            if dev.sharedArpCache ∧ dev.queueId = 0 then
              scanArpReplies H w.arp (nextBurst D dev w.ffi).1
            else w.arp⟩) := by
  have hrx : (flushTx D dev w.ffi).1.rxBatch = dev.rxBatch := by rw [flushTx_fst]
  obtain ⟨hb, hs⟩ := RxQueue.rx_empty D (flushTx D dev w.ffi).2
    (flushTx D dev w.ffi).1.rxBatch (by rw [hrx]; exact h)
  refine ⟨_, hb, ?_⟩
  have he : (flushTx D dev w.ffi).1.rxBatch.isEmpty = true := by
    rw [hrx]
    exact (ArrayVec.isEmpty_iff _).mpr h
  have hcfg : (flushTx D dev w.ffi).1.sharedArpCache = dev.sharedArpCache ∧
      (flushTx D dev w.ffi).1.queueId = dev.queueId := by
    rw [flushTx_fst]
    exact ⟨rfl, rfl⟩
  rw [pollRx, if_pos he]
  simp only [hs, hb, hcfg.1, hcfg.2]
  rfl

/-- Injection is skipped on queue 0, without a shared cache, and when the cache
    has not changed. -/
theorem injectFromSharedCache_skip (D : Dpdk σ) {dev : DpdkDevice} {w : World σ}
    (h : dev.queueId = 0 ∨ dev.sharedArpCache = false ∨
      w.arp.version = dev.lastCacheVersion) :
    injectFromSharedCache D dev w = (dev, w) := by
  rw [injectFromSharedCache]
  by_cases hq : dev.queueId = 0
  · rw [if_pos hq]
  · rw [if_neg hq]
    rcases h with h | h | h
    · exact absurd h hq
    · split
      · rename_i hc _ _
        rw [h] at hc
        cases hc
      · rfl
    · split
      · rw [if_pos h]
      · rfl

/-- On a consumer that is behind, injection runs the loop over the snapshot and
    updates the version only if the loop got through. -/
theorem injectFromSharedCache_run (D : Dpdk σ) {dev : DpdkDevice} {w : World σ}
    (hq : dev.queueId ≠ 0) (hc : dev.sharedArpCache = true)
    (hv : w.arp.version ≠ dev.lastCacheVersion) :
    ∃ ourMac ourIp, dev.ourMac = some ourMac ∧ dev.ourIp = some ourIp ∧
      injectFromSharedCache D dev w =
        ({ dev with
            rxBatch := (injectEntries D ourMac ourIp w.arp.inner.entries dev.rxBatch w.ffi).2.1
            lastCacheVersion :=
              if (injectEntries D ourMac ourIp w.arp.inner.entries dev.rxBatch w.ffi).1
              then w.arp.version else dev.lastCacheVersion },
          { w with
            ffi := (injectEntries D ourMac ourIp w.arp.inner.entries dev.rxBatch w.ffi).2.2 }) := by
  obtain ⟨hm, hi⟩ := dev.addresses_set hc
  obtain ⟨ourMac, hm⟩ := Option.isSome_iff_exists.mp hm
  obtain ⟨ourIp, hi⟩ := Option.isSome_iff_exists.mp hi
  refine ⟨ourMac, ourIp, hm, hi, ?_⟩
  rw [injectFromSharedCache, if_neg hq]
  simp only [hc, hm, hi, if_neg hv]
  split <;> rfl

/-- A successful allocation and copy yields an mbuf holding the frame. -/
theorem data_of_allocCopy {D : Dpdk σ} {s s' : σ} {d : Frame} {m : Mbuf}
    (h : allocCopy D s d = (some m, s')) : m.data = d := by
  rw [allocCopy] at h
  split at h
  · cases h
  · split at h
    · cases h
      exact Mbuf.data_copyFromSlice ‹_›
    · cases h

/-- An allocated mbuf with room for the frame is filled and kept. -/
theorem allocCopy_of_fits {D : Dpdk σ} {s s' : σ} {d : Frame} {m : Mbuf}
    (hm : D.pktmbufAlloc s = (some m, s')) (h1 : d.length ≤ u16Max)
    (h2 : d.length ≤ m.buf.length) :
    ∃ m', allocCopy D s d = (some m', s') := by
  have hcopy := (Mbuf.copyFromSlice_fst m d).mpr ⟨h1, h2⟩
  rcases hc : m.copyFromSlice d with ⟨_ | _, m'⟩
  · rw [hc] at hcopy
    cases hcopy
  · refine ⟨m', ?_⟩
    simp only [allocCopy, hm, hc]

/-- The frame injected for an entry. -/
def entryFrame (ourMac : MacAddress) (ourIp : Ipv4Addr) (e : Σ _ : Ipv4Addr, MacAddress) :
    Frame :=
  buildArpReplyForInjection ourMac ourIp e.2 e.1

/-- **INJECTION**: the loop pushes the frames of some initial entries, in the
    order of the snapshot, and reports success only if that is all of them. -/
theorem injectEntries_spec (D : Dpdk σ) (ourMac : MacAddress) (ourIp : Ipv4Addr) :
    ∀ (es : List (Σ _ : Ipv4Addr, MacAddress)) (batch : ArrayVec Mbuf 64) (s : σ),
      ∃ ms : List Mbuf,
        (injectEntries D ourMac ourIp es batch s).2.1.toList = batch.toList ++ ms ∧
        ms.map Mbuf.data <+: es.map (entryFrame ourMac ourIp) ∧
        ((injectEntries D ourMac ourIp es batch s).1 = true →
          ms.map Mbuf.data = es.map (entryFrame ourMac ourIp)) := by
  intro es
  induction es with
  | nil =>
      intro batch s
      exact ⟨[], (List.append_nil _).symm, List.prefix_rfl, fun _ => rfl⟩
  | cons e es ih =>
      intro batch s
      obtain ⟨ip, mac⟩ := e
      by_cases hroom : batch.len < 64
      · rcases hac : allocCopy D s (buildArpReplyForInjection ourMac ourIp mac ip)
          with ⟨_ | m, s'⟩
        · refine ⟨[], ?_, List.nil_prefix, ?_⟩
          · simp only [injectEntries, hroom, dif_pos, hac, List.append_nil]
          · simp only [injectEntries, hroom, dif_pos, hac]
            intro h
            cases h
        · obtain ⟨ms, h1, h2, h3⟩ := ih (batch.push m hroom) s'
          have hd : m.data = entryFrame ourMac ourIp ⟨ip, mac⟩ := data_of_allocCopy hac
          refine ⟨m :: ms, ?_, ?_, ?_⟩
          · simp only [injectEntries, hroom, dif_pos, hac]
            rw [h1, ArrayVec.toList_push, List.append_assoc]
            rfl
          · rw [List.map_cons, List.map_cons, hd]
            exact (List.prefix_cons_inj _).mpr h2
          · simp only [injectEntries, hroom, dif_pos, hac]
            intro hok
            rw [List.map_cons, List.map_cons, hd, h3 hok]
      · refine ⟨[], ?_, List.nil_prefix, ?_⟩
        · simp only [injectEntries, hroom, dif_neg, not_false_eq_true, List.append_nil]
        · simp only [injectEntries, hroom, dif_neg, not_false_eq_true]
          intro h
          cases h

/-! What the injections can do to DPDK is allocate and free: a property of its
    state that both keep is kept by them. -/

section Mempool

variable {Q : σ → Prop} (D : Dpdk σ)
variable (halloc : ∀ s, Q s → Q (D.pktmbufAlloc s).2)
variable (hfree : ∀ s m, Q s → Q (D.pktmbufFree s m))

include halloc hfree

theorem allocCopy_ffi (s : σ) (d : Frame) (hs : Q s) : Q (allocCopy D s d).2 := by
  have h1 := halloc s hs
  rw [allocCopy]
  split
  · rename_i heq
    rw [heq] at h1
    exact h1
  · rename_i heq
    rw [heq] at h1
    split
    · exact h1
    · exact hfree _ _ h1

theorem injectEntries_ffi (ourMac : MacAddress) (ourIp : Ipv4Addr) :
    ∀ (es : List (Σ _ : Ipv4Addr, MacAddress)) (batch : ArrayVec Mbuf 64) (s : σ),
      Q s → Q (injectEntries D ourMac ourIp es batch s).2.2 := by
  intro es
  induction es with
  | nil => intro batch s hs; exact hs
  | cons e es ih =>
      intro batch s hs
      obtain ⟨ip, mac⟩ := e
      have h1 := allocCopy_ffi D halloc hfree s
        (buildArpReplyForInjection ourMac ourIp mac ip) hs
      rw [injectEntries]
      split
      · split
        · rename_i heq
          rw [heq] at h1
          exact ih _ _ h1
        · rename_i heq
          rw [heq] at h1
          exact h1
      · exact hs

theorem injectRxPacket_ffi (dev : DpdkDevice) (s : σ) (d : Frame) (hs : Q s) :
    Q (injectRxPacket D dev s d).2.2 := by
  have h1 := allocCopy_ffi D halloc hfree s d hs
  rw [injectRxPacket]
  split
  · split
    · rename_i heq
      rw [heq] at h1
      exact h1
    · rename_i heq
      rw [heq] at h1
      exact h1
  · exact hs

end Mempool

/-- Injecting a packet touches nothing of the device but the receive batch. -/
theorem injectRxPacket_fst (D : Dpdk σ) (dev : DpdkDevice) (s : σ) (d : Frame) :
    ∃ batch : ArrayVec Mbuf 64,
      (injectRxPacket D dev s d).2.1 = { dev with rxBatch := batch } := by
  rw [injectRxPacket]
  split
  · split
    · exact ⟨_, rfl⟩
    · exact ⟨dev.rxBatch, rfl⟩
  · exact ⟨dev.rxBatch, rfl⟩

/-- The device and world of a `receive` just before it takes a packet. -/
def prepared (D : Dpdk σ) (H : Hasher) (dev : DpdkDevice) (w : World σ) :
    DpdkDevice × World σ :=
  injectFromSharedCache D (pollRx D H dev w).1 (pollRx D H dev w).2

/-- Receive takes the packet at the BACK of the batch. -/
theorem receive_spec (D : Dpdk σ) (H : Hasher) (dev : DpdkDevice) (w : World σ) :
    ∃ batch : ArrayVec Mbuf 64,
      batch.toList = (prepared D H dev w).1.rxBatch.toList.dropLast ∧
      receive D H dev w =
        ((prepared D H dev w).1.rxBatch.toList.getLast?,
          { (prepared D H dev w).1 with rxBatch := batch }, (prepared D H dev w).2) := by
  show ∃ batch : ArrayVec Mbuf 64, _ ∧
    (match (prepared D H dev w).1.rxBatch.pop with
      | some (m, batch) =>
          (some m, { (prepared D H dev w).1 with rxBatch := batch }, (prepared D H dev w).2)
      | none => (none, prepared D H dev w)) = _
  cases hpop : (prepared D H dev w).1.rxBatch.pop with
  | none =>
      have hnil := ArrayVec.pop_eq_none.mp hpop
      refine ⟨(prepared D H dev w).1.rxBatch, ?_, ?_⟩
      · rw [hnil]
        rfl
      · rw [hnil]
        rfl
  | some p =>
      obtain ⟨m, batch⟩ := p
      have hl := ArrayVec.toList_of_pop hpop
      refine ⟨batch, ?_, ?_⟩
      · rw [hl, List.dropLast_concat]
      · rw [hl, List.getLast?_concat]

/-- Consuming a token without a panic: either there was no mbuf and nothing
    happens to the device, or the frame written is appended to the batch. -/
theorem consume_ok {D : Dpdk σ} {dev : DpdkDevice} {s : σ} {len : Nat} {f : SliceWriter}
    {r : Option Frame × DpdkDevice × σ} (h : consume D dev s len f = .ok r) :
    (∃ s', D.pktmbufAlloc s = (none, s') ∧ r = (none, dev, s')) ∨
    (∃ m s' batch, D.pktmbufAlloc s = (some m, s') ∧
      batch.toList = dev.txBatch.toList ++ [(m.extend len).writeData f] ∧
      r = (some (f.write (m.extend len).data), { dev with txBatch := batch }, s')) := by
  rcases ha : D.pktmbufAlloc s with ⟨_ | m, s'⟩
  · simp only [consume, ha] at h
    exact Or.inl ⟨s', rfl, (Except.ok.inj h).symm⟩
  · simp only [consume, ha] at h
    split at h
    · rename_i batch hp
      exact Or.inr ⟨m, s', batch, rfl, (ArrayVec.toList_of_tryPush hp).1,
        (Except.ok.inj h).symm⟩
    · cases h

end DpdkDevice

end DpdkNet
