import DpdkNet.Device.ArpInjection
import DpdkNet.Device.RxOrder

/-! # Does a consumer queue agree with the shared cache?

    smoltcp keeps the last reply it sees for an address.  A consumer is in step
    when its `last_cache_version` is the version of the cache and its batch is
    drained; does its neighbour table then agree with the map?

    The batch is a stack, so a reply buffered EARLIER is handed out LATER.  What
    counts is therefore the list `rxView` of the packets handed out followed by
    the batch from its top: for an address of the map, the last reply in that
    list must carry the MAC of the map.  An injection puts the current replies
    on top of whatever is buffered, so they come out first, and a reply buffered
    before that has gone stale meanwhile comes out after them. -/

namespace DpdkNet

open DpdkDevice Runs

variable {σ : Type}

/-! ## The last reply wins -/

/-- The MAC a frame announces for `ip`, if it is an ARP reply for it. -/
def replyFor (ip : Ipv4Addr) (f : Frame) : Option MacAddress :=
  (parseArpReply f).bind fun r => if r.1 = ip then some r.2 else none

/-- The MAC that the last reply for `ip` announces: what a neighbour table holds
    after these frames. -/
def lastReply (ip : Ipv4Addr) (fs : List Frame) : Option MacAddress :=
  (fs.filterMap (replyFor ip)).getLast?

theorem lastReply_append (ip : Ipv4Addr) (fs gs : List Frame) :
    lastReply ip (fs ++ gs) = (lastReply ip gs).or (lastReply ip fs) := by
  rw [lastReply, List.filterMap_append, List.getLast?_append]
  rfl

/-- Read from the top of the stack, the last reply is the one buffered first. -/
theorem lastReply_reverse (ip : Ipv4Addr) (fs : List Frame) :
    lastReply ip fs.reverse = fs.findSome? (replyFor ip) := by
  rw [lastReply, List.filterMap_reverse, List.getLast?_reverse, List.head?_filterMap]

/-- Frames that are no ARP replies do not count. -/
theorem lastReply_of_quiet (ip : Ipv4Addr) {fs : List Frame}
    (h : ∀ f ∈ fs, parseArpReply f = none) : lastReply ip fs = none := by
  have hnil : fs.filterMap (replyFor ip) = [] := by
    rw [List.filterMap_eq_nil_iff]
    intro f hf
    rw [replyFor, h f hf]
    rfl
  rw [lastReply, hnil]
  rfl

theorem replyFor_entryFrame (ip : Ipv4Addr) (ourMac : MacAddress) (ourIp : Ipv4Addr)
    (e : Σ _ : Ipv4Addr, MacAddress) :
    replyFor ip (entryFrame ourMac ourIp e) = if e.1 = ip then some e.2 else none := by
  rw [replyFor, entryFrame, parseArpReply_build]
  rfl

/-- The frames of a whole map announce for each of its addresses the MAC it
    has, in whatever order they stand. -/
theorem lastReply_snapshot {m : ArpMap} {ip : Ipv4Addr} {mac : MacAddress}
    (h : m.lookup ip = some mac) (ourMac : MacAddress) (ourIp : Ipv4Addr) {fs : List Frame}
    (hfs : ∀ f, f ∈ fs ↔ f ∈ m.entries.map (entryFrame ourMac ourIp)) :
    lastReply ip fs = some mac := by
  have hmem : (⟨ip, mac⟩ : Σ _ : Ipv4Addr, MacAddress) ∈ m.entries := AList.mem_lookup_iff.mp h
  -- every reply for `ip` comes from the one entry of `ip`
  have hall : ∀ x ∈ fs.filterMap (replyFor ip), x = mac := by
    intro x hx
    obtain ⟨f, hf, hfx⟩ := List.mem_filterMap.mp hx
    obtain ⟨e, he, rfl⟩ := List.mem_map.mp ((hfs f).mp hf)
    rw [replyFor_entryFrame] at hfx
    split at hfx
    · rename_i hip
      cases hfx
      obtain ⟨ip', mac'⟩ := e
      subst hip
      exact Option.some.inj ((AList.mem_lookup_iff.mpr he).symm.trans h)
    · cases hfx
  have hsome : mac ∈ fs.filterMap (replyFor ip) := by
    refine List.mem_filterMap.mpr ⟨entryFrame ourMac ourIp ⟨ip, mac⟩, ?_, ?_⟩
    · exact (hfs _).mpr (List.mem_map.mpr ⟨_, hmem, rfl⟩)
    · rw [replyFor_entryFrame]
      exact if_pos rfl
  obtain ⟨x, hx⟩ := Option.isSome_iff_exists.mp
    (List.getLast?_isSome.mpr (List.ne_nil_of_mem hsome))
  rw [lastReply, hx, hall x (List.mem_of_getLast? hx)]

/-! ## One call on a consumer -/

/-- **RECEIVE ON A CONSUMER**: `ms` is what the call injects above the polled
    batch.  The version moves only with a whole snapshot injected. -/
theorem receive_injects (D : Dpdk σ) (H : Hasher) {dev : DpdkDevice} (w : World σ)
    (hq : dev.queueId ≠ 0) (hc : dev.sharedArpCache = true) :
    ∃ ms : List Mbuf,
      (receive D H dev w).1.toList ++ (receive D H dev w).2.1.rxBatch.toList.reverse
          = ms.reverse ++ (polledBatch D dev w.ffi).reverse ∧
      (receive D H dev w).2.2.arp = w.arp ∧
      ((w.arp.version = dev.lastCacheVersion ∧ ms = []) ∨
        (w.arp.version ≠ dev.lastCacheVersion ∧
          (receive D H dev w).2.1.lastCacheVersion = dev.lastCacheVersion) ∨
        (w.arp.version ≠ dev.lastCacheVersion ∧
          (polledBatch D dev w.ffi).length + w.arp.inner.entries.length ≤ 64 ∧
          ∃ ourMac ourIp, ms.map Mbuf.data = w.arp.inner.entries.map (entryFrame ourMac ourIp))) := by
  obtain ⟨hpolled, -, -, -, harp⟩ := pollRx_consumer D H w hq
  obtain ⟨batch, hb, hrecv⟩ := receive_spec D H dev w
  rw [hrecv]
  simp only [hb, ArrayVec.getLast?_append_reverse_dropLast]
  by_cases hv : w.arp.version = dev.lastCacheVersion
  · rw [prepared_of_current D H hq hv, hpolled]
    exact ⟨[], rfl, harp, Or.inl ⟨hv, rfl⟩⟩
  · obtain ⟨ourMac, ourIp, hbatch, hversion, -, -, harp'⟩ := prepared_of_behind D H hq hc hv
    obtain ⟨ms, hms, -, hall⟩ := injectEntries_spec D ourMac ourIp w.arp.inner.entries
      (pollRx D H dev w).1.rxBatch (pollRx D H dev w).2.ffi
    have hroom := (injectEntries D ourMac ourIp w.arp.inner.entries
      (pollRx D H dev w).1.rxBatch (pollRx D H dev w).2.ffi).2.1.length_le
    rw [hms, hpolled] at hroom
    refine ⟨ms, ?_, harp', Or.inr ?_⟩
    · rw [hbatch, hms, hpolled, List.reverse_append]
    · rw [hversion]
      by_cases hdone : (injectEntries D ourMac ourIp w.arp.inner.entries
          (pollRx D H dev w).1.rxBatch (pollRx D H dev w).2.ffi).1 = true
      · refine Or.inr ⟨hv, ?_, ourMac, ourIp, hall hdone⟩
        have hlen := congrArg List.length (hall hdone)
        rw [List.length_map, List.length_map] at hlen
        rw [List.length_append] at hroom
        omega
      · rw [if_neg hdone]
        exact Or.inl ⟨hv, rfl⟩

/-! ## Whole runs -/

/-- Nothing goes wrong in this step: an insert does not wrap the version around
    to the one the consumer saw last, and where a whole snapshot is about to be
    injected, the reply buffered first for an address of the map is current. -/
def Sys.NoStaleReply (s : Sys σ) : DevOp → Prop
  | .arpInsert _ _ => s.world.arp.version + 1 ≠ s.dev.lastCacheVersion
  | .receive =>
      s.world.arp.version ≠ s.dev.lastCacheVersion →
      s.dev.rxBatch.len + s.world.arp.inner.entries.length ≤ 64 →
      ∀ ip mac mac', s.world.arp.get ip = some mac →
        (s.dev.rxBatch.toList.map Mbuf.data).findSome? (replyFor ip) = some mac' → mac' = mac
  | _ => True

/-- An empty batch holds no reply. -/
theorem Sys.noStaleReply_of_empty {s : Sys σ} (h : s.dev.rxBatch.toList = []) :
    s.NoStaleReply .receive := by
  intro _ _ ip mac mac' _ hf
  rw [h] at hf
  cases hf

/-- The invariant: a consumer in step with the version has, handed out or still
    to hand out, the current reply last. -/
structure Sys.Converging (s : Sys σ) : Prop where
  consumer : s.dev.queueId ≠ 0
  shared : s.dev.sharedArpCache = true
  agrees : s.dev.lastCacheVersion = s.world.arp.version → ∀ ip mac,
    s.world.arp.get ip = some mac → lastReply ip (s.rxView.map Mbuf.data) = some mac

theorem transmit_fst (D : Dpdk σ) (dev : DpdkDevice) (s : σ) :
    ∃ batch, (DpdkDevice.transmit D dev s).2.1 = { dev with txBatch := batch } := by
  rw [DpdkDevice.transmit]
  split
  · exact ⟨_, rfl⟩
  · exact ⟨_, flushTx_fst D dev s⟩

/-- Operations on the transmit side keep the invariant. -/
theorem Sys.Converging.of_txBatch {s u : Sys σ} (hs : s.Converging)
    (hdev : ∃ batch, u.dev = { s.dev with txBatch := batch }) (harp : u.world.arp = s.world.arp)
    (hh : u.handed = s.handed) : u.Converging := by
  obtain ⟨batch, hdev⟩ := hdev
  refine ⟨?_, ?_, ?_⟩
  · rw [hdev]
    exact hs.consumer
  · rw [hdev]
    exact hs.shared
  · rw [Sys.rxView, hdev, harp, hh]
    exact hs.agrees

/-- A receive keeps it when no stale reply is buffered. -/
theorem Sys.converging_receive {D : Dpdk σ} (H : Hasher)
    (hquiet : ∀ s n, ∀ m ∈ (D.ethRxBurst s n).1, parseArpReply m.data = none) {s : Sys σ}
    (hs : s.Converging) (hno : s.NoStaleReply .receive)
    (hv' : (DpdkDevice.receive D H s.dev s.world).2.1.lastCacheVersion = s.world.arp.version)
    (ip : Ipv4Addr) (mac : MacAddress) (hget : s.world.arp.get ip = some mac) :
    lastReply ip ((s.handed ++ (DpdkDevice.receive D H s.dev s.world).1.toList
      ++ (DpdkDevice.receive D H s.dev s.world).2.1.rxBatch.toList.reverse).map Mbuf.data)
      = some mac := by
  obtain ⟨ms, hout, -, hcase⟩ := receive_injects D H s.world hs.consumer hs.shared
  rw [List.append_assoc, hout]
  -- a refill brings no replies
  have hburst : s.dev.rxBatch.toList = [] →
      ∀ f ∈ (polledBatch D s.dev s.world.ffi).map Mbuf.data, parseArpReply f = none := by
    intro hnil f hf
    rw [polledBatch, if_pos hnil] at hf
    obtain ⟨m, hm, rfl⟩ := List.mem_map.mp hf
    exact hquiet _ _ m hm
  have hkept : s.dev.rxBatch.toList ≠ [] →
      polledBatch D s.dev s.world.ffi = s.dev.rxBatch.toList := fun h => if_neg h
  obtain ⟨hv, rfl⟩ | ⟨hv, hlast⟩ | ⟨hv, hroom, ourMac, ourIp, hms⟩ := hcase
  · -- nothing injected
    have hagree := hs.agrees hv.symm ip mac hget
    by_cases hnil : s.dev.rxBatch.toList = []
    · rw [Sys.rxView, hnil, List.reverse_nil, List.append_nil] at hagree
      rw [List.reverse_nil, List.nil_append, List.map_append, lastReply_append,
        List.map_reverse, lastReply_of_quiet ip, hagree]
      · rfl
      · intro f hf
        exact hburst hnil f (List.mem_reverse.mp hf)
    · rw [hkept hnil]
      exact hagree
  · exact absurd (hv'.symm.trans hlast) hv
  · -- the whole snapshot injected above the polled batch
    have hsnap : lastReply ip (ms.reverse.map Mbuf.data) = some mac := by
      refine lastReply_snapshot hget ourMac ourIp fun f => ?_
      rw [List.map_reverse, hms, List.mem_reverse]
    rw [List.map_append, List.map_append, lastReply_append, lastReply_append, hsnap]
    by_cases hnil : s.dev.rxBatch.toList = []
    · rw [List.map_reverse, lastReply_of_quiet ip]
      · rfl
      · intro f hf
        exact hburst hnil f (List.mem_reverse.mp hf)
    · rw [hkept hnil] at hroom ⊢
      rw [List.map_reverse, lastReply_reverse]
      cases hfirst : (s.dev.rxBatch.toList.map Mbuf.data).findSome? (replyFor ip) with
      | none => rfl
      | some mac' =>
          rw [hno hv hroom ip mac mac' hget hfirst]
          rfl

/-- **ONE STEP** keeps the invariant unless it buries a stale reply. -/
theorem Sys.converging_step {D : Dpdk σ} (H : Hasher)
    (hquiet : ∀ s n, ∀ m ∈ (D.ethRxBurst s n).1, parseArpReply m.data = none) (s : Sys σ)
    (op : DevOp) (s' : Sys σ) (hs : s.Converging) (hop : op.notInject ∧ s.NoStaleReply op)
    (h : s.step D H op = .ok s') : s'.Converging := by
  have hnext := Sys.step_ok h
  cases op with
  | receive =>
      obtain ⟨-, rfl⟩ := hnext
      obtain ⟨-, -, harp, -⟩ := receive_injects D H s.world hs.consumer hs.shared
      have hcfg := (receive_fst D H s.dev s.world).2
      have hq : (DpdkDevice.receive D H s.dev s.world).2.1.queueId = s.dev.queueId :=
        congrArg Prod.fst hcfg
      have hc : (DpdkDevice.receive D H s.dev s.world).2.1.sharedArpCache
        = s.dev.sharedArpCache := congrArg (fun c => c.2.1) hcfg
      refine ⟨by rw [hq]; exact hs.consumer, hc.trans hs.shared, ?_⟩
      show (DpdkDevice.receive D H s.dev s.world).2.1.lastCacheVersion
        = (DpdkDevice.receive D H s.dev s.world).2.2.arp.version → ∀ ip mac,
        (DpdkDevice.receive D H s.dev s.world).2.2.arp.get ip = some mac → _
      rw [harp]
      exact Sys.converging_receive H hquiet hs hop.2
  | transmit =>
      obtain ⟨-, rfl⟩ := hnext
      exact hs.of_txBatch (transmit_fst D s.dev s.world.ffi) rfl rfl
  | consumeTx len f =>
      obtain ⟨-, r, hr, rfl⟩ := hnext
      obtain ⟨s', -, rfl⟩ | ⟨m, s', batch, -, -, rfl⟩ := consume_ok hr
      · exact hs.of_txBatch ⟨_, rfl⟩ rfl rfl
      · exact hs.of_txBatch ⟨batch, rfl⟩ rfl rfl
  | dropTx =>
      obtain ⟨-, rfl⟩ := hnext
      exact hs.of_txBatch ⟨_, rfl⟩ rfl rfl
  | releaseRx i =>
      obtain ⟨m, -, rfl⟩ := hnext
      exact hs.of_txBatch ⟨_, rfl⟩ rfl rfl
  | flushTx =>
      obtain ⟨-, rfl⟩ := hnext
      exact hs.of_txBatch ⟨_, flushTx_fst D s.dev s.world.ffi⟩ rfl rfl
  | injectRxPacket d => exact hop.1.elim
  | arpInsert ip mac =>
      obtain rfl := hnext
      refine ⟨hs.consumer, hs.shared, ?_⟩
      intro hlast
      rw [SharedArpCache.version_insert] at hlast
      exact absurd hlast.symm hop.2

/-- **WHEN A CONSUMER AGREES WITH THE MAP**: in every run in which no snapshot
    is injected on top of a stale reply and the version does not wrap around to
    the one seen last, a drained consumer whose version is current has been
    told, last, exactly what the map says. -/
theorem drained_consumer_agrees (D : Dpdk σ) (H : Hasher)
    (hquiet : ∀ s n, ∀ m ∈ (D.ethRxBurst s n).1, parseArpReply m.data = none)
    (dev : DpdkDevice) (hq : dev.queueId ≠ 0) (hc : dev.sharedArpCache = true) (s : σ)
    (ops : List DevOp) (hops : ∀ op ∈ ops, op.notInject)
    (hfresh : Along (Sys.step D H) Sys.NoStaleReply (Sys.start dev ⟨s, .new⟩) ops)
    (t : Sys σ) (hrun : run (Sys.step D H) (Sys.start dev ⟨s, .new⟩) ops = .ok t)
    (hdrained : t.dev.rxBatch.toList = [])
    (hversion : t.dev.lastCacheVersion = t.world.arp.version) :
    ∀ ip mac, t.world.arp.get ip = some mac →
      lastReply ip (t.handed.map Mbuf.data) = some mac := by
  have hstart : (Sys.start dev ⟨s, .new⟩ : Sys σ).Converging := by
    refine ⟨hq, hc, ?_⟩
    intro _ ip mac hget
    cases hget
  have ht := run_invariant_along (Sys.converging_step H hquiet) ops _ t hstart
    ((along_of_forall_mem ops _ hops).and hfresh) hrun
  intro ip mac hget
  have hagree := ht.agrees hversion ip mac hget
  rw [Sys.rxView, hdrained, List.reverse_nil, List.append_nil] at hagree
  exact hagree

/-- Queue 1, configured as the runner does. -/
def queueOne : DpdkDevice :=
  DpdkDevice.standard.withSharedArpCache 1 ⟨2, 0, 0, 0, 0, 1⟩ ⟨10, 0, 0, 5⟩

/-- Two neighbours are learnt and injected; before the second reply is handed
    out its neighbour moves to a new MAC.  Drained and up to date, the consumer
    has been told the old MAC last. -/
theorem drained_consumer_keeps_stale_mac :
    ∃ t, run (Sys.step (poolNic 64) Hasher.id)
        (Sys.start queueOne ⟨⟨[1, 2, 3, 4, 5, 6], []⟩, .new⟩)
        [.arpInsert ⟨10, 0, 0, 1⟩ ⟨2, 0, 0, 0, 1, 1⟩, .arpInsert ⟨10, 0, 0, 2⟩ ⟨2, 0, 0, 0, 1, 2⟩,
          .receive, .dropTx, .arpInsert ⟨10, 0, 0, 2⟩ ⟨2, 0, 0, 0, 1, 3⟩,
          .receive, .dropTx, .receive, .dropTx, .receive] = .ok t ∧
      t.dev.rxBatch.toList = [] ∧ t.dev.lastCacheVersion = t.world.arp.version ∧
      t.world.arp.get ⟨10, 0, 0, 2⟩ = some ⟨2, 0, 0, 0, 1, 3⟩ ∧
      lastReply ⟨10, 0, 0, 2⟩ (t.handed.map Mbuf.data) = some ⟨2, 0, 0, 0, 1, 2⟩ := by
  refine ⟨_, rfl, rfl, rfl, rfl, rfl⟩

/-- A neighbour that moves while nothing is buffered: the consumer follows. -/
theorem drained_consumer_follows_move :
    ∃ t, run (Sys.step (poolNic 64) Hasher.id)
        (Sys.start queueOne ⟨⟨[1, 2, 3], []⟩, .new⟩)
        [.arpInsert ⟨10, 0, 0, 1⟩ ⟨2, 0, 0, 0, 1, 1⟩, .receive, .dropTx,
          .arpInsert ⟨10, 0, 0, 1⟩ ⟨2, 0, 0, 0, 1, 2⟩, .receive] = .ok t ∧
      lastReply ⟨10, 0, 0, 1⟩ (t.handed.map Mbuf.data) = some ⟨2, 0, 0, 0, 1, 2⟩ := by
  refine ⟨_, rfl, ?_⟩
  refine drained_consumer_agrees (poolNic 64) Hasher.id ?_ queueOne (by decide) rfl
    ⟨[1, 2, 3], []⟩ [.arpInsert ⟨10, 0, 0, 1⟩ ⟨2, 0, 0, 0, 1, 1⟩, .receive, .dropTx,
      .arpInsert ⟨10, 0, 0, 1⟩ ⟨2, 0, 0, 0, 1, 2⟩, .receive] (by simp [DevOp.notInject]) ?_ _ rfl
    rfl rfl ⟨10, 0, 0, 1⟩ ⟨2, 0, 0, 0, 1, 2⟩ rfl
  · -- the ring hands out empty packets
    intro s n m hm
    obtain ⟨p, -, rfl⟩ := List.mem_map.mp hm
    rfl
  · -- every snapshot is injected into an empty batch
    refine ⟨(by decide : (0 : UInt64) + 1 ≠ 0), fun _ h => ?_⟩
    cases h
    refine ⟨Sys.noStaleReply_of_empty rfl, fun _ h => ?_⟩
    cases h
    refine ⟨trivial, fun _ h => ?_⟩
    cases h
    refine ⟨(by decide : (1 : UInt64) + 1 ≠ 1), fun _ h => ?_⟩
    cases h
    exact ⟨Sys.noStaleReply_of_empty rfl, fun _ _ => trivial⟩

end DpdkNet
