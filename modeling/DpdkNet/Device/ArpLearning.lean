import DpdkNet.Device.RxOrder

/-! # What queue 0 learns

    Queue 0 scans every burst once, when it refills its empty receive batch with
    it.  So the shared map is what the ARP replies among all frames that the RX
    queue has returned say, a later one overriding an earlier one for the same
    address, and the version counts them.  Frames injected with
    `inject_rx_packet` are in the batch but never scanned. -/

namespace DpdkNet

open DpdkDevice Runs

variable {σ : Type}

/-! ## Last writer wins -/

/-- A later MAC for an address replaces an earlier one. -/
def learn (m : Ipv4Addr → Option MacAddress) (e : Ipv4Addr × MacAddress) :
    Ipv4Addr → Option MacAddress :=
  Function.update m e.1 (some e.2)

/-- The pairs that the ARP replies among some frames announce. -/
def repliesIn (frames : List Frame) : List (Ipv4Addr × MacAddress) := frames.filterMap parseArpReply

/-- What they say in the end. -/
def summary (frames : List Frame) : Ipv4Addr → Option MacAddress :=
  (repliesIn frames).foldl learn (fun _ => none)

/-- The frames that the RX queue has returned, in the order of their arrival. -/
def Sys.rxFrames (s : Sys (σ × DriverLog)) : List Frame :=
  s.world.ffi.2.bursts.flatten.map Mbuf.data

theorem summary_append (fs gs : List Frame) :
    summary (fs ++ gs) = (repliesIn gs).foldl learn (summary fs) := by
  rw [summary, repliesIn, List.filterMap_append, List.foldl_append]
  rfl

/-! ## One burst -/

/-- An insertion, with or without the shortcut for an unchanged MAC. -/
theorem get_insert (H : Hasher) (c : SharedArpCache) (ip : Ipv4Addr) (mac : MacAddress) :
    (c.insert H ip mac).get = learn c.get (ip, mac) := by
  funext a
  rw [SharedArpCache.insert]
  split
  · rename_i hsame
    rw [learn, Function.update_apply]
    split
    · rename_i ha
      rw [ha]
      exact hsame
    · rfl
  · show (H.layout (c.inner.insert ip mac)).lookup a = _
    rw [AList.perm_lookup (H.perm _), learn, Function.update_apply]
    split
    · rename_i ha
      rw [ha, AList.lookup_insert]
    · rename_i ha
      rw [AList.lookup_insert_ne ha]
      rfl

/-- **THE SCAN** of a burst: the map learns its replies in order, and the version
    counts them. -/
theorem scanArpReplies_spec (H : Hasher) :
    ∀ (burst : List Mbuf) (c : SharedArpCache),
      (scanArpReplies H c burst).get = (repliesIn (burst.map Mbuf.data)).foldl learn c.get ∧
      (scanArpReplies H c burst).version
        = c.version + UInt64.ofNat (repliesIn (burst.map Mbuf.data)).length := by
  intro burst
  induction burst with
  | nil =>
      intro c
      exact ⟨rfl, (UInt64.add_zero _).symm⟩
  | cons m burst ih =>
      intro c
      rw [scanArpReplies, List.foldl_cons, List.map_cons, repliesIn, List.filterMap_cons]
      cases hparse : parseArpReply m.data with
      | none => exact ih c
      | some e =>
          obtain ⟨ip, mac⟩ := e
          obtain ⟨hget, hversion⟩ := ih (c.insert H ip mac)
          refine ⟨?_, ?_⟩
          · rw [get_insert] at hget
            exact hget
          · rw [SharedArpCache.version_insert, UInt64.add_assoc, UInt64.add_comm 1] at hversion
            rw [List.length_cons, UInt64.ofNat_add]
            exact hversion

/-! ## Runs -/

/-- The cache says what the RX queue has returned. -/
structure Sys.Learned (s : Sys (σ × DriverLog)) : Prop where
  queue : s.dev.queueId = 0
  cache : s.dev.sharedArpCache = true
  map : s.world.arp.get = summary s.rxFrames
  version : s.world.arp.version = UInt64.ofNat (repliesIn s.rxFrames).length

/-- A step that leaves the cache alone and polls nothing. -/
theorem Sys.Learned.of_same {s u : Sys (σ × DriverLog)} (hs : s.Learned)
    (harp : u.world.arp = s.world.arp) (hcfg : u.dev.config = s.dev.config)
    (hlog : u.world.ffi.2.bursts = s.world.ffi.2.bursts) : u.Learned := by
  have hframes : u.rxFrames = s.rxFrames := by rw [rxFrames, rxFrames, hlog]
  have hq : u.dev.queueId = s.dev.queueId := congrArg Prod.fst hcfg
  have hc : u.dev.sharedArpCache = s.dev.sharedArpCache := congrArg (fun c => c.2.1) hcfg
  refine ⟨hq.trans hs.queue, hc.trans hs.cache, ?_, ?_⟩
  · rw [harp, hframes]
    exact hs.map
  · rw [harp, hframes]
    exact hs.version

/-- A step that polls a burst and scans it. -/
theorem Sys.Learned.of_burst {H : Hasher} {s u : Sys (σ × DriverLog)} (hs : s.Learned)
    {burst : List Mbuf} (harp : u.world.arp = scanArpReplies H s.world.arp burst)
    (hcfg : u.dev.config = s.dev.config)
    (hlog : u.world.ffi.2.bursts = s.world.ffi.2.bursts ++ [burst]) : u.Learned := by
  have hframes : u.rxFrames = s.rxFrames ++ burst.map Mbuf.data := by
    rw [rxFrames, rxFrames, hlog, List.flatten_append, List.flatten_singleton, List.map_append]
  have hq : u.dev.queueId = s.dev.queueId := congrArg Prod.fst hcfg
  have hc : u.dev.sharedArpCache = s.dev.sharedArpCache := congrArg (fun c => c.2.1) hcfg
  obtain ⟨hget, hversion⟩ := scanArpReplies_spec H burst s.world.arp
  refine ⟨hq.trans hs.queue, hc.trans hs.cache, ?_, ?_⟩
  · rw [harp, hget, hs.map, hframes, summary_append]
  · rw [harp, hversion, hs.version, hframes, repliesIn, repliesIn, repliesIn,
      List.filterMap_append, List.length_append, UInt64.ofNat_add]

/-- Receiving on queue 0: the batch is not empty and nothing is polled, or a burst
    is polled and scanned. -/
theorem receive_queueZero (D : Dpdk σ) (H : Hasher) {dev : DpdkDevice}
    (w : World (σ × DriverLog)) (hq : dev.queueId = 0) (hc : dev.sharedArpCache = true) :
    ((DpdkDevice.receive D.recorded H dev w).2.2.arp = w.arp ∧
      (DpdkDevice.receive D.recorded H dev w).2.2.ffi.2.bursts = w.ffi.2.bursts) ∨
    ∃ burst, (DpdkDevice.receive D.recorded H dev w).2.2.arp = scanArpReplies H w.arp burst ∧
      (DpdkDevice.receive D.recorded H dev w).2.2.ffi.2.bursts = w.ffi.2.bursts ++ [burst] := by
  have hflush := (flushTx_rx D dev w.ffi).2.2
  obtain ⟨batch, -, hrecv⟩ := receive_spec D.recorded H dev w
  rw [hrecv, prepared_noArpInjection D.recorded H w (Or.inl hq)]
  by_cases h : dev.rxBatch.toList = []
  · obtain ⟨batch', -, heq⟩ := pollRx_of_nil D.recorded H w h
    refine Or.inr ⟨(nextBurst D.recorded dev w.ffi).1, ?_, ?_⟩
    · rw [heq]
      exact if_pos ⟨hc, hq⟩
    · rw [heq]
      show (DpdkDevice.flushTx D.recorded dev w.ffi).2.2.bursts ++ [_] = w.ffi.2.bursts ++ [_]
      rw [hflush]
      rfl
  · rw [pollRx_of_ne_nil D.recorded H w h]
    exact Or.inl ⟨rfl, hflush⟩

/-- **ONE STEP** of queue 0, nobody else writing to the cache. -/
theorem Sys.learned_step (D : Dpdk σ) (H : Hasher) (s : Sys (σ × DriverLog)) (op : DevOp)
    (s' : Sys (σ × DriverLog)) (hs : s.Learned) (hop : ∀ ip mac, op ≠ .arpInsert ip mac)
    (h : s.step D.recorded H op = .ok s') : s'.Learned := by
  have hnext := Sys.step_ok h
  cases op with
  | receive =>
      obtain ⟨-, rfl⟩ := hnext
      have hcfg := (receive_fst D.recorded H s.dev s.world).2
      rcases receive_queueZero D H s.world hs.queue hs.cache with ⟨harp, hlog⟩ | ⟨burst, harp, hlog⟩
      · exact hs.of_same harp hcfg hlog
      · exact hs.of_burst harp hcfg hlog
  | transmit =>
      obtain ⟨-, rfl⟩ := hnext
      exact hs.of_same rfl (transmit_rx D s.dev s.world.ffi).2.1 (transmit_rx D s.dev s.world.ffi).2.2
  | consumeTx len f =>
      obtain ⟨-, r, hr, rfl⟩ := hnext
      exact hs.of_same rfl (consume_rx hr).2.1 (consume_rx hr).2.2
  | dropTx =>
      obtain ⟨-, rfl⟩ := hnext
      exact hs.of_same rfl rfl rfl
  | releaseRx i =>
      obtain ⟨m, -, rfl⟩ := hnext
      exact hs.of_same rfl rfl rfl
  | flushTx =>
      obtain ⟨-, rfl⟩ := hnext
      exact hs.of_same rfl (flushTx_rx D s.dev s.world.ffi).2.1 (flushTx_rx D s.dev s.world.ffi).2.2
  | injectRxPacket d =>
      obtain ⟨-, rfl⟩ := hnext
      refine hs.of_same rfl ?_ ?_
      · obtain ⟨batch, hb⟩ := injectRxPacket_fst D.recorded s.dev s.world.ffi d
        show (DpdkDevice.injectRxPacket D.recorded s.dev s.world.ffi d).2.1.config = _
        rw [hb]
        rfl
      · exact injectRxPacket_ffi D.recorded 
          (Q := fun x : σ × DriverLog => x.2.bursts = s.world.ffi.2.bursts)
          (fun _ hx => hx) (fun _ _ hx => hx) s.dev s.world.ffi d rfl
  | arpInsert ip mac => exact absurd rfl (hop ip mac)

/-- **THE CACHE IS THE SUMMARY OF THE TRAFFIC**: after every run of queue 0 from a
    new cache, the map is that of the ARP replies the RX queue has returned, and
    the version their number modulo `2^64`. -/
theorem cache_summarises_traffic (D : Dpdk σ) (H : Hasher) (dev : DpdkDevice) (ffi : σ)
    (hq : dev.queueId = 0) (hc : dev.sharedArpCache = true) (ops : List DevOp)
    (hops : ∀ ip mac, DevOp.arpInsert ip mac ∉ ops) (t : Sys (σ × DriverLog))
    (hrun : run (Sys.step D.recorded H) (Sys.start dev ⟨(ffi, ⟨[], []⟩), .new⟩) ops = .ok t) :
    t.world.arp.get = summary (t.world.ffi.2.bursts.flatten.map Mbuf.data) ∧
      t.world.arp.version.toNat
        = (repliesIn (t.world.ffi.2.bursts.flatten.map Mbuf.data)).length % 2 ^ 64 := by
  have hstart : (Sys.start dev ⟨(ffi, ⟨[], []⟩), .new⟩ : Sys (σ × DriverLog)).Learned :=
    ⟨hq, hc, rfl, rfl⟩
  have hown : ∀ op ∈ ops, ∀ ip mac, op ≠ .arpInsert ip mac := by
    rintro op hop ip mac rfl
    exact hops ip mac hop
  have ht := run_invariant_along (P := fun _ op => ∀ ip mac, op ≠ .arpInsert ip mac)
    (Sys.learned_step D H) ops _ t hstart (along_of_forall_mem ops _ hown) hrun
  refine ⟨ht.map, ?_⟩
  rw [ht.version, UInt64.toNat_ofNat']
  rfl

/-- Queue 0 with a shared cache. -/
def queueZero : DpdkDevice :=
  DpdkDevice.standard.withSharedArpCache 0 ⟨1, 1, 1, 1, 1, 1⟩ ⟨10, 0, 0, 1⟩

/-- An mbuf with an ARP reply of 10.0.0.2. -/
def replyMbuf (last : UInt8) : Mbuf :=
  ⟨0, buildArpReplyForInjection ⟨1, 1, 1, 1, 1, 1⟩ ⟨10, 0, 0, 1⟩ ⟨2, 2, 2, 2, 2, last⟩ ⟨10, 0, 0, 2⟩, 42, 42⟩

/-- A driver that has two replies for every poll, and small mbufs. -/
def replyNic : Dpdk Unit :=
  { scriptedNic [replyMbuf 7, replyMbuf 8] 0 with
    pktmbufAlloc := fun s => (some (smallMbuf 0), s)
    alloc_reset := fun s m h => by
      cases h
      exact ⟨rfl, rfl⟩ }

/-- A burst of two replies, then an injected one: the second is in the map, and
    two have been counted. -/
theorem two_replies_learned :
    ∃ t, run (Sys.step replyNic.recorded Hasher.id)
        (Sys.start queueZero ⟨((), ⟨[], []⟩), .new⟩)
        [.receive, .dropTx, .injectRxPacket (replyMbuf 9).data, .receive, .dropTx, .receive] = .ok t ∧
      t.handed.map Mbuf.data = [(replyMbuf 8).data, (replyMbuf 9).data, (replyMbuf 7).data] ∧
      t.world.arp.get = summary (t.world.ffi.2.bursts.flatten.map Mbuf.data) ∧
      t.world.arp.get ⟨10, 0, 0, 2⟩ = some ⟨2, 2, 2, 2, 2, 8⟩ ∧ t.world.arp.version = 2 := by
  refine ⟨_, rfl, rfl, ?_, rfl, rfl⟩
  exact (cache_summarises_traffic replyNic Hasher.id queueZero () rfl rfl
    [.receive, .dropTx, .injectRxPacket (replyMbuf 9).data, .receive, .dropTx, .receive]
    (by simp) _ rfl).1

end DpdkNet
