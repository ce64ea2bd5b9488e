import DpdkNet.Lib.Tally
import DpdkNet.Device.ArpConvergence
import DpdkNet.Device.ArpLearning
import DpdkNet.Device.MbufOwnership

/-! # All queues of a port

    `DpdkServerRunner` gives every queue of the port a device of its own, on a
    thread of its own.  What the threads share is the mempool, from which every
    mbuf of every queue comes, and the ARP cache, which queue 0 fills from the
    packets it receives and from which the other queues inject replies.

    A `Port` is all of them together: the operations of `Sys` on any queue, in
    any interleaving, one call at a time.  (How the loads and stores of a single
    injection interleave with an insert is the subject of `ArpVersion`.)  Two
    things hold across all interleavings: no mbuf is lost or in two places, on
    one queue or on two, and every frame that smoltcp is handed has one origin. -/

namespace DpdkNet

open DpdkDevice Runs

variable {σ ι : Type}

/-- What a queue has for itself: a device in use, and the packets that
    `inject_rx_packet` has accepted. -/
structure Queue where
  dev : DpdkDevice
  rxTokens : List Mbuf
  txToken : Bool
  handed : List Mbuf
  written : List Frame
  injected : List Frame

/-- The queues and what they share. -/
structure Port (σ ι : Type) where
  world : World σ
  queue : ι → Queue

namespace Port

/-- The queues about to be used. -/
def start (dev : ι → DpdkDevice) (w : World σ) : Port σ ι where
  world := w
  queue q := ⟨dev q, [], false, [], [], []⟩

/-- The port as the thread of queue `q` sees it. -/
def sys (s : Port σ ι) (q : ι) : Sys σ where
  dev := (s.queue q).dev
  world := s.world
  rxTokens := (s.queue q).rxTokens
  txToken := (s.queue q).txToken
  handed := (s.queue q).handed
  written := (s.queue q).written

/-- The packet that a call puts into the receive batch. -/
def accepted (D : ι → Dpdk σ) (s : Port σ ι) (q : ι) : DevOp → List Frame
  | .injectRxPacket d =>
      if (injectRxPacket (D q) (s.queue q).dev s.world.ffi d).1 then [d] else []
  | _ => []

variable [DecidableEq ι]

/-- A call on queue `q` has gone through. -/
def put (s : Port σ ι) (q : ι) (t : Sys σ) (packets : List Frame) : Port σ ι where
  world := t.world
  queue := Function.update s.queue q
    ⟨t.dev, t.rxTokens, t.txToken, t.handed, t.written, (s.queue q).injected ++ packets⟩

/-- A call on one of the queues.  The cache is written by the `receive` of queue
    0 and by nothing else. -/
def step (D : ι → Dpdk σ) (H : Hasher) (s : Port σ ι) : ι × DevOp → Except Halt (Port σ ι)
  | (_, .arpInsert _ _) => .error .rejected
  | (q, op) =>
      match (s.sys q).step (D q) H op with
      | .ok t => .ok (s.put q t (s.accepted D q op))
      | .error e => .error e

theorem step_ok {D : ι → Dpdk σ} {H : Hasher} {s s' : Port σ ι} {q : ι} {op : DevOp}
    (h : s.step D H (q, op) = .ok s') :
    (∀ ip mac, op ≠ .arpInsert ip mac) ∧
      ∃ t, (s.sys q).step (D q) H op = .ok t ∧ s' = s.put q t (s.accepted D q op) := by
  have hcall : ∀ op : DevOp, (∀ ip mac, op ≠ .arpInsert ip mac) →
      s.step D H (q, op) = match (s.sys q).step (D q) H op with
        | .ok t => .ok (s.put q t (s.accepted D q op))
        | .error e => .error e := by
    intro op hop
    cases op with
    | arpInsert ip mac => exact absurd rfl (hop ip mac)
    | _ => rfl
  have hop : ∀ ip mac, op ≠ .arpInsert ip mac := by
    rintro ip mac rfl
    cases h
  rw [hcall op hop] at h
  split at h
  · exact ⟨hop, _, ‹_›, (Except.ok.inj h).symm⟩
  · cases h

@[simp] theorem queue_put_self (s : Port σ ι) (q : ι) (t : Sys σ) (packets : List Frame) :
    (s.put q t packets).queue q =
      ⟨t.dev, t.rxTokens, t.txToken, t.handed, t.written, (s.queue q).injected ++ packets⟩ :=
  Function.update_self _ _ _

theorem queue_put_ne (s : Port σ ι) {q r : ι} (t : Sys σ) (packets : List Frame) (h : r ≠ q) :
    (s.put q t packets).queue r = s.queue r :=
  Function.update_of_ne h _ _

/-- Queue `q` sees the state in which its call has left it. -/
@[simp] theorem sys_put_self (s : Port σ ι) (q : ι) (t : Sys σ) (packets : List Frame) :
    (s.put q t packets).sys q = t := by
  rw [sys, queue_put_self]
  rfl

end Port

/-! ## Mbufs -/

/-- The mbufs in the hands of a queue: the two batches and the tokens. -/
def Queue.mbufs (c : Queue) : List Mbuf :=
  c.dev.rxBatch.toList ++ c.dev.txBatch.toList ++ c.rxTokens

/-- The queues have one mempool and one NIC: their ledgers agree on what is free
    and on what the NIC has. -/
structure PortLedger (D : ι → Dpdk σ) where
  free : σ → Multiset Nat
  nic : σ → Multiset Nat
  ledger : ∀ q, Ledger (D q)
  free_eq : ∀ q, (ledger q).free = free
  nic_eq : ∀ q, (ledger q).nic = nic

namespace PortLedger

variable {D : ι → Dpdk σ} (L : PortLedger D)

/-- What queue `q` sees of the places the mbuf at address `p` is in. -/
theorem census_sys (p : Nat) (s : Port σ ι) (q : ι) :
    (L.ledger q).census p (s.sys q) =
      (L.free s.world.ffi).count p + (L.nic s.world.ffi).count p + held p (s.queue q).mbufs := by
  rw [Ledger.census, L.free_eq, L.nic_eq, Queue.mbufs, held_append, held_append]
  simp only [Port.sys]
  omega

variable [Fintype ι]

/-- The number of places it is in, over all queues. -/
def census (p : Nat) (s : Port σ ι) : Nat :=
  (L.free s.world.ffi).count p + (L.nic s.world.ffi).count p + ∑ q, held p (s.queue q).mbufs

/-- Everything in one multiset. -/
def places (s : Port σ ι) : Multiset Nat :=
  L.free s.world.ffi + L.nic s.world.ffi
    + ∑ q, (((s.queue q).mbufs.map Mbuf.inner : List Nat) : Multiset Nat)

theorem count_places (p : Nat) (s : Port σ ι) : (L.places s).count p = L.census p s := by
  rw [places, census, Multiset.count_add, Multiset.count_add, Multiset.count_sum']
  simp only [Multiset.coe_count]
  rfl

theorem census_add (p : Nat) (s : Port σ ι) (q : ι) :
    L.census p s + held p (s.queue q).mbufs =
      (L.ledger q).census p (s.sys q) + ∑ r, held p (s.queue r).mbufs := by
  rw [census, census_sys]
  omega

variable [DecidableEq ι]

/-- **ONE CALL** on one of the queues neither makes nor loses an mbuf. -/
theorem census_step (p : Nat) {H : Hasher} {s s' : Port σ ι} {a : ι × DevOp}
    (h : s.step D H a = .ok s') : L.census p s' = L.census p s := by
  obtain ⟨q, op⟩ := a
  obtain ⟨-, t, ht, rfl⟩ := Port.step_ok h
  have hown := (L.ledger q).census_step p ht
  have hbefore := L.census_add p s q
  have hafter := L.census_add p (s.put q t (s.accepted D q op)) q
  have hsum := Tally.sum_update (fun c : Queue => held p c.mbufs) s.queue q
    ((s.put q t (s.accepted D q op)).queue q)
  have hupdate : (s.put q t (s.accepted D q op)).queue
      = Function.update s.queue q ((s.put q t (s.accepted D q op)).queue q) := by
    rw [Port.queue_put_self]
    rfl
  rw [← hupdate] at hsum
  rw [Port.sys_put_self] at hafter
  omega

theorem census_run (p : Nat) {H : Hasher} {s t : Port σ ι} {ops : List (ι × DevOp)}
    (h : run (Port.step D H) s ops = .ok t) : L.census p t = L.census p s := by
  refine run_invariant (I := fun u => L.census p u = L.census p s) ?_ rfl h
  intro u a u' hu hstep
  exact (L.census_step p hstep).trans hu

theorem places_run {H : Hasher} {s t : Port σ ι} {ops : List (ι × DevOp)}
    (h : run (Port.step D H) s ops = .ok t) : L.places t = L.places s := by
  ext p
  rw [count_places, count_places, L.census_run p h]

end PortLedger

/-- **MBUFS OF ALL QUEUES**: start the queues with empty batches on a pool of
    distinct mbufs, all free or on the NIC.  After every interleaving of calls
    that does not panic each of them is in exactly one place, so no two queues
    hold the same one, and what is free, on the NIC or held by some queue adds up
    to the pool. -/
theorem port_mbufs_conserved [Fintype ι] [DecidableEq ι] (D : ι → Dpdk σ) (L : PortLedger D)
    (H : Hasher) (dev : ι → DpdkDevice) (w : World σ)
    (hrx : ∀ q, (dev q).rxBatch.toList = []) (htx : ∀ q, (dev q).txBatch.toList = [])
    (pool : Multiset Nat) (hpool : pool.Nodup) (hstart : L.free w.ffi + L.nic w.ffi = pool)
    (ops : List (ι × DevOp)) (t : Port σ ι)
    (hrun : run (Port.step D H) (Port.start dev w) ops = .ok t) :
    (∀ p ∈ pool, L.census p t = 1) ∧ (∀ p ∉ pool, L.census p t = 0) ∧
      (∀ q r, ∀ m ∈ (t.queue q).mbufs, ∀ n ∈ (t.queue r).mbufs, m.inner = n.inner → q = r) ∧
      (L.free t.world.ffi).card + (L.nic t.world.ffi).card
        + ∑ q, ((t.queue q).dev.rxBatch.len + (t.queue q).dev.txBatch.len
          + (t.queue q).rxTokens.length) = pool.card := by
  have hplaces : L.places t = pool := by
    have hnone : ∀ q, ((Port.start dev w : Port σ ι).queue q).mbufs = [] := by
      intro q
      show (dev q).rxBatch.toList ++ (dev q).txBatch.toList ++ [] = []
      rw [hrx, htx]
      rfl
    rw [L.places_run hrun, PortLedger.places, ← hstart]
    simp only [hnone]
    show _ + ∑ q : ι, (0 : Multiset Nat) = _
    rw [Finset.sum_const_zero, add_zero]
    rfl
  have hin : ∀ p ∈ pool, L.census p t = 1 := by
    intro p hp
    rw [← L.count_places, hplaces]
    exact Multiset.count_eq_one_of_mem hpool hp
  have hout : ∀ p ∉ pool, L.census p t = 0 := by
    intro p hp
    rw [← L.count_places, hplaces]
    exact Multiset.count_eq_zero_of_notMem hp
  refine ⟨hin, hout, ?_, ?_⟩
  · intro q r m hm n hn hmn
    by_contra hne
    have hq : 1 ≤ held m.inner (t.queue q).mbufs :=
      List.one_le_count_iff.mpr (List.mem_map_of_mem hm)
    have hr : 1 ≤ held m.inner (t.queue r).mbufs := by
      rw [hmn]
      exact List.one_le_count_iff.mpr (List.mem_map_of_mem hn)
    -- the two queues alone count it twice
    have htwo := Finset.add_le_sum (f := fun s => held m.inner (t.queue s).mbufs)
      (fun _ _ => Nat.zero_le _) (Finset.mem_univ q) (Finset.mem_univ r) hne
    have hle : L.census m.inner t ≤ 1 := by
      by_cases hp : m.inner ∈ pool
      · exact (hin _ hp).le
      · rw [hout _ hp]
        exact Nat.zero_le _
    rw [PortLedger.census] at hle
    omega
  · have hcard := congrArg Multiset.card hplaces
    rw [PortLedger.places, Multiset.card_add, Multiset.card_add, Multiset.card_sum] at hcard
    rw [← hcard]
    congr 1
    refine Finset.sum_congr rfl fun q _ => ?_
    rw [Multiset.coe_card, List.length_map, Queue.mbufs, List.length_append, List.length_append]
    rfl

/-- Two queues over one pool. -/
def poolPortLedger (room : Nat) : PortLedger (fun _ : Bool => poolNic room) where
  free s := s.free
  nic s := s.ring
  ledger _ := poolLedger room
  free_eq _ := rfl
  nic_eq _ := rfl

/-- Queue 0 receives a packet and keeps it while queue 1 injects one and writes
    another: three mbufs, each in one place. -/
theorem port_mbufs_conserved_two_queues :
    ∃ t, run (Port.step (fun _ : Bool => poolNic 64) Hasher.id)
        (Port.start (fun _ => DpdkDevice.standard) ⟨⟨[1, 2], [3]⟩, .new⟩)
        [(false, .receive), (true, .injectRxPacket [1, 2]), (true, .transmit),
          (true, .consumeTx 60 ⟨id, fun _ => rfl⟩), (false, .dropTx), (false, .releaseRx 0)] = .ok t ∧
      (t.queue true).mbufs.map Mbuf.inner = [1, 2] ∧ (poolPortLedger 64).census 3 t = 1 := by
  have hpool : ((poolPortLedger 64).free ⟨[1, 2], [3]⟩ + (poolPortLedger 64).nic ⟨[1, 2], [3]⟩ :
      Multiset Nat).Nodup := by decide
  refine ⟨_, rfl, rfl, ?_⟩
  exact (port_mbufs_conserved (fun _ : Bool => poolNic 64) (poolPortLedger 64) Hasher.id
    (fun _ => DpdkDevice.standard) ⟨⟨[1, 2], [3]⟩, .new⟩ (fun _ => rfl) (fun _ => rfl) _ hpool rfl
    [(false, .receive), (true, .injectRxPacket [1, 2]), (true, .transmit),
      (true, .consumeTx 60 ⟨id, fun _ => rfl⟩), (false, .dropTx), (false, .releaseRx 0)] _ rfl).1 3
    (by decide)

/-! ## Frames

    The driver of each queue, with the packets it has returned written down. -/

section Frames

variable [DecidableEq ι]

/-- What each queue has received from the network. -/
abbrev Received (ι : Type) : Type := ι → List Mbuf

def Dpdk.recordedAt (D : Dpdk σ) (q : ι) : Dpdk (σ × Received ι) where
  pktmbufAlloc s := ((D.pktmbufAlloc s.1).1, (D.pktmbufAlloc s.1).2, s.2)
  pktmbufFree s m := (D.pktmbufFree s.1 m, s.2)
  ethRxBurst s n :=
    ((D.ethRxBurst s.1 n).1, (D.ethRxBurst s.1 n).2,
      Function.update s.2 q (s.2 q ++ (D.ethRxBurst s.1 n).1))
  ethTxBurst s ps := ((D.ethTxBurst s.1 ps).1, (D.ethTxBurst s.1 ps).2, s.2)
  rx_le s n := D.rx_le s.1 n
  tx_le s ps := D.tx_le s.1 ps
  alloc_reset s m h := D.alloc_reset s.1 m h

/-- The frames that queue `q` has received. -/
def Port.received (s : Port (σ × Received ι) ι) (q : ι) : List Frame :=
  (s.world.ffi.2 q).map Mbuf.data

variable (D : Dpdk σ) (q : ι)

theorem flushTx_received (dev : DpdkDevice) (s : σ × Received ι) :
    (DpdkDevice.flushTx (D.recordedAt q) dev s).2.2 = s.2 := by
  by_cases h : dev.txBatch.toList = []
  · rw [flushTx_of_nil _ s h]
  · rw [flushTx_of_ne_nil _ s h]
    rfl

theorem transmit_received (dev : DpdkDevice) (s : σ × Received ι) :
    (DpdkDevice.transmit (D.recordedAt q) dev s).2.2.2 = s.2 := by
  rw [DpdkDevice.transmit]
  split
  · rfl
  · exact flushTx_received D q dev s

/-- A poll appends a burst to an empty batch, and queue 0 scans it. -/
theorem pollRx_received (H : Hasher) (dev : DpdkDevice) (w : World (σ × Received ι)) :
    ∃ burst : List Mbuf,
      (pollRx (D.recordedAt q) H dev w).1.rxBatch.toList = dev.rxBatch.toList ++ burst ∧
      (pollRx (D.recordedAt q) H dev w).2.ffi.2
        = Function.update w.ffi.2 q (w.ffi.2 q ++ burst) ∧
      (pollRx (D.recordedAt q) H dev w).2.arp =
        if dev.sharedArpCache ∧ dev.queueId = 0 then scanArpReplies H w.arp burst else w.arp := by
  have hflush := flushTx_received D q dev w.ffi
  by_cases h : dev.rxBatch.toList = []
  · obtain ⟨batch, hbatch, heq⟩ := pollRx_of_nil (D.recordedAt q) H w h
    refine ⟨(nextBurst (D.recordedAt q) dev w.ffi).1, ?_, ?_, ?_⟩
    · rw [heq, h]
      exact hbatch
    · rw [heq]
      show Function.update (DpdkDevice.flushTx (D.recordedAt q) dev w.ffi).2.2 q _ = _
      rw [hflush]
      rfl
    · rw [heq]
  · have hnone : (if dev.sharedArpCache ∧ dev.queueId = 0 then scanArpReplies H w.arp []
        else w.arp) = w.arp := ite_self _
    rw [pollRx_of_ne_nil _ H w h, flushTx_fst]
    refine ⟨[], (List.append_nil _).symm, ?_, hnone.symm⟩
    rw [List.append_nil, Function.update_eq_self]
    exact hflush

/-- What an injection appends are replies for entries of the cache, and it is
    never queue 0 that injects. -/
theorem injectFromSharedCache_received (dev : DpdkDevice) (w : World (σ × Received ι)) :
    ∃ ms : List Mbuf,
      (injectFromSharedCache (D.recordedAt q) dev w).1.rxBatch.toList
        = dev.rxBatch.toList ++ ms ∧
      (injectFromSharedCache (D.recordedAt q) dev w).2.ffi.2 = w.ffi.2 ∧
      (injectFromSharedCache (D.recordedAt q) dev w).2.arp = w.arp ∧
      ∀ m ∈ ms, dev.queueId ≠ 0 ∧ ∃ ourMac ourIp, dev.ourMac = some ourMac ∧
        dev.ourIp = some ourIp ∧ ∃ e ∈ w.arp.inner.entries, m.data = entryFrame ourMac ourIp e := by
  by_cases hskip : injectFromSharedCache (D.recordedAt q) dev w = (dev, w)
  · rw [hskip]
    exact ⟨[], (List.append_nil _).symm, rfl, rfl, fun m hm => absurd hm List.not_mem_nil⟩
  · have hq : dev.queueId ≠ 0 := by
      intro hq
      exact hskip (injectFromSharedCache_skip _ (Or.inl hq))
    obtain h | ⟨ourMac, ourIp, hmac, hip, h⟩ :=
      injectFromSharedCache_cases (D.recordedAt q) dev w
    · exact absurd h hskip
    · obtain ⟨ms, hms, hpre, -⟩ := injectEntries_spec (D.recordedAt q) ourMac ourIp
        w.arp.inner.entries dev.rxBatch w.ffi
      have hlog := injectEntries_ffi (D.recordedAt q) 
        (Q := fun x : σ × Received ι => x.2 = w.ffi.2) (fun _ hx => hx) (fun _ _ hx => hx)
        ourMac ourIp w.arp.inner.entries dev.rxBatch w.ffi rfl
      rw [h]
      refine ⟨ms, hms, hlog, rfl, fun m hm => ⟨hq, ourMac, ourIp, hmac, hip, ?_⟩⟩
      obtain ⟨e, he, hdata⟩ := List.mem_map.mp (hpre.subset (List.mem_map_of_mem hm))
      exact ⟨e, he, hdata.symm⟩

/-- **RECEIVE**: what is handed out and what stays in the batch are the old batch,
    a burst from the network and replies for entries of the cache. -/
theorem receive_received (H : Hasher) (dev : DpdkDevice) (w : World (σ × Received ι)) :
    ∃ burst ms : List Mbuf,
      ((DpdkDevice.receive (D.recordedAt q) H dev w).1.toList
          ++ (DpdkDevice.receive (D.recordedAt q) H dev w).2.1.rxBatch.toList).Perm
        (dev.rxBatch.toList ++ burst ++ ms) ∧
      (DpdkDevice.receive (D.recordedAt q) H dev w).2.2.ffi.2
        = Function.update w.ffi.2 q (w.ffi.2 q ++ burst) ∧
      (DpdkDevice.receive (D.recordedAt q) H dev w).2.2.arp =
        (if dev.sharedArpCache ∧ dev.queueId = 0 then scanArpReplies H w.arp burst else w.arp) ∧
      ∀ m ∈ ms, dev.queueId ≠ 0 ∧ ∃ ourMac ourIp, dev.ourMac = some ourMac ∧
        dev.ourIp = some ourIp ∧ ∃ e ∈ w.arp.inner.entries, m.data = entryFrame ourMac ourIp e := by
  obtain ⟨burst, hpolled, hlog, harp⟩ := pollRx_received D q H dev w
  obtain ⟨ms, hms, hlog', harp', hreply⟩ := injectFromSharedCache_received D q
    (pollRx (D.recordedAt q) H dev w).1 (pollRx (D.recordedAt q) H dev w).2
  obtain ⟨batch, hbatch, hrecv⟩ := receive_spec (D.recordedAt q) H dev w
  have hcfg := (pollRx_fst (D.recordedAt q) H dev w).2
  have hqueue : (pollRx (D.recordedAt q) H dev w).1.queueId = dev.queueId := congrArg Prod.fst hcfg
  have hmac : (pollRx (D.recordedAt q) H dev w).1.ourMac = dev.ourMac :=
    congrArg (fun c => c.2.2.1) hcfg
  have hip : (pollRx (D.recordedAt q) H dev w).1.ourIp = dev.ourIp :=
    congrArg (fun c => c.2.2.2) hcfg
  have hlast : ∀ l : List Mbuf, (l.getLast?.toList ++ l.dropLast).Perm l := by
    intro l
    rcases List.eq_nil_or_concat l with rfl | ⟨l, x, rfl⟩
    · exact List.Perm.nil
    · rw [List.concat_eq_append, List.getLast?_concat, List.dropLast_concat]
      exact List.perm_append_comm
  rw [hrecv]
  refine ⟨burst, ms, ?_, hlog'.trans hlog, harp'.trans harp, fun m hm => ?_⟩
  · rw [← hpolled, ← hms, hbatch]
    exact hlast _
  · obtain ⟨hne, ourMac, ourIp, hm1, hm2, e, he, hdata⟩ := hreply m hm
    rw [hqueue] at hne
    rw [hmac] at hm1
    rw [hip] at hm2
    -- only queue 0 writes to the cache, and it does not inject
    rw [harp, if_neg (fun h => hne h.2)] at he
    exact ⟨hne, ourMac, ourIp, hm1, hm2, e, he, hdata⟩

/-- An injected packet is in the batch if and only if it was accepted. -/
theorem injectRxPacket_received (dev : DpdkDevice) (s : σ × Received ι) (d : Frame) :
    (injectRxPacket (D.recordedAt q) dev s d).2.1.rxBatch.toList.map Mbuf.data
        = dev.rxBatch.toList.map Mbuf.data
          ++ (if (injectRxPacket (D.recordedAt q) dev s d).1 then [d] else []) ∧
      (injectRxPacket (D.recordedAt q) dev s d).2.2.2 = s.2 := by
  refine ⟨?_, injectRxPacket_ffi (D.recordedAt q) (Q := fun x : σ × Received ι => x.2 = s.2)
    (fun _ hx => hx) (fun _ _ hx => hx) dev s d rfl⟩
  by_cases hroom : dev.rxBatch.len < 64
  · rcases hac : allocCopy (D.recordedAt q) s d with ⟨_ | m, s'⟩
    · simp only [injectRxPacket, hroom, dif_pos, hac]
      exact (List.append_nil _).symm
    · simp only [injectRxPacket, hroom, dif_pos, hac]
      rw [ArrayVec.toList_push, List.map_append, List.map_singleton, data_of_allocCopy hac]
      rfl
  · simp only [injectRxPacket, hroom, dif_neg, not_false_eq_true]
    exact (List.append_nil _).symm

/-! ### Whole runs -/

/-- What an address resolves to after some pairs have been learnt was known
    before, or is one of them. -/
theorem foldl_learn_mem {ip : Ipv4Addr} {mac : MacAddress} :
    ∀ (es : List (Ipv4Addr × MacAddress)) (m : Ipv4Addr → Option MacAddress),
      es.foldl learn m ip = some mac → m ip = some mac ∨ (ip, mac) ∈ es := by
  intro es
  induction es with
  | nil => intro m h; exact Or.inl h
  | cons e es ih =>
      intro m h
      rcases ih (learn m e) h with hknown | hmem
      · rw [learn, Function.update_apply] at hknown
        by_cases hip : ip = e.1
        · rw [if_pos hip] at hknown
          rw [hip, ← Option.some.inj hknown]
          exact Or.inr List.mem_cons_self
        · rw [if_neg hip] at hknown
          exact Or.inl hknown
      · exact Or.inr (List.mem_cons_of_mem _ hmem)

/-- A reply that queue `q` has put into its receive path for an entry of the cache:
    it says what a reply that queue 0 received has said, addressed to `q`. -/
def Port.RelayedReply (dev : ι → DpdkDevice) (s : Port (σ × Received ι) ι) (q : ι)
    (f : Frame) : Prop :=
  (dev q).queueId ≠ 0 ∧ ∃ ourMac ourIp, (dev q).ourMac = some ourMac ∧ (dev q).ourIp = some ourIp ∧
    ∃ p ip mac, (dev p).queueId = 0 ∧ (ip, mac) ∈ repliesIn (s.received p) ∧
      f = buildArpReplyForInjection ourMac ourIp mac ip

/-- Where everything is from. -/
structure Port.Traced (dev : ι → DpdkDevice) (s : Port (σ × Received ι) ι) : Prop where
  config : ∀ q, (s.queue q).dev.config = (dev q).config
  learned : ∀ ip mac, s.world.arp.get ip = some mac →
    ∃ p, (dev p).queueId = 0 ∧ (ip, mac) ∈ repliesIn (s.received p)
  origin : ∀ q, ∃ replies : List Frame,
    (((s.queue q).handed ++ (s.queue q).dev.rxBatch.toList).map Mbuf.data).Perm
      (s.received q ++ replies ++ (s.queue q).injected) ∧
    ∀ f ∈ replies, s.RelayedReply dev q f

namespace Port

variable {dev : ι → DpdkDevice}

theorem repliesIn_mono {fs gs : List Frame} (h : fs <+: gs) {e : Ipv4Addr × MacAddress}
    (he : e ∈ repliesIn fs) : e ∈ repliesIn gs :=
  (h.sublist.filterMap parseArpReply).subset he

omit [DecidableEq ι] in
theorem RelayedReply.mono {s u : Port (σ × Received ι) ι}
    (h : ∀ p, s.received p <+: u.received p) {q : ι} {f : Frame} (hf : s.RelayedReply dev q f) :
    u.RelayedReply dev q f := by
  obtain ⟨hq, ourMac, ourIp, hmac, hip, p, ip, mac, hp, hmem, rfl⟩ := hf
  exact ⟨hq, ourMac, ourIp, hmac, hip, p, ip, mac, hp, repliesIn_mono (h p) hmem, rfl⟩

/-- A call on queue `q` that polls nothing and leaves the cache alone; `packets`
    is what it puts into the batch. -/
theorem Traced.of_quiet {s : Port (σ × Received ι) ι} (hs : s.Traced dev) {q : ι}
    {t : Sys (σ × Received ι)} {packets : List Frame} (harp : t.world.arp = s.world.arp)
    (hlog : t.world.ffi.2 = s.world.ffi.2) (hcfg : t.dev.config = (s.queue q).dev.config)
    (hhanded : t.handed = (s.queue q).handed)
    (hbatch : t.dev.rxBatch.toList.map Mbuf.data
      = (s.queue q).dev.rxBatch.toList.map Mbuf.data ++ packets) :
    (s.put q t packets).Traced dev := by
  have hreceived : ∀ p, (s.put q t packets).received p = s.received p := by
    intro p
    show (t.world.ffi.2 p).map Mbuf.data = _
    rw [hlog]
    rfl
  have hmono : ∀ p, s.received p <+: (s.put q t packets).received p := fun p => by
    rw [hreceived]
  refine ⟨?_, ?_, ?_⟩
  · intro r
    by_cases hr : r = q
    · rw [hr, queue_put_self]
      exact hcfg.trans (hs.config q)
    · rw [queue_put_ne s t packets hr]
      exact hs.config r
  · intro ip mac hget
    obtain ⟨p, hp, hmem⟩ := hs.learned ip mac (by rw [← harp]; exact hget)
    exact ⟨p, hp, by rw [hreceived]; exact hmem⟩
  · intro r
    obtain ⟨replies, hperm, hreplies⟩ := hs.origin r
    refine ⟨replies, ?_, fun f hf => (hreplies f hf).mono hmono⟩
    rw [hreceived]
    by_cases hr : r = q
    · rw [hr] at hperm ⊢
      rw [queue_put_self, List.map_append, hhanded, hbatch, ← List.append_assoc, ← List.append_assoc,
        ← List.map_append]
      exact hperm.append_right packets
    · rw [queue_put_ne s t packets hr]
      exact hperm

/-- A receive on queue `q`. -/
theorem Traced.receive {D : ι → Dpdk σ} {H : Hasher} {s : Port (σ × Received ι) ι}
    (hs : s.Traced dev) {q : ι} {t : Sys (σ × Received ι)}
    (hdev : t.dev = (DpdkDevice.receive ((D q).recordedAt q) H (s.queue q).dev s.world).2.1)
    (hworld : t.world = (DpdkDevice.receive ((D q).recordedAt q) H (s.queue q).dev s.world).2.2)
    (hhanded : t.handed = (s.queue q).handed
      ++ (DpdkDevice.receive ((D q).recordedAt q) H (s.queue q).dev s.world).1.toList) :
    (s.put q t []).Traced dev := by
  obtain ⟨burst, ms, hperm, hlog, harp, hms⟩ := receive_received (D q) q H (s.queue q).dev s.world
  have hcfg := (receive_fst ((D q).recordedAt q) H (s.queue q).dev s.world).2
  have hsame : ∀ r, (s.queue r).dev.queueId = (dev r).queueId ∧
      (s.queue r).dev.ourMac = (dev r).ourMac ∧ (s.queue r).dev.ourIp = (dev r).ourIp := by
    intro r
    exact ⟨congrArg Prod.fst (hs.config r), congrArg (fun c => c.2.2.1) (hs.config r),
      congrArg (fun c => c.2.2.2) (hs.config r)⟩
  rw [← hworld] at hlog harp
  rw [← hdev] at hperm hcfg
  have hself : (s.put q t []).received q = s.received q ++ burst.map Mbuf.data := by
    show (t.world.ffi.2 q).map Mbuf.data = _
    rw [hlog, Function.update_self, List.map_append]
    rfl
  have hother : ∀ p, p ≠ q → (s.put q t []).received p = s.received p := by
    intro p hp
    show (t.world.ffi.2 p).map Mbuf.data = _
    rw [hlog, Function.update_of_ne hp]
    rfl
  have hmono : ∀ p, s.received p <+: (s.put q t []).received p := by
    intro p
    by_cases hp : p = q
    · rw [hp, hself]
      exact List.prefix_append _ _
    · rw [hother p hp]
  refine ⟨?_, ?_, ?_⟩
  · intro r
    by_cases hr : r = q
    · rw [hr, queue_put_self]
      exact hcfg.trans (hs.config q)
    · rw [queue_put_ne s t [] hr]
      exact hs.config r
  · intro ip mac hget
    have hknown : s.world.arp.get ip = some mac →
        ∃ p, (dev p).queueId = 0 ∧ (ip, mac) ∈ repliesIn ((s.put q t []).received p) := by
      intro h
      obtain ⟨p, hp, hmem⟩ := hs.learned ip mac h
      exact ⟨p, hp, repliesIn_mono (hmono p) hmem⟩
    change t.world.arp.get ip = some mac at hget
    rw [harp] at hget
    split at hget
    · rename_i hproducer
      rw [(scanArpReplies_spec H burst s.world.arp).1] at hget
      rcases foldl_learn_mem _ _ hget with hold | hnew
      · exact hknown hold
      · refine ⟨q, (hsame q).1.symm.trans hproducer.2, ?_⟩
        rw [hself, repliesIn, List.filterMap_append]
        exact List.mem_append_right _ hnew
    · exact hknown hget
  · intro r
    obtain ⟨replies, hold, hreplies⟩ := hs.origin r
    by_cases hr : r = q
    · subst hr
      refine ⟨replies ++ ms.map Mbuf.data, ?_, ?_⟩
      · rw [queue_put_self, hself, List.append_nil]
        show ((t.handed ++ t.dev.rxBatch.toList).map Mbuf.data).Perm _
        rw [hhanded, List.append_assoc]
        have hnew := (hperm.append_left (s.queue r).handed).map Mbuf.data
        refine hnew.trans ?_
        -- the old packets, then the burst, then the replies
        rw [← List.append_assoc, ← List.append_assoc, List.map_append, List.map_append]
        refine ((hold.append_right _).append_right _).trans ?_
        rw [List.perm_iff_count]
        intro f
        simp only [List.count_append]
        omega
      · intro f hf
        rcases List.mem_append.mp hf with hf | hf
        · exact (hreplies f hf).mono hmono
        · obtain ⟨m, hm, rfl⟩ := List.mem_map.mp hf
          obtain ⟨hne, ourMac, ourIp, hmac, hip, ⟨ip, mac⟩, he, hdata⟩ := hms m hm
          obtain ⟨p, hp, hmem⟩ := hs.learned ip mac (AList.mem_lookup_iff.mpr he)
          refine ⟨by rw [← (hsame r).1]; exact hne, ourMac, ourIp, (hsame r).2.1.symm.trans hmac,
            (hsame r).2.2.symm.trans hip, p, ip, mac, hp, repliesIn_mono (hmono p) hmem, hdata⟩
    · refine ⟨replies, ?_, fun f hf => (hreplies f hf).mono hmono⟩
      rw [queue_put_ne s t [] hr, hother r hr]
      exact hold

/-- **ONE CALL** on one of the queues. -/
theorem traced_step {D : ι → Dpdk σ} {H : Hasher} {s s' : Port (σ × Received ι) ι}
    {a : ι × DevOp} (hs : s.Traced dev)
    (h : s.step (fun q => (D q).recordedAt q) H a = .ok s') : s'.Traced dev := by
  obtain ⟨q, op⟩ := a
  obtain ⟨hop, t, ht, rfl⟩ := step_ok h
  have hnext := Sys.step_ok ht
  let rxData : DpdkDevice → List Frame := fun d => d.rxBatch.toList.map Mbuf.data
  have hrest := (List.append_nil (rxData (s.queue q).dev)).symm
  cases op with
  | receive =>
      obtain ⟨-, rfl⟩ := hnext
      exact hs.receive rfl rfl rfl
  | transmit =>
      obtain ⟨-, rfl⟩ := hnext
      obtain ⟨batch, hbatch⟩ := transmit_fst ((D q).recordedAt q) (s.queue q).dev s.world.ffi
      have hcfg := congrArg DpdkDevice.config hbatch
      exact hs.of_quiet rfl (transmit_received (D q) q (s.queue q).dev s.world.ffi) hcfg rfl
        ((congrArg rxData hbatch).trans hrest)
  | consumeTx len f =>
      obtain ⟨-, r, hr, rfl⟩ := hnext
      obtain ⟨x, hx, rfl⟩ | ⟨m, x, batch, hx, -, rfl⟩ := consume_ok hr
      · exact hs.of_quiet rfl (congrArg (fun y => y.2.2) hx.symm) rfl rfl hrest
      · exact hs.of_quiet rfl (congrArg (fun y => y.2.2) hx.symm) rfl rfl hrest
  | dropTx =>
      obtain ⟨-, rfl⟩ := hnext
      exact hs.of_quiet rfl rfl rfl rfl hrest
  | releaseRx i =>
      obtain ⟨m, -, rfl⟩ := hnext
      exact hs.of_quiet rfl rfl rfl rfl hrest
  | flushTx =>
      obtain ⟨-, rfl⟩ := hnext
      have hdev := flushTx_fst ((D q).recordedAt q) (s.queue q).dev s.world.ffi
      have hcfg := congrArg DpdkDevice.config hdev
      exact hs.of_quiet rfl (flushTx_received (D q) q (s.queue q).dev s.world.ffi) hcfg rfl
        ((congrArg rxData hdev).trans hrest)
  | injectRxPacket d =>
      obtain ⟨-, rfl⟩ := hnext
      obtain ⟨hbatch, hlog⟩ := injectRxPacket_received (D q) q (s.queue q).dev s.world.ffi d
      obtain ⟨batch, hdev⟩ := injectRxPacket_fst ((D q).recordedAt q) (s.queue q).dev s.world.ffi d
      have hcfg := congrArg DpdkDevice.config hdev
      exact hs.of_quiet rfl hlog hcfg rfl hbatch
  | arpInsert ip mac => exact absurd rfl (hop ip mac)

end Port

/-- **EVERY FRAME HAS ONE ORIGIN**: whatever the threads of the queues do, in
    whatever order, the frames handed to smoltcp on a queue and those still in its
    batch are, each once, the frames that this queue received from the network,
    the packets injected into it, and replies relayed to it: nothing is lost,
    doubled or made up, queue 0 is relayed nothing, and what is relayed to another
    queue some ARP reply received by queue 0 has said. -/
theorem frames_have_one_origin (D : ι → Dpdk σ) (H : Hasher) (dev : ι → DpdkDevice)
    (hrx : ∀ q, (dev q).rxBatch.toList = []) (ffi : σ) (ops : List (ι × DevOp))
    (t : Port (σ × Received ι) ι)
    (hrun : run (Port.step (fun q => (D q).recordedAt q) H)
      (Port.start dev ⟨(ffi, fun _ => []), .new⟩) ops = .ok t) (q : ι) :
    ∃ replies : List Frame,
      (((t.queue q).handed ++ (t.queue q).dev.rxBatch.toList).map Mbuf.data).Perm
        (t.received q ++ replies ++ (t.queue q).injected) ∧
      ((dev q).queueId = 0 → replies = []) ∧ ∀ f ∈ replies, t.RelayedReply dev q f := by
  have hstart : (Port.start dev ⟨(ffi, fun _ => []), .new⟩ : Port (σ × Received ι) ι).Traced dev := by
    refine ⟨fun _ => rfl, ?_, fun q => ⟨[], ?_, ?_⟩⟩
    · intro ip mac hget
      cases hget
    · show (([] ++ (dev q).rxBatch.toList).map Mbuf.data).Perm _
      rw [hrx]
      exact List.Perm.nil
    · intro f hf
      cases hf
  have ht := run_invariant (fun _ _ _ hs h => Port.traced_step hs h) hstart hrun
  obtain ⟨replies, hperm, hreplies⟩ := ht.origin q
  refine ⟨replies, hperm, fun hq => ?_, hreplies⟩
  cases replies with
  | nil => rfl
  | cons f fs => exact absurd hq (hreplies f List.mem_cons_self).1

end Frames

/-- A driver that never has a packet, and small mbufs. -/
def quietNic : Dpdk Unit :=
  { replyNic with
    ethRxBurst := fun s _ => ([], s)
    rx_le := fun _ n => Nat.zero_le n }

/-- Queue 0 receives two replies; the packet that queue 1 then hands out, having
    received none, is the relayed reply of the second. -/
theorem reply_relayed_to_queue_one :
    ∃ t, run (Port.step (fun q : Bool => (if q then quietNic else replyNic).recordedAt q) Hasher.id)
        (Port.start (fun q => if q then queueOne else queueZero) ⟨((), fun _ => []), .new⟩)
        [(false, .receive), (true, .receive)] = .ok t ∧
      t.received true = [] ∧ (t.queue true).handed.length = 1 ∧
      ∀ f ∈ (t.queue true).handed.map Mbuf.data,
        t.RelayedReply (fun q => if q then queueOne else queueZero) true f := by
  refine ⟨_, rfl, rfl, rfl, ?_⟩
  obtain ⟨replies, hperm, -, hrelayed⟩ := frames_have_one_origin
    (fun q : Bool => if q then quietNic else replyNic) Hasher.id
    (fun q => if q then queueOne else queueZero) (by intro q; cases q <;> rfl) ()
    [(false, .receive), (true, .receive)] _ rfl true
  intro f hf
  refine hrelayed f ?_
  have hmem := hperm.subset (by rw [List.map_append]; exact List.mem_append_left _ hf)
  rcases List.mem_append.mp hmem with hmem | hnone
  · exact hmem
  · cases hnone

end DpdkNet
