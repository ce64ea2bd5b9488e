import DpdkNet.Device.Machine

/-! # The order in which packets reach smoltcp

    The batch is filled at the back, oldest packet first, and drained from the
    back.  So a burst comes out backwards: what smoltcp sees is the
    concatenation of the REVERSED bursts (`rx_bursts_reversed`), and it is the
    arrival order exactly when every burst reads the same in both directions,
    in particular when no burst has more than one packet. -/

namespace DpdkNet

open DpdkDevice Runs

variable {σ : Type}

/-- No injection of cached ARP entries: queue 0, or no shared cache. -/
def DpdkDevice.NoArpInjection (dev : DpdkDevice) : Prop :=
  dev.queueId = 0 ∨ dev.sharedArpCache = false

/-- Every operation but the explicit injection of a packet. -/
def DevOp.notInject : DevOp → Prop
  | .injectRxPacket _ => False
  | _ => True

/-- The packets handed out, followed by those that the next `receive` calls will
    hand out before they poll again. -/
def Sys.rxView (s : Sys σ) : List Mbuf := s.handed ++ s.dev.rxBatch.toList.reverse

theorem flushTx_rx (D : Dpdk σ) (dev : DpdkDevice) (s : σ × DriverLog) :
    (DpdkDevice.flushTx D.recorded dev s).1.rxBatch = dev.rxBatch ∧
      (DpdkDevice.flushTx D.recorded dev s).1.config = dev.config ∧
      (DpdkDevice.flushTx D.recorded dev s).2.2.bursts = s.2.bursts := by
  refine ⟨by rw [flushTx_fst], by rw [flushTx_fst]; rfl, ?_⟩
  by_cases h : dev.txBatch.toList = []
  · rw [flushTx_of_nil D.recorded s h]
  · rw [flushTx_of_ne_nil D.recorded s h]
    rfl

/-- Without injection a receive polls, and that is all it does before it takes a
    packet. -/
theorem prepared_noArpInjection (D : Dpdk σ) (H : Hasher) {dev : DpdkDevice} (w : World σ)
    (hno : dev.NoArpInjection) : prepared D H dev w = pollRx D H dev w := by
  have hcfg := (pollRx_fst D H dev w).2
  have hq : (pollRx D H dev w).1.queueId = dev.queueId := congrArg Prod.fst hcfg
  have hc : (pollRx D H dev w).1.sharedArpCache = dev.sharedArpCache :=
    congrArg (fun c => c.2.1) hcfg
  refine injectFromSharedCache_skip D ?_
  rcases hno with h | h
  · exact Or.inl (hq.trans h)
  · exact Or.inr (Or.inl (hc.trans h))

/-- Without injection a receive hands out the back of the polled batch: either
    the batch held before, or a whole new burst. -/
theorem receive_noArpInjection (D : Dpdk σ) (H : Hasher) {dev : DpdkDevice}
    (w : World (σ × DriverLog)) (hno : dev.NoArpInjection) :
    ∃ B : List Mbuf,
      (DpdkDevice.receive D.recorded H dev w).1 = B.getLast? ∧
      (DpdkDevice.receive D.recorded H dev w).2.1.rxBatch.toList = B.dropLast ∧
      ((dev.rxBatch.toList ≠ [] ∧ B = dev.rxBatch.toList ∧
          (DpdkDevice.receive D.recorded H dev w).2.2.ffi.2.bursts = w.ffi.2.bursts) ∨
        (dev.rxBatch.toList = [] ∧
          (DpdkDevice.receive D.recorded H dev w).2.2.ffi.2.bursts = w.ffi.2.bursts ++ [B])) := by
  have hflush := (flushTx_rx D dev w.ffi).2.2
  have hprep := prepared_noArpInjection D.recorded H w hno
  obtain ⟨batch, hb, hrecv⟩ := receive_spec D.recorded H dev w
  refine ⟨(prepared D.recorded H dev w).1.rxBatch.toList, by rw [hrecv], by rw [hrecv]; exact hb, ?_⟩
  rw [hrecv, hprep]
  by_cases h : dev.rxBatch.toList = []
  · obtain ⟨batch', hb', heq⟩ := pollRx_of_nil D.recorded H w h
    refine Or.inr ⟨h, ?_⟩
    rw [heq]
    show (DpdkDevice.flushTx D.recorded dev w.ffi).2.2.bursts ++ [_] = w.ffi.2.bursts ++ [_]
    rw [hflush, hb']
    rfl
  · refine Or.inl ⟨h, ?_, ?_⟩
    · rw [pollRx_of_ne_nil D.recorded H w h, flushTx_fst]
    · rw [pollRx_of_ne_nil D.recorded H w h]
      exact hflush

/-- The device calls other than `receive` leave the receive side alone. -/
theorem transmit_rx (D : Dpdk σ) (dev : DpdkDevice) (s : σ × DriverLog) :
    (DpdkDevice.transmit D.recorded dev s).2.1.rxBatch = dev.rxBatch ∧
      (DpdkDevice.transmit D.recorded dev s).2.1.config = dev.config ∧
      (DpdkDevice.transmit D.recorded dev s).2.2.2.bursts = s.2.bursts := by
  rw [DpdkDevice.transmit]
  split
  · exact ⟨rfl, rfl, rfl⟩
  · exact flushTx_rx D dev s

theorem consume_rx {D : Dpdk σ} {dev : DpdkDevice} {s : σ × DriverLog} {len : Nat}
    {f : SliceWriter} {r : Option Frame × DpdkDevice × (σ × DriverLog)}
    (h : consume D.recorded dev s len f = .ok r) :
    r.2.1.rxBatch = dev.rxBatch ∧ r.2.1.config = dev.config ∧
      r.2.2.2.bursts = s.2.bursts := by
  obtain ⟨s', ha, rfl⟩ | ⟨m, s', batch, ha, -, rfl⟩ := consume_ok h
  · exact ⟨rfl, rfl, congrArg (fun p => p.2.2.bursts) ha.symm⟩
  · exact ⟨rfl, rfl, congrArg (fun p => p.2.2.bursts) ha.symm⟩

/-- The invariant of the receive path. -/
def Sys.RxReversed (s : Sys (σ × DriverLog)) : Prop :=
  s.dev.NoArpInjection ∧ s.rxView = s.world.ffi.2.bursts.flatMap List.reverse

theorem noArpInjection_of_config {dev dev' : DpdkDevice} (h : dev'.config = dev.config)
    (hno : dev.NoArpInjection) : dev'.NoArpInjection := by
  have hq : dev'.queueId = dev.queueId := congrArg Prod.fst h
  have hc : dev'.sharedArpCache = dev.sharedArpCache := congrArg (fun c => c.2.1) h
  rw [NoArpInjection, hq, hc]
  exact hno

/-- **ONE STEP**: every operation but an explicit injection keeps the packets
    seen by smoltcp equal to the reversed bursts. -/
theorem Sys.rxReversed_step (D : Dpdk σ) (H : Hasher) (s : Sys (σ × DriverLog)) (op : DevOp)
    (s' : Sys (σ × DriverLog)) (hs : s.RxReversed) (hop : op.notInject)
    (h : s.step D.recorded H op = .ok s') : s'.RxReversed := by
  obtain ⟨hno, hview⟩ := hs
  -- an operation that leaves the receive side alone
  have hsame : ∀ u : Sys (σ × DriverLog), u.handed = s.handed →
      u.dev.rxBatch = s.dev.rxBatch ∧ u.dev.config = s.dev.config ∧
        u.world.ffi.2.bursts = s.world.ffi.2.bursts → u.RxReversed := by
    rintro u hh ⟨hr, hc, hl⟩
    refine ⟨noArpInjection_of_config hc hno, ?_⟩
    rw [rxView, hh, hr, hl]
    exact hview
  have hnext := Sys.step_ok h
  cases op with
  | receive =>
      obtain ⟨-, rfl⟩ := hnext
      refine ⟨noArpInjection_of_config (receive_fst D.recorded H s.dev s.world).2 hno, ?_⟩
      obtain ⟨B, hB1, hB2, hcase⟩ := receive_noArpInjection D H s.world hno
      show (s.handed ++ (DpdkDevice.receive D.recorded H s.dev s.world).1.toList)
        ++ (DpdkDevice.receive D.recorded H s.dev s.world).2.1.rxBatch.toList.reverse = _
      rw [hB1, hB2, List.append_assoc, ArrayVec.getLast?_append_reverse_dropLast]
      obtain ⟨-, rfl, hl⟩ | ⟨hnil, hl⟩ := hcase
      · show s.rxView = _
        rw [hview]
        exact congrArg _ hl.symm
      · -- the old batch was empty: everything handed out so far is on record
        rw [rxView, hnil, List.reverse_nil, List.append_nil] at hview
        show s.handed ++ B.reverse = List.flatMap List.reverse _
        rw [hl, List.flatMap_append, hview]
        simp
  | transmit =>
      obtain ⟨-, rfl⟩ := hnext
      exact hsame _ rfl (transmit_rx D s.dev s.world.ffi)
  | consumeTx len f =>
      obtain ⟨-, r, hr, rfl⟩ := hnext
      exact hsame _ rfl (consume_rx hr)
  | dropTx =>
      obtain ⟨-, rfl⟩ := hnext
      exact ⟨hno, hview⟩
  | releaseRx i =>
      obtain ⟨m, -, rfl⟩ := hnext
      exact ⟨hno, hview⟩
  | flushTx =>
      obtain ⟨-, rfl⟩ := hnext
      exact hsame _ rfl (flushTx_rx D s.dev s.world.ffi)
  | injectRxPacket d => exact hop.elim
  | arpInsert ip mac =>
      obtain rfl := hnext
      exact ⟨hno, hview⟩

/-- **BURSTS COME OUT REVERSED**, over every run without injection. -/
theorem rx_bursts_reversed (D : Dpdk σ) (H : Hasher) {dev : DpdkDevice} (s : σ)
    (arp : SharedArpCache) (hno : dev.NoArpInjection) (hfresh : dev.rxBatch.toList = [])
    {ops : List DevOp} (hops : ∀ op ∈ ops, op.notInject) {t : Sys (σ × DriverLog)}
    (hrun : run (Sys.step D.recorded H) (Sys.start dev ⟨(s, ⟨[], []⟩), arp⟩) ops = .ok t) :
    t.rxView = t.world.ffi.2.bursts.flatMap List.reverse := by
  have hstart : (Sys.start dev ⟨(s, ⟨[], []⟩), arp⟩ : Sys (σ × DriverLog)).RxReversed := by
    refine ⟨hno, ?_⟩
    show [] ++ dev.rxBatch.toList.reverse = []
    rw [hfresh]
    rfl
  exact (run_invariant_along (P := fun _ op => op.notInject) (Sys.rxReversed_step D H) ops _ t
    hstart (along_of_forall_mem ops _ hops) hrun).2

/-- Reversing the blocks of a list changes nothing exactly if every block is a
    palindrome. -/
theorem flatMap_reverse_eq_flatten_iff {α : Type} (L : List (List α)) :
    L.flatMap List.reverse = L.flatten ↔ ∀ b ∈ L, b.reverse = b := by
  induction L with
  | nil => simp
  | cons b L ih =>
      rw [List.flatMap_cons, List.flatten_cons, List.forall_mem_cons]
      constructor
      · intro h
        obtain ⟨h1, h2⟩ := List.append_inj h List.length_reverse
        exact ⟨h1, ih.mp h2⟩
      · rintro ⟨h1, h2⟩
        rw [h1, ih.mpr h2]

/-- **WHEN ARRIVAL ORDER SURVIVES**: the frames handed out, followed by those the
    next calls hand out, are the frames in the order the driver returned them
    exactly if every burst reads the same in both directions. -/
theorem rx_in_order_iff (D : Dpdk σ) (H : Hasher) (dev : DpdkDevice) (s : σ)
    (arp : SharedArpCache) (hno : dev.NoArpInjection) (hfresh : dev.rxBatch.toList = [])
    (ops : List DevOp) (hops : ∀ op ∈ ops, op.notInject) (t : Sys (σ × DriverLog))
    (hrun : run (Sys.step D.recorded H) (Sys.start dev ⟨(s, ⟨[], []⟩), arp⟩) ops = .ok t) :
    (t.handed ++ t.dev.rxBatch.toList.reverse).map Mbuf.data
        = t.world.ffi.2.bursts.flatten.map Mbuf.data ↔
      ∀ burst ∈ t.world.ffi.2.bursts, (burst.map Mbuf.data).reverse = burst.map Mbuf.data := by
  have hrev : t.handed ++ t.dev.rxBatch.toList.reverse
      = t.world.ffi.2.bursts.flatMap List.reverse :=
    rx_bursts_reversed D H s arp hno hfresh hops hrun
  have hL := flatMap_reverse_eq_flatten_iff (t.world.ffi.2.bursts.map (List.map Mbuf.data))
  rw [List.flatMap_map, List.forall_mem_map] at hL
  rw [hrev, List.map_flatMap, List.map_flatten, ← hL]
  simp only [List.map_reverse]

/-- An mbuf holding a one-byte frame. -/
def byteMbuf (inner : Nat) (b : UInt8) : Mbuf := ⟨inner, [b], 1, 1⟩

/-- A burst of two packets, received: the second one is handed out first. -/
theorem two_packet_burst_handed_out_backwards :
    ∃ t, run (Sys.step (scriptedNic [byteMbuf 1 1, byteMbuf 2 2] 0).recorded Hasher.id)
        (Sys.start DpdkDevice.standard ⟨((), ⟨[], []⟩), .new⟩)
        [.receive, .dropTx, .receive] = .ok t ∧
      DpdkDevice.standard.NoArpInjection ∧ t.dev.rxBatch.toList = [] ∧
      t.handed.map Mbuf.data = [[2], [1]] ∧
      t.world.ffi.2.bursts.flatten.map Mbuf.data = [[1], [2]] :=
  ⟨_, rfl, Or.inl rfl, rfl, rfl, rfl⟩

/-- Bursts of one packet come out in the order of arrival. -/
theorem single_packet_bursts_in_order :
    ∃ t, run (Sys.step (scriptedNic [byteMbuf 1 1] 0).recorded Hasher.id)
        (Sys.start DpdkDevice.standard ⟨((), ⟨[], []⟩), .new⟩)
        [.receive, .dropTx, .receive] = .ok t ∧
      (t.handed ++ t.dev.rxBatch.toList.reverse).map Mbuf.data
        = t.world.ffi.2.bursts.flatten.map Mbuf.data := by
  refine ⟨_, rfl, ?_⟩
  exact (rx_in_order_iff (scriptedNic [byteMbuf 1 1] 0) Hasher.id DpdkDevice.standard () .new
    (Or.inl rfl) rfl [.receive, .dropTx, .receive] (by simp [DevOp.notInject]) _ rfl).mpr
    (by decide)

end DpdkNet
