import DpdkNet.Device.Machine

/-! # The transmit path

    Two questions about whole runs.  Is there always room for a frame when a
    token is consumed?  `transmit` checks before it issues a token, `receive`
    does not: it relies on the flush at its start, and a driver whose ring is
    full takes nothing.  `tokens_have_room_iff` says exactly which calls break
    it.

    And what becomes of the frames?  `txView`, the packets the driver has
    accepted followed by those still in the batch, is a FIFO: flushing moves the
    boundary inside it and consuming a token appends to it, so it always is the
    sequence of frames written (`tx_path_fifo`). -/

namespace DpdkNet

open DpdkDevice Runs

variable {σ : Type}

/-! ## Room for the frame of a token -/

/-- An outstanding transmit token finds room in the batch. -/
def Sys.TokenRoom (s : Sys σ) : Prop := s.txToken = true → s.dev.txBatch.len < 256

/-- There is something for `receive` to hand out: a packet in the batch, one in
    the next burst, or a cached ARP entry and an mbuf to inject it with. -/
def DpdkDevice.HasPacket (D : Dpdk σ) (dev : DpdkDevice) (w : World σ) : Prop :=
  dev.rxBatch.toList ≠ [] ∨ (nextBurst D dev w.ffi).1 ≠ [] ∨
    (dev.queueId ≠ 0 ∧ dev.sharedArpCache = true ∧ w.arp.version ≠ dev.lastCacheVersion ∧
      w.arp.inner.entries ≠ [] ∧
      ∃ m, (D.pktmbufAlloc (nextBurst D dev w.ffi).2).1 = some m ∧ 42 ≤ m.buf.length)

/-- A `receive` from this state hands out a packet although the transmit batch
    is full and the driver takes nothing in the flush. -/
def Sys.Blocked (D : Dpdk σ) (s : Sys σ) : Prop :=
  s.dev.txBatch.len = 256 ∧ flushAccepts D s.dev s.world.ffi = 0 ∧
    s.dev.HasPacket D s.world

theorem allocCopy_isSome (D : Dpdk σ) (s : σ) (d : Frame) :
    (allocCopy D s d).1.isSome = true ↔
      ∃ m, (D.pktmbufAlloc s).1 = some m ∧ d.length ≤ u16Max ∧ d.length ≤ m.buf.length := by
  rcases ha : D.pktmbufAlloc s with ⟨_ | m, s'⟩
  · simp [allocCopy, ha]
  · have hfit := Mbuf.copyFromSlice_fst m d
    rcases hc : m.copyFromSlice d with ⟨_ | _, m'⟩
    · rw [hc] at hfit
      simp only [allocCopy, ha, hc]
      constructor
      · intro h
        cases h
      · rintro ⟨_, hm, hlen⟩
        cases hm
        cases hfit.mpr hlen
    · rw [hc] at hfit
      simp only [allocCopy, ha, hc]
      exact ⟨fun _ => ⟨m, rfl, hfit.mp rfl⟩, fun _ => rfl⟩

/-- Injection into an empty batch leaves it empty exactly if there is no entry or
    no mbuf for the first one. -/
theorem injectEntries_nil_iff (D : Dpdk σ) (ourMac : MacAddress) (ourIp : Ipv4Addr)
    (es : List (Σ _ : Ipv4Addr, MacAddress)) {batch : ArrayVec Mbuf 64} (s : σ)
    (h : batch.toList = []) :
    (injectEntries D ourMac ourIp es batch s).2.1.toList ≠ [] ↔
      es ≠ [] ∧ ∃ m, (D.pktmbufAlloc s).1 = some m ∧ 42 ≤ m.buf.length := by
  cases es with
  | nil => exact ⟨fun hne => absurd h hne, fun hes => absurd rfl hes.1⟩
  | cons e es =>
      obtain ⟨ip, mac⟩ := e
      have hroom : batch.len < 64 := by
        rw [ArrayVec.len, h]
        decide
      have hsome := allocCopy_isSome D s (buildArpReplyForInjection ourMac ourIp mac ip)
      rw [length_buildArpReplyForInjection] at hsome
      rcases hac : allocCopy D s (buildArpReplyForInjection ourMac ourIp mac ip)
        with ⟨_ | m, s'⟩
      · rw [hac] at hsome
        simp only [injectEntries, hroom, dif_pos, hac]
        refine ⟨fun hne => absurd h hne, ?_⟩
        rintro ⟨-, m, hm, hlen⟩
        cases hsome.mpr ⟨m, hm, by decide, hlen⟩
      · rw [hac] at hsome
        obtain ⟨m', hm', -, hlen⟩ := hsome.mp rfl
        obtain ⟨ms, hms, -, -⟩ := injectEntries_spec D ourMac ourIp es (batch.push m hroom) s'
        simp only [injectEntries, hroom, dif_pos, hac]
        refine ⟨fun _ => ⟨List.cons_ne_nil _ _, m', hm', hlen⟩, fun _ => ?_⟩
        rw [hms, ArrayVec.toList_push]
        simp

/-- Injection only adds packets. -/
theorem injectFromSharedCache_adds (D : Dpdk σ) {dev : DpdkDevice} (w : World σ)
    (h : dev.rxBatch.toList ≠ []) : (injectFromSharedCache D dev w).1.rxBatch.toList ≠ [] := by
  obtain hp | ⟨ourMac, ourIp, -, -, hp⟩ := injectFromSharedCache_cases D dev w
  · rw [hp]
    exact h
  · obtain ⟨ms, hms, -, -⟩ :=
      injectEntries_spec D ourMac ourIp w.arp.inner.entries dev.rxBatch w.ffi
    rw [hp]
    show (injectEntries D ourMac ourIp _ _ _).2.1.toList ≠ []
    rw [hms]
    exact List.append_ne_nil_of_left_ne_nil h ms

/-- When it adds one to an empty batch. -/
theorem injectFromSharedCache_ne_nil_iff (D : Dpdk σ) {dev : DpdkDevice} (w : World σ)
    (h : dev.rxBatch.toList = []) :
    (injectFromSharedCache D dev w).1.rxBatch.toList ≠ [] ↔
      dev.queueId ≠ 0 ∧ dev.sharedArpCache = true ∧ w.arp.version ≠ dev.lastCacheVersion ∧
        w.arp.inner.entries ≠ [] ∧
        ∃ m, (D.pktmbufAlloc w.ffi).1 = some m ∧ 42 ≤ m.buf.length := by
  by_cases hskip : dev.queueId = 0 ∨ dev.sharedArpCache = false ∨
      w.arp.version = dev.lastCacheVersion
  · rw [injectFromSharedCache_skip D hskip]
    refine iff_of_false (fun hne => hne h) ?_
    rintro ⟨hq, hs, hv, -⟩
    rcases hskip with hq' | hs' | hv'
    · exact hq hq'
    · rw [hs] at hs'
      cases hs'
    · exact hv hv'
  · rw [not_or, not_or, Bool.not_eq_false] at hskip
    obtain ⟨hq, hs, hv⟩ := hskip
    obtain ⟨ourMac, ourIp, -, -, hp⟩ := injectFromSharedCache_run D hq hs hv
    rw [hp]
    refine (injectEntries_nil_iff D ourMac ourIp w.arp.inner.entries w.ffi h).trans ?_
    constructor
    · rintro ⟨hes, hm⟩
      exact ⟨hq, hs, hv, hes, hm⟩
    · rintro ⟨-, -, -, hes, hm⟩
      exact ⟨hes, hm⟩

/-- Where the packet handed out comes from. -/
theorem prepared_ne_nil_iff (D : Dpdk σ) (H : Hasher) (dev : DpdkDevice) (w : World σ) :
    (prepared D H dev w).1.rxBatch.toList ≠ [] ↔ dev.HasPacket D w := by
  by_cases hrx : dev.rxBatch.toList = []
  · obtain ⟨batch, hb, hpoll⟩ := pollRx_of_nil D H w hrx
    by_cases hburst : (nextBurst D dev w.ffi).1 = []
    · -- nothing but injection is left, and only a consumer injects
      rw [prepared, hpoll, flushTx_fst, injectFromSharedCache_ne_nil_iff D _ (hb.trans hburst),
        HasPacket, hrx, hburst]
      constructor
      · rintro ⟨hq, hs, hv, hes, hm⟩
        rw [if_neg (fun hand => hq hand.2)] at hv hes
        exact Or.inr (Or.inr ⟨hq, hs, hv, hes, hm⟩)
      · rintro (hne | hne | ⟨hq, hs, hv, hes, hm⟩)
        · exact absurd rfl hne
        · exact absurd rfl hne
        · rw [if_neg (fun hand => hq hand.2)]
          exact ⟨hq, hs, hv, hes, hm⟩
    · refine iff_of_true (injectFromSharedCache_adds D _ ?_) (Or.inr (Or.inl hburst))
      rw [hpoll]
      exact fun hnil => hburst (hb.symm.trans hnil)
  · refine iff_of_true (injectFromSharedCache_adds D _ ?_) (Or.inl hrx)
    rw [pollRx_of_ne_nil D H w hrx, flushTx_fst]
    exact hrx

theorem flushTx_len (D : Dpdk σ) (dev : DpdkDevice) (s : σ) :
    (DpdkDevice.flushTx D dev s).1.txBatch.len = dev.txBatch.len - flushAccepts D dev s := by
  rw [flushTx_fst]
  exact List.length_drop

theorem receive_isSome (D : Dpdk σ) (H : Hasher) (dev : DpdkDevice) (w : World σ) :
    (DpdkDevice.receive D H dev w).1.isSome = true ↔ dev.HasPacket D w := by
  obtain ⟨batch, -, heq⟩ := receive_spec D H dev w
  rw [heq, ← prepared_ne_nil_iff D H]
  show ((prepared D H dev w).1.rxBatch.toList.getLast?).isSome = true ↔ _
  exact List.getLast?_isSome

theorem transmit_room {D : Dpdk σ} {dev : DpdkDevice} {s : σ}
    (h : (DpdkDevice.transmit D dev s).1 = true) :
    (DpdkDevice.transmit D dev s).2.1.txBatch.len < 256 := by
  rw [DpdkDevice.transmit] at h ⊢
  split
  · assumption
  · rename_i hfull
    rw [if_neg hfull] at h
    exact of_decide_eq_true h

/-- **ONE STEP**: from a state whose token has room, only a `receive` in a
    blocked state issues a token without room. -/
theorem Sys.tokenRoom_step {D : Dpdk σ} {H : Hasher} {s s' : Sys σ} {op : DevOp}
    (hs : s.TokenRoom) (h : s.step D H op = .ok s') :
    s'.TokenRoom ↔ (op = .receive → s.txToken = false → ¬ s.Blocked D) := by
  have hnext := Sys.step_ok h
  cases op with
  | receive =>
      obtain ⟨ht, rfl⟩ := hnext
      have hlen : (DpdkDevice.receive D H s.dev s.world).2.1.txBatch.len
          = s.dev.txBatch.len - flushAccepts D s.dev s.world.ffi := by
        rw [(receive_fst D H s.dev s.world).1, flushTx_len]
      have hle := s.dev.txBatch.len_le
      constructor
      · rintro hroom - - ⟨hfull, hzero, hsome⟩
        have hlt : (DpdkDevice.receive D H s.dev s.world).2.1.txBatch.len < 256 :=
          hroom ((receive_isSome D H s.dev s.world).mpr hsome)
        rw [hlen] at hlt
        omega
      · intro hnb htok
        show (DpdkDevice.receive D H s.dev s.world).2.1.txBatch.len < 256
        rw [hlen]
        by_contra hge
        exact hnb rfl ht ⟨by omega, by omega, (receive_isSome D H s.dev s.world).mp htok⟩
  | transmit =>
      obtain ⟨-, rfl⟩ := hnext
      exact ⟨fun _ hop => DevOp.noConfusion hop, fun _ htok => transmit_room htok⟩
  | consumeTx len f =>
      obtain ⟨-, r, -, rfl⟩ := hnext
      exact ⟨fun _ hop => DevOp.noConfusion hop, fun _ htok => Bool.noConfusion htok⟩
  | dropTx =>
      obtain ⟨-, rfl⟩ := hnext
      exact ⟨fun _ hop => DevOp.noConfusion hop, fun _ htok => Bool.noConfusion htok⟩
  | releaseRx i =>
      obtain ⟨m, -, rfl⟩ := hnext
      exact ⟨fun _ hop => DevOp.noConfusion hop, fun _ => hs⟩
  | flushTx =>
      obtain ⟨ht, rfl⟩ := hnext
      refine ⟨fun _ hop => DevOp.noConfusion hop, fun _ htok => ?_⟩
      have htok' : s.txToken = true := htok
      rw [ht] at htok'
      cases htok'
  | injectRxPacket d =>
      obtain ⟨ht, rfl⟩ := hnext
      refine ⟨fun _ hop => DevOp.noConfusion hop, fun _ htok => ?_⟩
      have htok' : s.txToken = true := htok
      rw [ht] at htok'
      cases htok'
  | arpInsert ip mac =>
      obtain rfl := hnext
      exact ⟨fun _ hop => DevOp.noConfusion hop, fun _ => hs⟩

/-- **WHEN EVERY TOKEN HAS ROOM**: in a run of a device, each outstanding token
    finds room in the batch exactly if no packet is received while the batch is
    full and the driver takes nothing. -/
theorem tokens_have_room_iff (D : Dpdk σ) (H : Hasher) (dev : DpdkDevice) (w : World σ)
    (ops : List DevOp) :
    (∀ pre, pre <+: ops → ∀ s, run (Sys.step D H) (Sys.start dev w) pre = .ok s →
        s.txToken = true → s.dev.txBatch.len < 256) ↔
      Along (Sys.step D H)
        (fun s op => op = .receive → s.txToken = false → ¬ s.Blocked D)
        (Sys.start dev w) ops := by
  refine always_iff_along (I := Sys.TokenRoom) (fun s op s' hs h => Sys.tokenRoom_step hs h)
    ?_ ops (Sys.start dev w) (fun htok => Bool.noConfusion htok)
  -- a rejected or panicking step is never a receive without a token
  rintro s op e - herr rfl ht
  rw [Sys.step, ht] at herr
  cases herr

/-- Consuming a token panics exactly if an mbuf is there and the room is not. -/
theorem consume_panics_iff (D : Dpdk σ) (dev : DpdkDevice) (s : σ) (len : Nat)
    (f : SliceWriter) :
    consume D dev s len f = .error .txBatchFull ↔
      (D.pktmbufAlloc s).1.isSome = true ∧ 256 ≤ dev.txBatch.len := by
  rw [consume]
  rcases D.pktmbufAlloc s with ⟨_ | m, s'⟩
  · constructor
    · intro h
      cases h
    · rintro ⟨h, -⟩
      cases h
  · simp only
    cases hp : dev.txBatch.tryPush ((m.extend len).writeData f) with
    | none => exact ⟨fun _ => ⟨rfl, ArrayVec.tryPush_eq_none.mp hp⟩, fun _ => rfl⟩
    | some batch =>
        constructor
        · intro h
          cases h
        · rintro ⟨-, hfull⟩
          have := (ArrayVec.toList_of_tryPush hp).2
          omega

/-- `n` frames of `len` bytes, each sent through its own transmit token. -/
def sendFrames (len : Nat) (f : SliceWriter) : Nat → List DevOp
  | 0 => []
  | n + 1 => .transmit :: .consumeTx len f :: sendFrames len f n

/-- On a driver that takes nothing, every frame sent stays in the batch. -/
theorem run_sendFrames (ps : List Mbuf) (H : Hasher) (len : Nat) (f : SliceWriter) :
    ∀ (n : Nat) (s : Sys Unit), s.txToken = false → s.dev.txBatch.len + n ≤ 256 →
      ∃ s', run (Sys.step (scriptedNic ps 0) H) s (sendFrames len f n) = .ok s' ∧
        s'.txToken = false ∧ s'.dev.txBatch.len = s.dev.txBatch.len + n := by
  intro n
  induction n with
  | zero => intro s ht _; exact ⟨s, rfl, ht, rfl⟩
  | succ n ih =>
      intro s ht hroom
      have hlt : s.dev.txBatch.len < 256 := by omega
      obtain ⟨batch, hpush, hbatch⟩ := ArrayVec.tryPush_of_lt (v := s.dev.txBatch)
        (((blankMbuf 0).extend len).writeData f) hlt
      have hblen : batch.len = s.dev.txBatch.len + 1 := by
        show batch.toList.length = _
        rw [hbatch, List.length_append]
        rfl
      have h1 : s.step (scriptedNic ps 0) H .transmit = .ok { s with txToken := true } := by
        rw [Sys.step, ht, DpdkDevice.transmit, if_pos hlt]
        rfl
      have h2 : Sys.step (scriptedNic ps 0) H { s with txToken := true } (.consumeTx len f) =
          .ok { s with
            dev := { s.dev with txBatch := batch }
            txToken := false
            written := s.written ++ [f.write ((blankMbuf 0).extend len).data] } := by
        have hc : consume (scriptedNic ps 0) s.dev s.world.ffi len f =
            .ok (some (f.write ((blankMbuf 0).extend len).data),
              { s.dev with txBatch := batch }, s.world.ffi) := by
          have ha : (scriptedNic ps 0).pktmbufAlloc s.world.ffi = (some (blankMbuf 0), ()) := rfl
          simp only [consume, ha, hpush]
        rw [Sys.step]
        simp only [hc, if_true]
        rfl
      obtain ⟨s', hrun, ht', hl'⟩ := ih
        { s with
          dev := { s.dev with txBatch := batch }
          txToken := false
          written := s.written ++ [f.write ((blankMbuf 0).extend len).data] } rfl
        (by show batch.len + n ≤ 256; omega)
      refine ⟨s', ?_, ht', ?_⟩
      · rw [sendFrames, run_cons_ok h1, run_cons_ok h2]
        exact hrun
      · rw [hl']
        show batch.len + n = _
        omega

/-- A closure that writes the same byte everywhere. -/
def fillWriter (b : UInt8) : SliceWriter := ⟨fun l => l.map (fun _ => b), fun _ => List.length_map _⟩

/-- 256 frames sent while the ring is full, then a packet received: its token
    finds the batch full, and consuming it panics. -/
theorem receive_token_without_room :
    ∃ s, run (Sys.step (scriptedNic [blankMbuf 7] 0) Hasher.id)
          (Sys.start DpdkDevice.standard ⟨(), .new⟩)
          (sendFrames 60 (fillWriter 0) 256 ++ [.receive]) = .ok s ∧
      s.txToken = true ∧ s.dev.txBatch.len = 256 ∧
      s.step (scriptedNic [blankMbuf 7] 0) Hasher.id (.consumeTx 60 (fillWriter 0))
        = .error (.panicked .txBatchFull) := by
  obtain ⟨s, hrun, ht, hlen⟩ := run_sendFrames [blankMbuf 7] Hasher.id 60
    (fillWriter 0) 256 (Sys.start DpdkDevice.standard ⟨(), .new⟩) rfl (by decide)
  have hlen' : s.dev.txBatch.len = 256 := hlen
  -- the packet that is received, and its token
  have hsome := (receive_isSome (scriptedNic [blankMbuf 7] 0) Hasher.id s.dev s.world).mpr
    (Or.inr (Or.inl (List.cons_ne_nil (blankMbuf 7) [])))
  have hzero : flushAccepts (scriptedNic [blankMbuf 7] 0) s.dev s.world.ffi = 0 := by
    rw [flushAccepts]
    split
    · rfl
    · exact Nat.zero_min _
  have hfull : (DpdkDevice.receive (scriptedNic [blankMbuf 7] 0) Hasher.id s.dev
      s.world).2.1.txBatch.len = 256 := by
    rw [(receive_fst _ _ s.dev s.world).1, flushTx_len, hzero, hlen']
  refine ⟨{ s with
      dev := (DpdkDevice.receive (scriptedNic [blankMbuf 7] 0) Hasher.id s.dev s.world).2.1
      world := (DpdkDevice.receive (scriptedNic [blankMbuf 7] 0) Hasher.id s.dev s.world).2.2
      rxTokens := s.rxTokens ++
        (DpdkDevice.receive (scriptedNic [blankMbuf 7] 0) Hasher.id s.dev s.world).1.toList
      txToken := (DpdkDevice.receive (scriptedNic [blankMbuf 7] 0) Hasher.id s.dev
        s.world).1.isSome
      handed := s.handed ++
        (DpdkDevice.receive (scriptedNic [blankMbuf 7] 0) Hasher.id s.dev s.world).1.toList },
    ?_, hsome, hfull, ?_⟩
  · rw [run_append hrun]
    refine (run_cons_ok ?_).trans (run_nil _)
    rw [Sys.step, ht]
    rfl
  · rw [Sys.step]
    simp only [hsome, if_true]
    rw [(consume_panics_iff _ _ _ _ _).mpr ⟨rfl, Nat.le_of_eq hfull.symm⟩]

/-! ## The FIFO -/

/-- The packets the driver has accepted, followed by those in the batch. -/
def txView (dev : DpdkDevice) (s : σ × DriverLog) : List Mbuf :=
  s.2.accepted ++ dev.txBatch.toList

/-- A flush moves packets from the batch to the driver without touching their
    order. -/
theorem txView_flushTx (D : Dpdk σ) (dev : DpdkDevice) (s : σ × DriverLog) :
    txView (DpdkDevice.flushTx D.recorded dev s).1 (DpdkDevice.flushTx D.recorded dev s).2
      = txView dev s := by
  by_cases h : dev.txBatch.toList = []
  · rw [flushTx_of_nil D.recorded s h]
  · rw [flushTx_of_ne_nil D.recorded s h, flushAccepts, if_neg h]
    have hle : (D.ethTxBurst s.1 (dev.txBatch.toList.take 64)).1
        ≤ (dev.txBatch.toList.take 64).length := D.tx_le _ _
    rw [List.length_take] at hle
    show (s.2.accepted ++ (dev.txBatch.toList.take 64).take
        (D.ethTxBurst s.1 (dev.txBatch.toList.take 64)).1)
      ++ dev.txBatch.toList.drop (D.ethTxBurst s.1 (dev.txBatch.toList.take 64)).1
      = s.2.accepted ++ dev.txBatch.toList
    rw [List.take_take, Nat.min_eq_left (by omega), List.append_assoc, List.take_append_drop]

/-- Receiving only flushes, as far as the transmit path is concerned. -/
theorem txView_receive (D : Dpdk σ) (H : Hasher) (dev : DpdkDevice)
    (w : World (σ × DriverLog)) :
    txView (DpdkDevice.receive D.recorded H dev w).2.1
        (DpdkDevice.receive D.recorded H dev w).2.2.ffi
      = txView dev w.ffi := by
  have hpoll : (pollRx D.recorded H dev w).2.ffi.2.accepted
      = (DpdkDevice.flushTx D.recorded dev w.ffi).2.2.accepted := by
    by_cases h : dev.rxBatch.toList = []
    · obtain ⟨batch, -, heq⟩ := pollRx_of_nil D.recorded H w h
      rw [heq]
      rfl
    · rw [pollRx_of_ne_nil D.recorded H w h]
  have hacc : (DpdkDevice.receive D.recorded H dev w).2.2.ffi.2.accepted
      = (DpdkDevice.flushTx D.recorded dev w.ffi).2.2.accepted := by
    obtain ⟨batch, -, heq⟩ := receive_spec D.recorded H dev w
    rw [heq]
    show (prepared D.recorded H dev w).2.ffi.2.accepted = _
    obtain hp | ⟨ourMac, ourIp, -, -, hp⟩ :=
      injectFromSharedCache_cases D.recorded (pollRx D.recorded H dev w).1
        (pollRx D.recorded H dev w).2
    · have hp' : prepared D.recorded H dev w = _ := hp
      rw [hp']
      exact hpoll
    · have hp' : prepared D.recorded H dev w = _ := hp
      rw [hp']
      exact injectEntries_ffi (Q := fun s : σ × DriverLog => s.2.accepted =
        (DpdkDevice.flushTx D.recorded dev w.ffi).2.2.accepted) D.recorded
        (fun _ hs => hs) (fun _ _ hs => hs) ourMac ourIp _ _ _ hpoll
  have h := txView_flushTx D dev w.ffi
  rw [txView, hacc, (receive_fst D.recorded H dev w).1]
  exact h

theorem txView_injectRxPacket (D : Dpdk σ) (dev : DpdkDevice) (s : σ × DriverLog)
    (d : Frame) :
    txView (DpdkDevice.injectRxPacket D.recorded dev s d).2.1
        (DpdkDevice.injectRxPacket D.recorded dev s d).2.2
      = txView dev s := by
  have hacc := injectRxPacket_ffi (Q := fun u : σ × DriverLog => u.2.accepted = s.2.accepted)
    D.recorded (fun _ hs => hs) (fun _ _ hs => hs) dev s d rfl
  obtain ⟨batch, hdev⟩ := injectRxPacket_fst D.recorded dev s d
  rw [txView, hacc, hdev]
  rfl

/-- Consuming a token appends the frame written, if it got an mbuf. -/
theorem txView_consume (D : Dpdk σ) {dev : DpdkDevice} {s : σ × DriverLog} {len : Nat}
    {f : SliceWriter} {r : Option Frame × DpdkDevice × (σ × DriverLog)}
    (h : consume D.recorded dev s len f = .ok r) :
    (txView r.2.1 r.2.2).map Mbuf.data = (txView dev s).map Mbuf.data ++ r.1.toList := by
  obtain ⟨s', ha, rfl⟩ | ⟨m, s', batch, ha, hb, rfl⟩ := consume_ok h
  · have hlog : s'.2 = s.2 := congrArg (fun p => p.2.2) ha.symm
    show (txView dev s').map Mbuf.data = _
    rw [txView, hlog]
    exact (List.append_nil _).symm
  · have hlog : s'.2 = s.2 := congrArg (fun p => p.2.2) ha.symm
    show ((s'.2.accepted ++ batch.toList).map Mbuf.data) = _
    rw [hlog, hb, ← List.append_assoc, List.map_append, List.map_cons, Mbuf.data_writeData]
    rfl

/-- Issuing a token flushes at most. -/
theorem txView_transmit (D : Dpdk σ) (dev : DpdkDevice) (s : σ × DriverLog) :
    txView (DpdkDevice.transmit D.recorded dev s).2.1 (DpdkDevice.transmit D.recorded dev s).2.2
      = txView dev s := by
  rw [DpdkDevice.transmit]
  split
  · rfl
  · exact txView_flushTx D dev s

/-- The view holds the frames written so far. -/
def Sys.TxFifo (s : Sys (σ × DriverLog)) : Prop :=
  (txView s.dev s.world.ffi).map Mbuf.data = s.written

/-- A step that leaves the view and the frames written alone. -/
theorem Sys.TxFifo.of_view {s s' : Sys (σ × DriverLog)} (hs : s.TxFifo)
    (hview : txView s'.dev s'.world.ffi = txView s.dev s.world.ffi)
    (hwritten : s'.written = s.written) : s'.TxFifo := by
  rw [TxFifo, hview, hwritten]
  exact hs

/-- **ONE STEP**: only consuming a token changes the view, and the frames written
    with it. -/
theorem Sys.txFifo_step (D : Dpdk σ) (H : Hasher) {s s' : Sys (σ × DriverLog)} {op : DevOp}
    (hs : s.TxFifo) (h : s.step D.recorded H op = .ok s') : s'.TxFifo := by
  have hnext := Sys.step_ok h
  cases op with
  | receive =>
      obtain ⟨-, rfl⟩ := hnext
      exact hs.of_view (txView_receive D H s.dev s.world) rfl
  | transmit =>
      obtain ⟨-, rfl⟩ := hnext
      exact hs.of_view (txView_transmit D s.dev s.world.ffi) rfl
  | consumeTx len f =>
      obtain ⟨-, r, hr, rfl⟩ := hnext
      show (txView r.2.1 r.2.2).map Mbuf.data = s.written ++ r.1.toList
      rw [txView_consume D hr, hs]
  | dropTx =>
      obtain ⟨-, rfl⟩ := hnext
      exact hs.of_view rfl rfl
  | releaseRx i =>
      obtain ⟨m, -, rfl⟩ := hnext
      exact hs.of_view rfl rfl
  | flushTx =>
      obtain ⟨-, rfl⟩ := hnext
      exact hs.of_view (txView_flushTx D s.dev s.world.ffi) rfl
  | injectRxPacket d =>
      obtain ⟨-, rfl⟩ := hnext
      exact hs.of_view (txView_injectRxPacket D s.dev s.world.ffi d) rfl
  | arpInsert ip mac =>
      obtain rfl := hnext
      exact hs.of_view rfl rfl

/-- **THE TRANSMIT PATH IS A FIFO**: in every run that does not panic, the
    packets the driver accepted followed by those in the batch hold exactly the
    frames written through tokens that got an mbuf, in the order written. -/
theorem tx_path_fifo (D : Dpdk σ) (H : Hasher) (dev : DpdkDevice) (s : σ)
    (arp : SharedArpCache) (hfresh : dev.txBatch.toList = []) (ops : List DevOp)
    (t : Sys (σ × DriverLog))
    (hrun : run (Sys.step D.recorded H) (Sys.start dev ⟨(s, ⟨[], []⟩), arp⟩) ops = .ok t) :
    (t.world.ffi.2.accepted ++ t.dev.txBatch.toList).map Mbuf.data = t.written := by
  have hstart : (Sys.start dev ⟨(s, ⟨[], []⟩), arp⟩ : Sys (σ × DriverLog)).TxFifo := by
    show (([] : List Mbuf) ++ dev.txBatch.toList).map Mbuf.data = []
    rw [hfresh]
    rfl
  exact run_invariant (I := Sys.TxFifo) (fun u op u' hu h => Sys.txFifo_step D H hu h) hstart hrun

/-- Two frames written, one of them accepted: the view is the two frames. -/
theorem tx_path_fifo_two_frames :
    ∃ t, run (Sys.step (scriptedNic [] 1).recorded Hasher.id)
        (Sys.start DpdkDevice.standard ⟨((), ⟨[], []⟩), .new⟩)
        (sendFrames 3 (fillWriter 1) 1 ++ sendFrames 3 (fillWriter 2) 1 ++ [.flushTx]) = .ok t ∧
      t.written = [[1, 1, 1], [2, 2, 2]] ∧
      (t.world.ffi.2.accepted ++ t.dev.txBatch.toList).map Mbuf.data = t.written := by
  refine ⟨_, rfl, rfl, ?_⟩
  exact tx_path_fifo (scriptedNic [] 1) Hasher.id DpdkDevice.standard () .new rfl
    (sendFrames 3 (fillWriter 1) 1 ++ sendFrames 3 (fillWriter 2) 1 ++ [.flushTx]) _ rfl

end DpdkNet
