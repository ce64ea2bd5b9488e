import DpdkNet.Device.TxPath

/-! # The reactor loop

    `runtime/reactor.rs`, `Reactor::run_with`: poll packets one by one until
    there is none or `batch_size` of them have been processed, let smoltcp send,
    yield, and look at the cancel flag.  The loop is one of the programs of
    `Device.Machine`, so whatever is known of every program's transmit path is
    known of it.

    smoltcp is what it does to the device.  It answers a packet with at most one
    frame, written through the token that came with the packet, and sends
    through tokens it asks for; an `Activity` says what, for one cycle of the
    loop.  The sockets are its own affair, `cleanup_orphaned` included.

    Frames are queued by both, and handed to the driver at the start of
    `receive`.  The last `receive` of a cycle comes before its egress, and when
    the loop is left nobody calls another one: `stop_hands_over_iff` says which
    cycles leave nothing behind. -/

namespace DpdkNet

open DpdkDevice Runs

variable {σ : Type}

/-- A frame that smoltcp writes through a transmit token. -/
structure TxWrite where
  len : Nat
  f : SliceWriter

/-- What becomes of a token: a frame is written, or the token is discarded. -/
def TxWrite.op : Option TxWrite → DevOp
  | some x => .consumeTx x.len x.f
  | none => .dropTx

/-- What happens around one poll for a packet: the entries other queues put into
    the shared cache before it, and the answer to the packet. -/
structure IngressPoll where
  inserts : List (Ipv4Addr × MacAddress)
  response : Option TxWrite

/-- What happens in one cycle of the loop: at its `k`-th poll, and at each token
    that the egress asks for. -/
structure Activity where
  poll : Nat → IngressPoll
  egress : List (Option TxWrite)

/-- The calls that end in `receive`. -/
def IngressPoll.receiving (p : IngressPoll) : List DevOp :=
  p.inserts.map (fun e => .arpInsert e.1 e.2) ++ [.receive]

namespace ReactorInner

/-- Process one incoming packet; `false` if there is none.  The mbuf is freed
    once smoltcp is done with it. -/
def pollIngressSingle (D : Dpdk σ) (H : Hasher) (p : IngressPoll) (s : Sys σ) :
    Except Halt (Bool × Sys σ) :=
  match run (Sys.step D H) s p.receiving with
  | .error e => .error e
  | .ok s =>
      if s.txToken then
        match run (Sys.step D H) s [TxWrite.op p.response, .releaseRx 0] with
        | .error e => .error e
        | .ok s => .ok (true, s)
      else .ok (false, s)

/-- Transmit queued packets: ask for a token, and use it if there is one. -/
def pollEgress (D : Dpdk σ) (H : Hasher) : List (Option TxWrite) → Sys σ → Except Halt (Sys σ)
  | [], s => .ok s
  | x :: xs, s =>
      match s.step D H .transmit with
      | .error e => .error e
      | .ok s =>
          if s.txToken then
            match s.step D H (TxWrite.op x) with
            | .error e => .error e
            | .ok s => pollEgress D H xs s
          else pollEgress D H xs s

end ReactorInner

open ReactorInner

namespace Reactor

/-- The ingress loop: it ends with the first poll that finds no packet or makes
    the number of packets reach the batch size. -/
def ingress (D : Dpdk σ) (H : Hasher) (batchSize : Nat) (act : Activity)
    (packetsProcessed : Nat) (s : Sys σ) : Except Halt (Sys σ) :=
  match pollIngressSingle D H (act.poll packetsProcessed) s with
  | .error e => .error e
  | .ok (false, s) => .ok s
  | .ok (true, s) =>
      if packetsProcessed + 1 ≥ batchSize then .ok s
      else ingress D H batchSize act (packetsProcessed + 1) s
  termination_by batchSize - packetsProcessed

/-- One cycle, from one look at the cancel flag to the next. -/
def cycle (D : Dpdk σ) (H : Hasher) (batchSize : Nat) (s : Sys σ) (act : Activity) :
    Except Halt (Sys σ) :=
  match ingress D H batchSize act 0 s with
  | .error e => .error e
  | .ok s => pollEgress D H act.egress s

/-- Run the reactor: one cycle after the other, as long as the flag is not set. -/
def runWith (D : Dpdk σ) (H : Hasher) (batchSize : Nat) (s : Sys σ) (acts : List Activity) :
    Except Halt (Sys σ) :=
  run (cycle D H batchSize) s acts

end Reactor

open Reactor

/-! ## One call

    What the loop's calls do between polls, when no token is out. -/

/-- No token is out. -/
def Sys.Idle (s : Sys σ) : Prop := s.txToken = false ∧ s.rxTokens = []

/-- The driver accepts every packet it is offered. -/
def Dpdk.AcceptsAll (D : Dpdk σ) : Prop := ∀ s ps, (D.ethTxBurst s ps).1 = ps.length

theorem Dpdk.AcceptsAll.flushTx {D : Dpdk σ} (hD : D.AcceptsAll) (dev : DpdkDevice) (s : σ) :
    (DpdkDevice.flushTx D dev s).1.txBatch.toList = dev.txBatch.toList.drop 64 := by
  by_cases h : dev.txBatch.toList = []
  · rw [flushTx_of_nil D s h, h]
    rfl
  · rw [flushTx_of_ne_nil D s h, flushAccepts, if_neg h, hD, List.length_take]
    show dev.txBatch.toList.drop (min 64 dev.txBatch.toList.length) = _
    rcases Nat.le_total 64 dev.txBatch.toList.length with hle | hle
    · rw [Nat.min_eq_left hle]
    · rw [Nat.min_eq_right hle, List.drop_length, List.drop_eq_nil_of_le hle]

/-- What a token leads to: nothing but a frame that gets an mbuf changes the
    batch. -/
theorem Sys.op_step (D : Dpdk σ) (H : Hasher) {s : Sys σ} (x : Option TxWrite)
    (htok : s.txToken = true) (hroom : s.dev.txBatch.len < 256) :
    ∃ t, s.step D H (TxWrite.op x) = .ok t ∧ t.txToken = false ∧ t.rxTokens = s.rxTokens ∧
      ((x = none ∧ t.dev = s.dev ∧ t.world.ffi = s.world.ffi) ∨
       (x.isSome = true ∧ (D.pktmbufAlloc s.world.ffi).1 = none ∧ t.dev = s.dev ∧
          t.world.ffi = (D.pktmbufAlloc s.world.ffi).2) ∨
       (x.isSome = true ∧ (D.pktmbufAlloc s.world.ffi).1 ≠ none ∧
          ∃ m, t.dev.txBatch.toList = s.dev.txBatch.toList ++ [m])) := by
  cases x with
  | none =>
      refine ⟨{ s with txToken := false }, ?_, rfl, rfl, Or.inl ⟨rfl, rfl, rfl⟩⟩
      rw [TxWrite.op, Sys.step, if_pos htok]
  | some x =>
      rcases ha : D.pktmbufAlloc s.world.ffi with ⟨_ | m, s'⟩
      · have hc : consume D s.dev s.world.ffi x.len x.f = .ok (none, s.dev, s') := by
          simp only [consume, ha]
        refine ⟨{ s with
            world := { s.world with ffi := s' }
            txToken := false
            written := s.written ++ [] },
          ?_, rfl, rfl, Or.inr (Or.inl ⟨rfl, rfl, rfl, rfl⟩)⟩
        rw [TxWrite.op, Sys.step, if_pos htok, hc]
        rfl
      · obtain ⟨batch, hpush, hbatch⟩ :=
          ArrayVec.tryPush_of_lt ((m.extend x.len).writeData x.f) hroom
        have hc : consume D s.dev s.world.ffi x.len x.f =
            .ok (some (x.f.write (m.extend x.len).data), { s.dev with txBatch := batch }, s') := by
          simp only [consume, ha, hpush]
        refine ⟨{ s with
            dev := { s.dev with txBatch := batch }
            world := { s.world with ffi := s' }
            txToken := false
            written := s.written ++ [x.f.write (m.extend x.len).data] },
          ?_, rfl, rfl, Or.inr (Or.inr ⟨rfl, Option.some_ne_none m, _, hbatch⟩)⟩
        rw [TxWrite.op, Sys.step, if_pos htok, hc]
        rfl

/-- Entries put into the cache by others change the cache only. -/
theorem run_inserts (D : Dpdk σ) (H : Hasher) :
    ∀ (es : List (Ipv4Addr × MacAddress)) (s : Sys σ) (ops : List DevOp),
      ∃ arp, run (Sys.step D H) s (es.map (fun e => .arpInsert e.1 e.2) ++ ops)
        = run (Sys.step D H) { s with world := { s.world with arp } } ops := by
  intro es
  induction es with
  | nil => intro s ops; exact ⟨s.world.arp, rfl⟩
  | cons e es ih =>
      intro s ops
      obtain ⟨arp, h⟩ := ih { s with world := { s.world with
        arp := s.world.arp.insert H e.1 e.2 } } ops
      exact ⟨arp, h⟩

/-- A poll begins by flushing 64 packets; what it finds decides about the
    tokens. -/
theorem Sys.Idle.run_receiving {D : Dpdk σ} (hD : D.AcceptsAll) (H : Hasher) {s : Sys σ}
    (hs : s.Idle) (p : IngressPoll) :
    ∃ r, run (Sys.step D H) s p.receiving = .ok r ∧
      r.dev.txBatch.toList = s.dev.txBatch.toList.drop 64 ∧
      ((r.txToken = false ∧ r.rxTokens = []) ∨ (r.txToken = true ∧ ∃ m, r.rxTokens = [m])) := by
  obtain ⟨arp, hrun⟩ := run_inserts D H p.inserts s [.receive]
  have hflush : (DpdkDevice.receive D H s.dev { s.world with arp }).2.1.txBatch.toList
      = s.dev.txBatch.toList.drop 64 := by
    rw [(receive_fst D H s.dev _).1]
    exact hD.flushTx s.dev s.world.ffi
  have hstep : Sys.step D H { s with world := { s.world with arp } } .receive = .ok _ :=
    if_neg (Bool.not_eq_true _ ▸ hs.1)
  refine ⟨_, hrun.trans ((run_cons_ok hstep).trans (run_nil _)), hflush, ?_⟩
  show (_ ∧ s.rxTokens ++ _ = []) ∨ (_ ∧ ∃ m, s.rxTokens ++ _ = [m])
  rw [hs.2]
  rcases (DpdkDevice.receive D H s.dev { s.world with arp }).1 with _ | m
  · exact Or.inl ⟨rfl, rfl⟩
  · exact Or.inr ⟨rfl, m, rfl⟩

/-- The poll finds a packet, and the answer to it gets an mbuf. -/
def IngressPoll.Answered (D : Dpdk σ) (H : Hasher) (p : IngressPoll) (s : Sys σ) : Prop :=
  p.response.isSome = true ∧
    ∃ r, run (Sys.step D H) s p.receiving = .ok r ∧ r.txToken = true ∧
      (D.pktmbufAlloc r.world.ffi).1 ≠ none

/-- **ONE POLL**: it goes through, and leaves what the flush left and the answer,
    if there is one. -/
theorem Sys.Idle.pollIngressSingle {D : Dpdk σ} (hD : D.AcceptsAll) (H : Hasher) {s : Sys σ}
    (hs : s.Idle) (p : IngressPoll) :
    ∃ found t, ReactorInner.pollIngressSingle D H p s = .ok (found, t) ∧ t.Idle ∧
      (found = false → ¬ p.Answered D H s) ∧
      ∃ fs, t.dev.txBatch.toList = s.dev.txBatch.toList.drop 64 ++ fs ∧ fs.length ≤ 1 ∧
        (fs = [] ↔ ¬ p.Answered D H s) := by
  obtain ⟨r, hrun, hbatch, ⟨htok, hrx⟩ | ⟨htok, m, hrx⟩⟩ := hs.run_receiving hD H p
  · -- no packet
    have hno : ¬ p.Answered D H s := by
      rintro ⟨-, r', hrun', htok', -⟩
      rw [hrun] at hrun'
      cases hrun'
      rw [htok] at htok'
      cases htok'
    refine ⟨false, r, ?_, ⟨htok, hrx⟩, fun _ => hno, [], ?_, Nat.zero_le _, iff_of_true rfl hno⟩
    · rw [ReactorInner.pollIngressSingle, hrun]
      simp only [htok]
      rfl
    · rw [hbatch, List.append_nil]
  · -- a packet: its token has room after the flush
    have hroom : r.dev.txBatch.len < 256 := by
      have hle := s.dev.txBatch.length_le
      show r.dev.txBatch.toList.length < 256
      rw [hbatch, List.length_drop]
      omega
    obtain ⟨u, hu, htok', hrx', hcase⟩ := Sys.op_step D H p.response htok hroom
    rw [hrx] at hrx'
    have hget : u.rxTokens[0]? = some m := by rw [hrx']; rfl
    have hfree : u.step D H (.releaseRx 0) = .ok { u with
        world := { u.world with ffi := D.pktmbufFree u.world.ffi m }
        rxTokens := u.rxTokens.eraseIdx 0 } := by
      rw [Sys.step, hget]
    have hans : p.Answered D H s ↔ p.response.isSome = true ∧
        (D.pktmbufAlloc r.world.ffi).1 ≠ none := by
      constructor
      · rintro ⟨hsome, r', hrun', -, halloc⟩
        rw [hrun] at hrun'
        cases hrun'
        exact ⟨hsome, halloc⟩
      · rintro ⟨hsome, halloc⟩
        exact ⟨hsome, r, hrun, htok, halloc⟩
    refine ⟨true, { u with
        world := { u.world with ffi := D.pktmbufFree u.world.ffi m }
        rxTokens := u.rxTokens.eraseIdx 0 }, ?_, ⟨htok', by rw [hrx']; rfl⟩,
      fun h => Bool.noConfusion h, ?_⟩
    · rw [ReactorInner.pollIngressSingle, hrun]
      simp only [htok, if_true, run_cons_ok hu, run_cons_ok hfree, run_nil]
    · rw [hans, ← hbatch]
      obtain ⟨hx, hdev, -⟩ | ⟨-, halloc, hdev, -⟩ | ⟨hsome, halloc, f, hdev⟩ := hcase
      · refine ⟨[], by rw [hdev, List.append_nil], Nat.zero_le _, iff_of_true rfl ?_⟩
        rintro ⟨hsome, -⟩
        rw [hx] at hsome
        cases hsome
      · exact ⟨[], by rw [hdev, List.append_nil], Nat.zero_le _,
          iff_of_true rfl (fun h => h.2 halloc)⟩
      · exact ⟨[f], hdev, Nat.le_refl _, iff_of_false (List.cons_ne_nil f [])
          (fun h => h ⟨hsome, halloc⟩)⟩

/-- With such a driver there always is a transmit token, and asking for one does
    not empty the batch. -/
theorem Dpdk.AcceptsAll.transmit {D : Dpdk σ} (hD : D.AcceptsAll) (dev : DpdkDevice) (s : σ) :
    ∃ dev' s', DpdkDevice.transmit D dev s = (true, dev', s') ∧ dev'.txBatch.len < 256 ∧
      ((dev' = dev ∧ s' = s) ∨ (dev.txBatch.toList ≠ [] ∧ dev'.txBatch.toList ≠ [])) := by
  by_cases hlt : dev.txBatch.len < 256
  · exact ⟨dev, s, by rw [DpdkDevice.transmit, if_pos hlt], hlt, Or.inl ⟨rfl, rfl⟩⟩
  · have hfull : dev.txBatch.toList.length = 256 :=
      Nat.le_antisymm dev.txBatch.length_le (Nat.not_lt.mp hlt)
    have hlen : (DpdkDevice.flushTx D dev s).1.txBatch.toList.length = 192 := by
      rw [hD.flushTx, List.length_drop, hfull]
    have hroom : (DpdkDevice.flushTx D dev s).1.txBatch.len < 256 := by
      show (DpdkDevice.flushTx D dev s).1.txBatch.toList.length < 256
      omega
    refine ⟨(DpdkDevice.flushTx D dev s).1, (DpdkDevice.flushTx D dev s).2, ?_, hroom,
      Or.inr ⟨?_, ?_⟩⟩
    · rw [DpdkDevice.transmit, if_neg hlt]
      simp only [hroom, decide_true]
    · rintro hnil
      rw [hnil] at hfull
      cases hfull
    · rintro hnil
      rw [hnil] at hlen
      cases hlen

/-- None of the frames gets an mbuf. -/
def Unwritten (D : Dpdk σ) : σ → List (Option TxWrite) → Prop
  | _, [] => True
  | s, none :: xs => Unwritten D s xs
  | s, some _ :: xs => (D.pktmbufAlloc s).1 = none ∧ Unwritten D (D.pktmbufAlloc s).2 xs

/-- **THE EGRESS**: it goes through, and leaves the batch empty if it was and no
    frame got an mbuf. -/
theorem Sys.Idle.pollEgress {D : Dpdk σ} (hD : D.AcceptsAll) (H : Hasher) :
    ∀ (xs : List (Option TxWrite)) {s : Sys σ}, s.Idle →
      ∃ t, ReactorInner.pollEgress D H xs s = .ok t ∧ t.Idle ∧
        (t.dev.txBatch.toList = [] ↔
          s.dev.txBatch.toList = [] ∧ Unwritten D s.world.ffi xs) := by
  intro xs
  induction xs with
  | nil => intro s hs; exact ⟨s, rfl, hs, (and_iff_left trivial).symm⟩
  | cons x xs ih =>
      intro s hs
      obtain ⟨dev, ffi, htx, hroom, hsame⟩ := hD.transmit s.dev s.world.ffi
      have hstep : s.step D H .transmit =
          .ok { s with dev, world := { s.world with ffi }, txToken := true } := by
        rw [Sys.step, hs.1, htx]
        rfl
      obtain ⟨u, hu, htok, hrx, hcase⟩ := Sys.op_step D H x
        (s := { s with dev, world := { s.world with ffi }, txToken := true }) rfl hroom
      obtain ⟨t, ht, hidle, hiff⟩ := ih (s := u) ⟨htok, hrx.trans hs.2⟩
      refine ⟨t, ?_, hidle, hiff.trans ?_⟩
      · simp only [ReactorInner.pollEgress, hstep, hu]
        exact ht
      · obtain ⟨rfl, rfl⟩ | ⟨hne, hne'⟩ := hsame
        · -- the batch had room: the token changed nothing
          obtain ⟨rfl, hdev, hffi⟩ | ⟨hsome, halloc, hdev, hffi⟩ | ⟨hsome, halloc, f, hdev⟩ := hcase
          · rw [hdev, hffi]
            exact Iff.rfl
          · obtain ⟨y, rfl⟩ := Option.isSome_iff_exists.mp hsome
            rw [hdev, hffi]
            exact and_congr_right (fun _ => (and_iff_right halloc).symm)
          · obtain ⟨y, rfl⟩ := Option.isSome_iff_exists.mp hsome
            rw [hdev]
            exact iff_of_false (fun h => List.append_ne_nil_of_right_ne_nil _ (List.cons_ne_nil f [])
              h.1) (fun h => halloc h.2.1)
        · -- it was full, and 192 packets are left
          have hstay : u.dev.txBatch.toList ≠ [] := by
            obtain ⟨-, hdev, -⟩ | ⟨-, -, hdev, -⟩ | ⟨-, -, f, hdev⟩ := hcase
            · rw [hdev]
              exact hne'
            · rw [hdev]
              exact hne'
            · rw [hdev]
              exact List.append_ne_nil_of_left_ne_nil hne' [f]
          exact iff_of_false (fun h => hstay h.1) (fun h => hne h.1)

/-! ## One cycle -/

namespace Reactor

/-- The ingress loop reaches the batch size, and the packet with which it does is
    answered. -/
def LastAnswered (D : Dpdk σ) (H : Hasher) (batchSize : Nat) (act : Activity) (k : Nat)
    (s : Sys σ) : Prop :=
  if k + 1 ≥ batchSize then (act.poll k).Answered D H s
  else ∃ t, pollIngressSingle D H (act.poll k) s = .ok (true, t) ∧
    LastAnswered D H batchSize act (k + 1) t
  termination_by batchSize - k

/-- The cycle writes nothing after its last `receive`: neither an answer to the
    last packet nor a frame of the egress gets an mbuf. -/
def Quiet (D : Dpdk σ) (H : Hasher) (batchSize : Nat) (s : Sys σ) (act : Activity) : Prop :=
  ¬ LastAnswered D H batchSize act 0 s ∧
    ∀ t, ingress D H batchSize act 0 s = .ok t → Unwritten D t.world.ffi act.egress

/-- **THE INGRESS LOOP**: every poll hands over the answer to the packet before,
    so that only the answer to the last one can be left. -/
theorem ingress_idle {D : Dpdk σ} (hD : D.AcceptsAll) (H : Hasher) (batchSize : Nat)
    (act : Activity) :
    ∀ (n k : Nat) {s : Sys σ}, batchSize - k = n → s.Idle →
      ∃ t, ingress D H batchSize act k s = .ok t ∧ t.Idle ∧
        (s.dev.txBatch.toList.length ≤ 64 →
          (t.dev.txBatch.toList = [] ↔ ¬ LastAnswered D H batchSize act k s)) := by
  intro n
  induction n using Nat.strongRecOn with
  | ind n ih =>
      rintro k s rfl hs
      obtain ⟨found, u, hpoll, hidle, hnone, fs, hbatch, hfs, hans⟩ :=
        hs.pollIngressSingle hD H (act.poll k)
      have hflushed : s.dev.txBatch.toList.length ≤ 64 → u.dev.txBatch.toList = fs := by
        intro hle
        rw [hbatch, List.drop_eq_nil_of_le hle, List.nil_append]
      rw [ingress, LastAnswered, hpoll]
      by_cases hfull : k + 1 ≥ batchSize
      · refine ⟨u, ?_, hidle, fun hle => ?_⟩
        · cases found with
          | false => rfl
          | true => exact if_pos hfull
        · rw [if_pos hfull, hflushed hle]
          exact hans
      · rw [if_neg hfull]
        cases found with
        | false =>
            -- no packet is left to be answered
            refine ⟨u, rfl, hidle, fun hle => ?_⟩
            rw [hflushed hle]
            refine iff_of_true (hans.mpr (hnone rfl)) ?_
            rintro ⟨t, ht, -⟩
            cases ht
        | true =>
            obtain ⟨t, ht, hidle', hiff⟩ := ih (batchSize - (k + 1)) (by omega) (k + 1) rfl hidle
            refine ⟨t, (if_neg hfull).trans ht, hidle', fun hle => ?_⟩
            have hshort : u.dev.txBatch.toList.length ≤ 64 := by
              rw [hflushed hle]
              omega
            refine (hiff hshort).trans (not_congr ?_)
            constructor
            · intro hlast
              exact ⟨u, rfl, hlast⟩
            · rintro ⟨u', hu', hlast⟩
              cases hu'
              exact hlast

/-- **ONE CYCLE**: it goes through, and leaves an empty batch empty exactly if it
    writes nothing after its last `receive`. -/
theorem cycle_idle {D : Dpdk σ} (hD : D.AcceptsAll) (H : Hasher) (batchSize : Nat)
    (act : Activity) {s : Sys σ} (hs : s.Idle) :
    ∃ t, cycle D H batchSize s act = .ok t ∧ t.Idle ∧
      (s.dev.txBatch.toList = [] →
        (t.dev.txBatch.toList = [] ↔ Quiet D H batchSize s act)) := by
  obtain ⟨u, hu, hidle, hin⟩ := ingress_idle hD H batchSize act batchSize 0 rfl hs
  obtain ⟨t, ht, hidle', hout⟩ := hidle.pollEgress hD H act.egress
  refine ⟨t, ?_, hidle', fun hnil => ?_⟩
  · rw [cycle, hu]
    exact ht
  · have hshort : s.dev.txBatch.toList.length ≤ 64 := by
      rw [hnil]
      exact Nat.zero_le _
    rw [hout, hin hshort, Quiet]
    refine and_congr_right fun _ => ?_
    constructor
    · intro hun t' ht'
      rw [hu] at ht'
      cases ht'
      exact hun
    · intro h
      exact h u hu

/-! ## Whole runs

    A run of the reactor is a run of the machine below it. -/

/-- The state is reached by calls of the device. -/
def Reaches (D : Dpdk σ) (H : Hasher) (s t : Sys σ) : Prop :=
  ∃ ops, run (Sys.step D H) s ops = .ok t

theorem Reaches.trans {D : Dpdk σ} {H : Hasher} {s t u : Sys σ} (h : Reaches D H s t)
    (h' : Reaches D H t u) : Reaches D H s u := by
  obtain ⟨ops, hops⟩ := h
  obtain ⟨ops', hops'⟩ := h'
  exact ⟨ops ++ ops', (run_append hops).trans hops'⟩

theorem Reaches.step {D : Dpdk σ} {H : Hasher} {s t : Sys σ} {op : DevOp}
    (h : s.step D H op = .ok t) : Reaches D H s t :=
  ⟨[op], (run_cons_ok h).trans (run_nil t)⟩

theorem pollIngressSingle_reaches {D : Dpdk σ} {H : Hasher} {p : IngressPoll} {s : Sys σ}
    {r : Bool × Sys σ} (h : pollIngressSingle D H p s = .ok r) : Reaches D H s r.2 := by
  rw [pollIngressSingle] at h
  split at h
  · cases h
  · rename_i u hu
    split at h
    · split at h
      · cases h
      · rename_i t ht
        cases h
        exact Reaches.trans ⟨_, hu⟩ ⟨_, ht⟩
    · cases h
      exact ⟨_, hu⟩

theorem pollEgress_reaches {D : Dpdk σ} {H : Hasher} :
    ∀ {xs : List (Option TxWrite)} {s t : Sys σ}, pollEgress D H xs s = .ok t → Reaches D H s t := by
  intro xs
  induction xs with
  | nil =>
      intro s t h
      cases h
      exact ⟨[], rfl⟩
  | cons x xs ih =>
      intro s t h
      rw [pollEgress] at h
      split at h
      · cases h
      · rename_i u hu
        split at h
        · split at h
          · cases h
          · rename_i v hv
            exact (Reaches.step hu).trans ((Reaches.step hv).trans (ih h))
        · exact (Reaches.step hu).trans (ih h)

theorem ingress_reaches {D : Dpdk σ} {H : Hasher} {batchSize : Nat} {act : Activity} {k : Nat}
    {s t : Sys σ} (h : ingress D H batchSize act k s = .ok t) : Reaches D H s t := by
  fun_induction ingress D H batchSize act k s with
  | case1 k s e he => cases h
  | case2 k s u hu =>
      cases h
      exact pollIngressSingle_reaches hu
  | case3 k s u hu hfull =>
      cases h
      exact pollIngressSingle_reaches hu
  | case4 k s u hu hfull ih => exact (pollIngressSingle_reaches hu).trans (ih h)

theorem cycle_reaches {D : Dpdk σ} {H : Hasher} {batchSize : Nat} {act : Activity}
    {s t : Sys σ} (h : cycle D H batchSize s act = .ok t) : Reaches D H s t := by
  rw [cycle] at h
  split at h
  · cases h
  · rename_i u hu
    exact (ingress_reaches hu).trans (pollEgress_reaches h)

/-- Every frame written has been handed to the driver. -/
def HandedOver (s : Sys (σ × DriverLog)) : Prop :=
  s.world.ffi.2.accepted.map Mbuf.data = s.written ∧ s.dev.txBatch.toList = []

theorem handedOver_iff {s : Sys (σ × DriverLog)} (hs : s.TxFifo) :
    HandedOver s ↔ s.dev.txBatch.toList = [] := by
  refine ⟨fun h => h.2, fun hnil => ⟨?_, hnil⟩⟩
  rw [← hs, txView, hnil, List.append_nil]

/-- What every cycle keeps: the frames written are with the driver or in the
    batch, and no token is out. -/
theorem cycle_keeps {D : Dpdk σ} (hD : D.recorded.AcceptsAll) (H : Hasher) (batchSize : Nat)
    (s : Sys (σ × DriverLog)) (act : Activity) (hs : s.TxFifo ∧ s.Idle) :
    ∃ t, cycle D.recorded H batchSize s act = .ok t ∧ t.TxFifo ∧ t.Idle := by
  obtain ⟨t, ht, hidle, -⟩ := cycle_idle hD H batchSize act hs.2
  obtain ⟨ops, hops⟩ := cycle_reaches ht
  exact ⟨t, ht, run_invariant (I := Sys.TxFifo) (fun u op u' hu h => Sys.txFifo_step D H hu h) hs.1
    hops, hidle⟩

/-- **WHEN STOPPING HANDS EVERYTHING OVER**: with a driver that accepts every
    packet, whenever the cancel flag is seen, the reactor returns with all its
    frames handed to the driver, exactly if no cycle writes anything after its
    last `receive`. -/
theorem stop_hands_over_iff (D : Dpdk σ) (hD : D.AcceptsAll) (H : Hasher) (batchSize : Nat)
    (dev : DpdkDevice) (hfresh : dev.txBatch.toList = []) (s : σ) (arp : SharedArpCache)
    (acts : List Activity) :
    (∀ bs, bs <+: acts → ∃ t,
        runWith D.recorded H batchSize (Sys.start dev ⟨(s, ⟨[], []⟩), arp⟩) bs = .ok t ∧
          HandedOver t) ↔
      Along (cycle D.recorded H batchSize) (Quiet D.recorded H batchSize)
        (Sys.start dev ⟨(s, ⟨[], []⟩), arp⟩) acts := by
  have hD' : D.recorded.AcceptsAll := fun s ps => hD s.1 ps
  have hstart : (Sys.start dev ⟨(s, ⟨[], []⟩), arp⟩ : Sys (σ × DriverLog)).TxFifo ∧
      (Sys.start dev ⟨(s, ⟨[], []⟩), arp⟩ : Sys (σ × DriverLog)).Idle := by
    refine ⟨?_, rfl, rfl⟩
    show (([] : List Mbuf) ++ dev.txBatch.toList).map Mbuf.data = []
    rw [hfresh]
    rfl
  have hreturns := run_total (cycle_keeps hD' H batchSize)
  -- the cycles keep the first two parts, and the third if they are quiet
  refine Iff.trans ?_ (always_iff_along
    (I := fun u => (u.TxFifo ∧ u.Idle) ∧ u.dev.txBatch.toList = []) ?_ ?_ acts _ ⟨hstart, hfresh⟩)
  · refine forall_congr' fun bs => forall_congr' fun _ => ?_
    obtain ⟨t, ht, hkept⟩ := hreturns bs _ hstart
    constructor
    · rintro ⟨u, hu, hover⟩ u' hu'
      have hruns : run (cycle D.recorded H batchSize) _ bs = .ok u := hu
      rw [ht] at hruns hu'
      cases hruns
      cases hu'
      exact ⟨hkept, hover.2⟩
    · intro h
      exact ⟨t, ht, (handedOver_iff hkept.1).mpr (h t ht).2⟩
  · rintro u act u' ⟨hkept, hnil⟩ hu'
    obtain ⟨t, ht, hidle, hiff⟩ := cycle_idle hD' H batchSize act hkept.2
    obtain ⟨t', ht', hkept'⟩ := cycle_keeps hD' H batchSize u act hkept
    rw [ht] at hu' ht'
    cases hu'
    cases ht'
    exact (and_iff_right hkept').trans (hiff hnil)
  · rintro u act e ⟨hkept, -⟩ he
    obtain ⟨t, ht, -⟩ := cycle_keeps hD' H batchSize u act hkept
    rw [ht] at he
    cases he

/-- A driver that accepts everything and has the packets `ps` at every poll. -/
def acceptingNic (ps : List Mbuf) : Dpdk Unit :=
  { scriptedNic ps 0 with
    ethTxBurst := fun s qs => (qs.length, s)
    tx_le := fun _ qs => Nat.le_refl qs.length }

theorem acceptingNic_acceptsAll (ps : List Mbuf) : (acceptingNic ps).AcceptsAll :=
  fun _ _ => rfl

/-- The first packet of a cycle is answered, nothing else is sent. -/
def answerFirst : Activity where
  poll k := ⟨[], if k = 0 then some ⟨3, fillWriter 1⟩ else none⟩
  egress := []

/-- Two packets processed, the first of them answered: the second poll hands the
    answer over. -/
theorem answer_handed_over :
    ∃ t, runWith (acceptingNic [blankMbuf 7]).recorded Hasher.id 2
        (Sys.start DpdkDevice.standard ⟨((), ⟨[], []⟩), .new⟩) [answerFirst] = .ok t ∧
      HandedOver t := by
  refine (stop_hands_over_iff (acceptingNic [blankMbuf 7]) (acceptingNic_acceptsAll _) Hasher.id 2
    DpdkDevice.standard rfl () .new [answerFirst]).mpr ⟨⟨?_, fun t _ => trivial⟩, fun _ _ => trivial⟩
    [answerFirst] (List.prefix_refl _)
  rw [LastAnswered, if_neg (by decide)]
  rintro ⟨t, -, hlast⟩
  rw [LastAnswered, if_pos (by decide)] at hlast
  cases hlast.1

/-- Nothing is received, and one frame is sent. -/
def sendOne : Activity where
  poll _ := ⟨[], none⟩
  egress := [some ⟨3, fillWriter 1⟩]

/-- The frame is in the batch when the reactor returns, and the driver has not
    seen it. -/
theorem sent_frame_left_behind :
    (acceptingNic []).AcceptsAll ∧
    ∃ t, runWith (acceptingNic []).recorded Hasher.id 32
        (Sys.start DpdkDevice.standard ⟨((), ⟨[], []⟩), .new⟩) [sendOne] = .ok t ∧
      t.written = [[1, 1, 1]] ∧ t.world.ffi.2.accepted = [] ∧ t.dev.txBatch.len = 1 ∧
      ¬ HandedOver t := by
  have hcycle : ∃ t, cycle (acceptingNic []).recorded Hasher.id 32
      (Sys.start DpdkDevice.standard ⟨((), ⟨[], []⟩), .new⟩) sendOne = .ok t ∧
      t.written = [[1, 1, 1]] ∧ t.world.ffi.2.accepted = [] ∧ t.dev.txBatch.len = 1 := by
    rw [cycle, ingress]
    exact ⟨_, rfl, rfl, rfl, rfl⟩
  obtain ⟨t, ht, hwritten, haccepted, hlen⟩ := hcycle
  refine ⟨acceptingNic_acceptsAll [], t, (run_cons_ok ht).trans (run_nil t), hwritten, haccepted,
    hlen, ?_⟩
  rintro ⟨-, hnil⟩
  rw [ArrayVec.len, hnil] at hlen
  cases hlen

end Reactor

end DpdkNet
