import DpdkNet.Lib.Runs
import DpdkNet.Udp.Flush
import DpdkNet.Udp.SendSafety

/-! # The traffic of an mbuf UDP socket

    `dpdk-net-test/src/udp.rs` over whole runs: a program binds the socket, sends,
    flushes, polls and receives as it likes, and the driver takes and returns what
    it likes.

    What is sent goes through a queue.  What is received goes through a stack:
    `poll` pushes the packets of a burst in their order and `recv_from` pops the
    last one.  Nothing is lost or doubled on either way (`socket_frames_accounted`),
    but packets come back in the order of their arrival only if there is never a
    choice (`received_in_order_iff`).  From one socket to another a datagram keeps
    its data and loses its sender (`taken_sender_is_data`). -/

namespace DpdkNet

namespace MbufUdp

open Runs Wire

variable {σ : Type}

namespace UdpSocket

/-- Set the local MAC address for outgoing packets. -/
def setLocalMac (sock : UdpSocket) (mac : MacAddress) : UdpSocket := { sock with localMac := mac }

/-- Attach the queues and the mempool, all at once. -/
def attachQueues (sock : UdpSocket) : UdpSocket := { sock with txq := true, mempool := true }

/-- Fill the RX batch from the RX queue, which is there if the TX queue is. -/
def poll (D : Dpdk σ) (sock : UdpSocket) (s : σ) : Except SocketError Nat × UdpSocket × σ :=
  if sock.txq then
    let got := RxQueue.rx D s sock.rxBatch
    (.ok got.1, { sock with rxBatch := got.2.1 }, got.2.2)
  else (.error .queueError, sock, s)

end UdpSocket

/-! ## Runs -/

/-- A call of the program. -/
inductive SocketOp where
  | bind (endpoint : Endpoint)
  | setLocalMac (mac : MacAddress)
  | sendTo (data : List UInt8) (remoteEndpoint : Endpoint) (remoteMac : MacAddress)
  | flush (fuel : Nat)
  | poll
  | recvFrom

/-- A datagram that was queued, and the addresses at that time. -/
structure Outgoing where
  localMac : MacAddress
  remoteMac : MacAddress
  localEndpoint : Option Endpoint
  remoteEndpoint : Endpoint
  data : List UInt8

/-- A packet that `recv_from` took from the batch, the endpoint the socket was bound
    to, and the sender it returned, if it did. -/
structure Incoming where
  mbuf : Mbuf
  localEndpoint : Option Endpoint
  sender : Option Endpoint

/-- The socket and its driver; the datagrams that were queued, and the packets that
    were taken. -/
structure Traffic (σ : Type) where
  sock : UdpSocket
  driver : σ × DriverLog
  queued : List Outgoing
  taken : List Incoming

/-- Why a run ends. -/
inductive Stop where
  /-- `send_to` panics. -/
  | panicked
  /-- `flush` has not returned. -/
  | flushing

namespace Traffic

/-- A new socket with its queues, and a driver that has done nothing. -/
def start (s : σ) : Traffic σ := ⟨UdpSocket.new.attachQueues, (s, ⟨[], []⟩), [], []⟩

/-- What has been received. -/
def received (t : Traffic σ) : List Mbuf := t.driver.2.bursts.flatten

def outgoing (t : Traffic σ) (data : List UInt8) (remoteEndpoint : Endpoint)
    (remoteMac : MacAddress) : Outgoing :=
  ⟨t.sock.localMac, remoteMac, t.sock.localEndpoint, remoteEndpoint, data⟩

def step (D : Dpdk σ) (t : Traffic σ) : SocketOp → Except Stop (Traffic σ)
  | .bind endpoint =>
      match t.sock.bind endpoint with
      | .ok sock => .ok { t with sock }
      | .error _ => .ok t
  | .setLocalMac mac => .ok { t with sock := t.sock.setLocalMac mac }
  | .sendTo data remoteEndpoint remoteMac =>
      match t.sock.sendTo D.recorded t.driver data remoteEndpoint remoteMac with
      | none => .error .panicked
      | some (.ok _, sock, driver) =>
          .ok { t with
            sock := sock
            driver := driver
            queued := t.queued ++ [t.outgoing data remoteEndpoint remoteMac] }
      | some (.error _, sock, driver) => .ok { t with sock, driver }
  | .flush fuel =>
      match t.sock.flush D.recorded fuel t.driver with
      | none => .error .flushing
      | some (_, sock, driver) => .ok { t with sock, driver }
  | .poll =>
      match t.sock.poll D.recorded t.driver with
      | (_, sock, driver) => .ok { t with sock, driver }
  | .recvFrom =>
      match t.sock.recvFrom D.recorded t.driver with
      | (.ok (mbuf, sender), sock, driver) =>
          .ok { t with
            sock := sock
            driver := driver
            taken := t.taken ++ [⟨mbuf, t.sock.localEndpoint, some sender⟩] }
      | (.error _, sock, driver) =>
          -- the packet that was dropped, if there was one
          .ok { t with
            sock := sock
            driver := driver
            taken := t.taken ++ (t.sock.rxBatch.toList.drop sock.rxBatch.len).map
              fun mbuf => ⟨mbuf, t.sock.localEndpoint, none⟩ }

end Traffic

/-! ## What the calls do -/

namespace UdpSocket

/-- **SENDING**: refused, and then nothing has changed but the driver, or a frame
    at the back of the batch. -/
theorem sendTo_cases {D : Dpdk σ} {sock sock' : UdpSocket} {s s' : σ × DriverLog}
    {data : List UInt8} {remoteEndpoint : Endpoint} {remoteMac : MacAddress}
    {r : Except SocketError Unit}
    (h : sendTo D.recorded sock s data remoteEndpoint remoteMac = some (r, sock', s')) :
    s'.2 = s.2 ∧
      ((∃ e, r = .error e ∧ sock' = sock) ∨
        (r = .ok () ∧ ∃ localEndpoint f tail, sock.localEndpoint = some localEndpoint ∧
          sock'.rxBatch = sock.rxBatch ∧ sock'.txBatch.toList = sock.txBatch.toList ++ [f] ∧
          42 + data.length ≤ u16Max ∧ tail.length = 16 ∧
          f.data = sentFrame sock.localMac remoteMac localEndpoint remoteEndpoint data tail)) := by
  cases hbound : sock.localEndpoint with
  | none =>
      simp only [sendTo, hbound] at h
      cases h
      exact ⟨rfl, Or.inl ⟨_, rfl, rfl⟩⟩
  | some localEndpoint =>
      cases hremote : remoteEndpoint.isSpecified with
      | false =>
          simp only [sendTo, hbound, hremote, Bool.false_eq_true, if_false] at h
          cases h
          exact ⟨rfl, Or.inl ⟨_, rfl, rfl⟩⟩
      | true =>
          cases hpool : sock.mempool with
          | false =>
              simp only [sendTo, hbound, hremote, hpool, Bool.false_eq_true, if_false, if_true] at h
              cases h
              exact ⟨rfl, Or.inl ⟨_, rfl, rfl⟩⟩
          | true =>
              have hlog : (D.recorded.pktmbufAlloc s).2.2 = s.2 := rfl
              rcases halloc : D.recorded.pktmbufAlloc s with ⟨_ | m, s₁⟩
              · rw [halloc] at hlog
                simp only [sendTo, hbound, hremote, hpool, if_true, halloc] at h
                cases h
                exact ⟨hlog, Or.inl ⟨_, rfl, rfl⟩⟩
              · rw [halloc] at hlog
                obtain ⟨hfit, hmax⟩ := fits_of_sendTo hbound hremote hpool (by rw [halloc]) h
                obtain ⟨f, tail, htail, -, -, -, -, hdata, hsend⟩ := sendTo_built D.recorded sock data
                  remoteEndpoint remoteMac hbound hremote hpool halloc hfit hmax
                rw [hsend] at h
                cases hpush : sock.txBatch.tryPush f with
                | none =>
                    rw [hpush] at h
                    cases h
                    exact ⟨hlog, Or.inl ⟨_, rfl, rfl⟩⟩
                | some txBatch =>
                    rw [hpush] at h
                    cases h
                    exact ⟨hlog, Or.inr ⟨rfl, localEndpoint, f, tail, rfl, rfl,
                      (ArrayVec.toList_of_tryPush hpush).1, hmax, htail, hdata⟩⟩

/-- The loop of `flush` moves packets from the front of the batch to the driver,
    in order. -/
theorem flushLoop_moves (D : Dpdk σ) :
    ∀ (fuel : Nat) (s : σ × DriverLog) (v : ArrayVec Mbuf 64) (sent : Nat)
      (r : Nat × ArrayVec Mbuf 64 × σ × DriverLog),
      flushLoop D.recorded fuel s v sent = some r →
      r.2.2.2.accepted ++ r.2.1.toList = s.2.accepted ++ v.toList ∧
        r.2.2.2.bursts = s.2.bursts := by
  intro fuel
  induction fuel with
  | zero => intro s v sent r h; cases h
  | succ fuel ih =>
      intro s v sent r h
      by_cases hv : v.toList = []
      · rw [flushLoop_nil _ _ _ _ hv] at h
        cases h
        exact ⟨rfl, rfl⟩
      · have hall : v.toList.take 64 = v.toList := List.take_of_length_le v.length_le
        rw [flushLoop, if_neg (fun he => hv ((ArrayVec.isEmpty_iff v).mp he)),
          TxQueue.tx_of_ne_nil _ _ _ hv, hall] at h
        obtain ⟨hmoved, hbursts⟩ := ih _ _ _ _ h
        refine ⟨hmoved.trans ?_, hbursts⟩
        show s.2.accepted ++ v.toList.take (D.ethTxBurst s.1 v.toList).1
          ++ v.toList.drop (D.ethTxBurst s.1 v.toList).1 = _
        rw [List.append_assoc, List.take_append_drop]

theorem flush_moves {D : Dpdk σ} {fuel : Nat} {sock sock' : UdpSocket} {s s' : σ × DriverLog}
    {r : Except SocketError Nat} (h : flush D.recorded fuel sock s = some (r, sock', s')) :
    s'.2.accepted ++ sock'.txBatch.toList = s.2.accepted ++ sock.txBatch.toList ∧
      s'.2.bursts = s.2.bursts ∧ sock'.rxBatch = sock.rxBatch := by
  rw [flush] at h
  split at h
  · cases h
    exact ⟨rfl, rfl, rfl⟩
  · split at h
    · cases hloop : flushLoop D.recorded fuel s sock.txBatch 0 with
      | none =>
          rw [hloop] at h
          cases h
      | some r =>
          rw [hloop] at h
          cases h
          obtain ⟨hmoved, hbursts⟩ := flushLoop_moves D _ _ _ _ _ hloop
          exact ⟨hmoved, hbursts, rfl⟩
    · cases h
      exact ⟨rfl, rfl, rfl⟩

/-- **POLLING** pushes the packets of a burst, all of them. -/
theorem poll_pushes (D : Dpdk σ) (sock : UdpSocket) (s : σ × DriverLog) :
    ∃ burst, (sock.poll D.recorded s).2.1.rxBatch.toList = sock.rxBatch.toList ++ burst ∧
      (sock.poll D.recorded s).2.2.2.bursts.flatten = s.2.bursts.flatten ++ burst ∧
      (sock.poll D.recorded s).2.2.2.accepted = s.2.accepted ∧
      (sock.poll D.recorded s).2.1.txBatch = sock.txBatch := by
  rw [poll]
  split
  · by_cases hfull : 64 - sock.rxBatch.len = 0
    · rw [RxQueue.rx, if_pos hfull]
      exact ⟨[], (List.append_nil _).symm, (List.append_nil _).symm, rfl, rfl⟩
    · let n := min (min (64 - sock.rxBatch.len) u16Max) maxBurstSize
      have hle : (D.ethRxBurst s.1 n).1.length ≤ n := D.rx_le s.1 n
      have hn : n ≤ 64 - sock.rxBatch.len := Nat.le_trans (Nat.min_le_left _ _) (Nat.min_le_left _ _)
      obtain ⟨hpushed, hsame⟩ := RxQueue.pushAll_of_fits D.recorded (D.recorded.ethRxBurst s n).1
        (D.recorded.ethRxBurst s n).2 sock.rxBatch (by
          show sock.rxBatch.len + (D.ethRxBurst s.1 n).1.length ≤ 64
          omega)
      refine ⟨(D.ethRxBurst s.1 n).1, ?_, ?_, ?_, rfl⟩
      · rw [RxQueue.rx, if_neg hfull]
        exact hpushed
      · rw [RxQueue.rx, if_neg hfull]
        show (RxQueue.pushAll D.recorded _ _ _).2.2.bursts.flatten = _
        rw [hsame]
        show (s.2.bursts ++ [(D.ethRxBurst s.1 n).1]).flatten = _
        rw [List.flatten_append, List.flatten_singleton]
      · rw [RxQueue.rx, if_neg hfull]
        show (RxQueue.pushAll D.recorded _ _ _).2.2.accepted = _
        rw [hsame]
        rfl
  · exact ⟨[], (List.append_nil _).symm, (List.append_nil _).symm, rfl, rfl⟩

/-- **RECEIVING** pops the last packet, if there is one and the socket is bound,
    and returns its sender or drops it. -/
theorem recvFrom_cases {D : Dpdk σ} {sock sock' : UdpSocket} {s s' : σ × DriverLog}
    {r : Except SocketError (Mbuf × Endpoint)} (h : recvFrom D.recorded sock s = (r, sock', s')) :
    s'.2 = s.2 ∧ sock'.txBatch = sock.txBatch ∧
      (((sock.localEndpoint = none ∨ sock.rxBatch.toList = []) ∧ (∃ e, r = .error e) ∧
          sock'.rxBatch = sock.rxBatch) ∨
        ∃ localEndpoint m, sock.localEndpoint = some localEndpoint ∧
          sock.rxBatch.toList = sock'.rxBatch.toList ++ [m] ∧
          ((∃ sender, readFrom localEndpoint m.data = .ok sender ∧ r = .ok (m, sender)) ∨
            (∃ e, readFrom localEndpoint m.data = .error e ∧ r = .error e))) := by
  cases hbound : sock.localEndpoint with
  | none =>
      simp only [recvFrom, hbound] at h
      cases h
      exact ⟨rfl, rfl, Or.inl ⟨Or.inl rfl, ⟨_, rfl⟩, rfl⟩⟩
  | some localEndpoint =>
      cases hpop : sock.rxBatch.pop with
      | none =>
          simp only [recvFrom, hbound, hpop] at h
          cases h
          exact ⟨rfl, rfl, Or.inl ⟨Or.inr (ArrayVec.pop_eq_none.mp hpop), ⟨_, rfl⟩, rfl⟩⟩
      | some popped =>
          obtain ⟨m, rxBatch⟩ := popped
          have hlist := ArrayVec.toList_of_pop hpop
          simp only [recvFrom, hbound, hpop] at h
          cases hread : readFrom localEndpoint m.data with
          | ok sender =>
              rw [hread] at h
              cases h
              exact ⟨rfl, rfl, Or.inr ⟨localEndpoint, m, rfl, hlist, Or.inl ⟨sender, hread, rfl⟩⟩⟩
          | error e =>
              rw [hread] at h
              cases h
              exact ⟨rfl, rfl, Or.inr ⟨localEndpoint, m, rfl, hlist, Or.inr ⟨e, hread, rfl⟩⟩⟩

end UdpSocket

/-- This is the frame of the datagram, as it was built. -/
def Outgoing.IsFrame (o : Outgoing) (f : List UInt8) : Prop :=
  ∃ localEndpoint tail, o.localEndpoint = some localEndpoint ∧ 42 + o.data.length ≤ u16Max ∧
    tail.length = 16 ∧
    f = UdpSocket.sentFrame o.localMac o.remoteMac localEndpoint o.remoteEndpoint o.data tail

namespace Traffic

/-- What the driver has accepted, and what is still to be flushed. -/
def outbound (t : Traffic σ) : List Mbuf := t.driver.2.accepted ++ t.sock.txBatch.toList

/-- What `recv_from` has taken, and what is still in the batch. -/
def inbound (t : Traffic σ) : List Mbuf := t.taken.map Incoming.mbuf ++ t.sock.rxBatch.toList

/-- The call pops a packet. -/
def Takes (t : Traffic σ) (op : SocketOp) : Prop :=
  op = .recvFrom ∧ t.sock.localEndpoint ≠ none ∧ t.sock.rxBatch.toList ≠ []

/-- The outbound side of a call: at most one frame is added. -/
def Sends (t t' : Traffic σ) : Prop :=
  (t'.queued = t.queued ∧ t'.outbound = t.outbound) ∨
    ∃ o f, t'.queued = t.queued ++ [o] ∧ t'.outbound = t.outbound ++ [f] ∧ o.IsFrame f.data

/-- The inbound side: packets are pushed, or the last one is popped. -/
def Receives (t t' : Traffic σ) (op : SocketOp) : Prop :=
  (¬ t.Takes op ∧ ∃ burst, t'.taken = t.taken ∧ t'.received = t.received ++ burst ∧
      t'.sock.rxBatch.toList = t.sock.rxBatch.toList ++ burst) ∨
    (t.Takes op ∧ ∃ localEndpoint m, t.sock.rxBatch.toList = t'.sock.rxBatch.toList ++ [m] ∧
      t'.taken = t.taken ++
        [⟨m, some localEndpoint, (UdpSocket.readFrom localEndpoint m.data).toOption⟩] ∧
      t'.received = t.received)

theorem receives_of_quiet {t t' : Traffic σ} {op : SocketOp} (hop : op ≠ .recvFrom)
    (htaken : t'.taken = t.taken) (hbursts : t'.driver.2.bursts = t.driver.2.bursts)
    (hrx : t'.sock.rxBatch = t.sock.rxBatch) : t.Receives t' op := by
  refine Or.inl ⟨fun htakes => hop htakes.1, [], htaken, ?_, ?_⟩
  · rw [received, hbursts, List.append_nil]
    rfl
  · rw [hrx, List.append_nil]

/-- **ONE CALL** -/
theorem step_moves {D : Dpdk σ} {t t' : Traffic σ} {op : SocketOp} (h : t.step D op = .ok t') :
    t.Sends t' ∧ t.Receives t' op := by
  cases op with
  | bind endpoint =>
      rw [step, UdpSocket.bind] at h
      split at h
      · rename_i sock hbind
        split at hbind
        · cases hbind
        · cases hbind
          cases h
          exact ⟨Or.inl ⟨rfl, rfl⟩, receives_of_quiet SocketOp.noConfusion rfl rfl rfl⟩
      · cases h
        exact ⟨Or.inl ⟨rfl, rfl⟩, receives_of_quiet SocketOp.noConfusion rfl rfl rfl⟩
  | setLocalMac mac =>
      cases h
      exact ⟨Or.inl ⟨rfl, rfl⟩, receives_of_quiet SocketOp.noConfusion rfl rfl rfl⟩
  | sendTo data remoteEndpoint remoteMac =>
      rw [step] at h
      cases hsend : t.sock.sendTo D.recorded t.driver data remoteEndpoint remoteMac with
      | none =>
          rw [hsend] at h
          cases h
      | some sent =>
          obtain ⟨r, sock, driver⟩ := sent
          rw [hsend] at h
          obtain ⟨hlog, ⟨e, rfl, rfl⟩ | ⟨rfl, localEndpoint, f, tail, hbound, hrx, htx, hmax, htail,
            hdata⟩⟩ := UdpSocket.sendTo_cases hsend
          · cases h
            refine ⟨Or.inl ⟨rfl, ?_⟩, receives_of_quiet SocketOp.noConfusion rfl ?_ rfl⟩
            · show driver.2.accepted ++ _ = _
              rw [hlog]
              rfl
            · show driver.2.bursts = _
              rw [hlog]
          · cases h
            refine ⟨Or.inr ⟨_, f, rfl, ?_, localEndpoint, tail, hbound, hmax, htail, hdata⟩,
              receives_of_quiet SocketOp.noConfusion rfl ?_ hrx⟩
            · show driver.2.accepted ++ sock.txBatch.toList = _
              rw [hlog, htx, ← List.append_assoc]
              rfl
            · show driver.2.bursts = _
              rw [hlog]
  | flush fuel =>
      rw [step] at h
      cases hflush : t.sock.flush D.recorded fuel t.driver with
      | none =>
          rw [hflush] at h
          cases h
      | some flushed =>
          obtain ⟨r, sock, driver⟩ := flushed
          rw [hflush] at h
          cases h
          obtain ⟨hmoved, hbursts, hrx⟩ := UdpSocket.flush_moves hflush
          exact ⟨Or.inl ⟨rfl, hmoved⟩, receives_of_quiet SocketOp.noConfusion rfl hbursts hrx⟩
  | poll =>
      have hpushes := UdpSocket.poll_pushes D t.sock t.driver
      rcases hpoll : t.sock.poll D.recorded t.driver with ⟨r, sock, driver⟩
      rw [hpoll] at hpushes
      rw [step, hpoll] at h
      cases h
      obtain ⟨burst, hrx, hreceived, haccepted, htx⟩ := hpushes
      refine ⟨Or.inl ⟨rfl, ?_⟩, Or.inl ⟨fun htakes => SocketOp.noConfusion htakes.1, burst, rfl,
        hreceived, hrx⟩⟩
      show driver.2.accepted ++ sock.txBatch.toList = _
      rw [haccepted, htx]
      rfl
  | recvFrom =>
      rcases hrecv : t.sock.recvFrom D.recorded t.driver with ⟨r, sock, driver⟩
      rw [step, hrecv] at h
      obtain ⟨hlog, htx, hrx⟩ := UdpSocket.recvFrom_cases hrecv
      have hout : driver.2.accepted ++ sock.txBatch.toList = t.outbound := by
        rw [hlog, htx]
        rfl
      have hsame : driver.2.bursts.flatten = t.received := by
        rw [hlog]
        rfl
      rcases hrx with ⟨hnone, ⟨e, rfl⟩, hrx⟩ | ⟨localEndpoint, m, hbound, hlist, hread⟩
      · cases h
        refine ⟨Or.inl ⟨rfl, hout⟩, Or.inl ⟨?_, [], ?_, ?_, ?_⟩⟩
        · intro htakes
          rcases hnone with hnone | hnone
          · exact htakes.2.1 hnone
          · exact htakes.2.2 hnone
        · show t.taken ++ (t.sock.rxBatch.toList.drop sock.rxBatch.toList.length).map _ = _
          rw [hrx, List.drop_length, List.map_nil, List.append_nil]
        · rw [List.append_nil]
          exact hsame
        · rw [List.append_nil]
          exact congrArg ArrayVec.toList hrx
      · have htakes : t.Takes .recvFrom := by
          refine ⟨rfl, ?_, ?_⟩
          · rw [hbound]
            exact Option.some_ne_none _
          · rw [hlist]
            exact List.append_ne_nil_of_right_ne_nil _ (List.cons_ne_nil _ _)
        rcases hread with ⟨sender, hread, rfl⟩ | ⟨e, hread, rfl⟩
        · cases h
          refine ⟨Or.inl ⟨rfl, hout⟩, Or.inr ⟨htakes, localEndpoint, m, hlist, ?_, hsame⟩⟩
          rw [hread, ← hbound]
          rfl
        · cases h
          refine ⟨Or.inl ⟨rfl, hout⟩, Or.inr ⟨htakes, localEndpoint, m, hlist, ?_, hsame⟩⟩
          show t.taken ++ (t.sock.rxBatch.toList.drop sock.rxBatch.toList.length).map _ = _
          rw [hlist, List.drop_left, hread, ← hbound]
          rfl

/-! ## Whole runs -/

/-- Every datagram is one frame, in order; every packet received is taken or there;
    and what was taken was judged by its bytes. -/
structure Accounted (t : Traffic σ) : Prop where
  frames : List.Forall₂ Outgoing.IsFrame t.queued (t.outbound.map Mbuf.data)
  packets : t.inbound.Perm t.received
  judged : ∀ i ∈ t.taken, ∃ localEndpoint, i.localEndpoint = some localEndpoint ∧
    i.sender = (UdpSocket.readFrom localEndpoint i.mbuf.data).toOption

theorem Accounted.step {D : Dpdk σ} {t t' : Traffic σ} {op : SocketOp} (ht : t.Accounted)
    (h : t.step D op = .ok t') : t'.Accounted := by
  obtain ⟨hsends, hreceives⟩ := step_moves h
  refine ⟨?_, ?_, ?_⟩
  · rcases hsends with ⟨hqueued, hout⟩ | ⟨o, f, hqueued, hout, hframe⟩
    · rw [hqueued, hout]
      exact ht.frames
    · rw [hqueued, hout, List.map_append]
      exact List.rel_append ht.frames (List.Forall₂.cons hframe List.Forall₂.nil)
  · rcases hreceives with ⟨-, burst, htaken, hreceived, hrx⟩ | ⟨-, localEndpoint, m, hrx, htaken,
      hreceived⟩
    · rw [inbound, htaken, hreceived, hrx, ← List.append_assoc]
      exact ht.packets.append_right burst
    · have hmoved : t'.inbound.Perm t.inbound := by
        rw [inbound, inbound, htaken, hrx, List.map_append, List.append_assoc]
        exact List.perm_append_comm.append_left _
      rw [hreceived]
      exact hmoved.trans ht.packets
  · intro i hi
    rcases hreceives with ⟨-, burst, htaken, -, -⟩ | ⟨-, localEndpoint, m, -, htaken, -⟩
    · rw [htaken] at hi
      exact ht.judged i hi
    · rw [htaken, List.mem_append, List.mem_singleton] at hi
      rcases hi with hi | rfl
      · exact ht.judged i hi
      · exact ⟨localEndpoint, rfl, rfl⟩

theorem accounted_start (s : σ) : (start s).Accounted :=
  ⟨List.Forall₂.nil, List.Perm.refl _, fun i hi => by cases hi⟩

theorem accounted_run {D : Dpdk σ} {s : σ} {ops : List SocketOp} {t : Traffic σ}
    (hrun : run (step D) (start s) ops = .ok t) : t.Accounted :=
  run_invariant (fun _ _ _ hu h => hu.step h) (accounted_start s) hrun

/-- **EVERY FRAME ONCE**: whatever the program calls and the driver does, what the
    driver has accepted and the batch still holds are the frames of the datagrams
    that were queued, in order; what `recv_from` has taken and the batch still
    holds are the packets that were received; and it has returned what the bytes of
    a packet say to the endpoint that the socket was bound to. -/
theorem socket_frames_accounted (D : Dpdk σ) (s : σ) (ops : List SocketOp) (t : Traffic σ)
    (hrun : run (step D) (start s) ops = .ok t) :
    List.Forall₂ Outgoing.IsFrame t.queued
        ((t.driver.2.accepted ++ t.sock.txBatch.toList).map Mbuf.data) ∧
      (t.taken.map Incoming.mbuf ++ t.sock.rxBatch.toList).Perm t.driver.2.bursts.flatten ∧
      ∀ i ∈ t.taken, ∃ localEndpoint, i.localEndpoint = some localEndpoint ∧
        i.sender = (UdpSocket.readFrom localEndpoint i.mbuf.data).toOption := by
  have ht := accounted_run hrun
  exact ⟨ht.frames, ht.packets, ht.judged⟩

/-- Two datagrams are queued and flushed by bursts of one; of the two packets that
    are then received, both empty, one is taken and dropped. -/
theorem two_datagrams_flushed :
    ∃ t, run (step (poolNic 1)) (start ⟨[1, 2], []⟩)
        [.bind ⟨⟨10, 0, 0, 1⟩, 7⟩, .sendTo [1] ⟨⟨10, 0, 0, 2⟩, 9⟩ ⟨2, 2, 2, 2, 2, 2⟩,
          .sendTo [2] ⟨⟨10, 0, 0, 2⟩, 9⟩ ⟨2, 2, 2, 2, 2, 2⟩, .flush 3, .poll, .recvFrom] = .ok t ∧
      t.queued.map Outgoing.data = [[1], [2]] ∧ t.taken.map Incoming.sender = [none] ∧
      (t.taken.map Incoming.mbuf ++ t.sock.rxBatch.toList).Perm t.driver.2.bursts.flatten := by
  obtain ⟨t, hrun, hqueued, htaken⟩ : ∃ t, run (step (poolNic 1)) (start ⟨[1, 2], []⟩)
      [.bind ⟨⟨10, 0, 0, 1⟩, 7⟩, .sendTo [1] ⟨⟨10, 0, 0, 2⟩, 9⟩ ⟨2, 2, 2, 2, 2, 2⟩,
        .sendTo [2] ⟨⟨10, 0, 0, 2⟩, 9⟩ ⟨2, 2, 2, 2, 2, 2⟩, .flush 3, .poll, .recvFrom] = .ok t ∧
      t.queued.map Outgoing.data = [[1], [2]] ∧ t.taken.map Incoming.sender = [none] := ⟨_, rfl, rfl, rfl⟩
  exact ⟨t, hrun, hqueued, htaken, (socket_frames_accounted _ _ _ t hrun).2.1⟩

/-! ## The order of arrival -/

/-- The packets come back in the order in which they arrived. -/
def InOrder (t : Traffic σ) : Prop := t.inbound = t.received

/-- The condition: no packet is popped while a different one is in the batch. -/
def NoChoice (t : Traffic σ) (op : SocketOp) : Prop :=
  t.Takes op → ∀ m ∈ t.sock.rxBatch.toList, ∀ n ∈ t.sock.rxBatch.toList, m = n

/-- A list is its own rotation if its elements are the same. -/
theorem concat_eq_cons_iff {α : Type} {x : α} {l : List α} :
    l ++ [x] = x :: l ↔ ∀ y ∈ l ++ [x], ∀ z ∈ l ++ [x], y = z := by
  have hne : Nonempty α := ⟨x⟩
  have hrotate : (x :: l).rotate 1 = l ++ [x] := by
    rw [List.rotate_cons_succ, List.rotate_zero]
  constructor
  · intro h
    rw [← hrotate] at h
    obtain ⟨a, ha⟩ := List.rotate_one_eq_self_iff_eq_replicate.mp h
    have hall : ∀ y ∈ l ++ [x], y = a := by
      intro y hy
      rw [← hrotate, h, ha] at hy
      exact List.eq_of_mem_replicate hy
    intro y hy z hz
    rw [hall y hy, hall z hz]
  · intro h
    have hx : x ∈ l ++ [x] := List.mem_append_right _ (List.mem_singleton_self x)
    rw [← hrotate]
    refine List.rotate_one_eq_self_iff_eq_replicate.mpr ⟨x, List.eq_replicate_of_mem ?_⟩
    intro y hy
    rw [List.mem_cons] at hy
    rcases hy with rfl | hy
    · rfl
    · exact h y (List.mem_append_left _ hy) x hx

theorem inOrder_step_iff {D : Dpdk σ} {t t' : Traffic σ} {op : SocketOp} (ht : t.InOrder)
    (h : t.step D op = .ok t') : t'.InOrder ↔ t.NoChoice op := by
  rw [InOrder, inbound] at ht
  rcases (step_moves h).2 with ⟨hnot, burst, htaken, hreceived, hrx⟩ | ⟨htakes, localEndpoint, m, hrx,
    htaken, hreceived⟩
  · refine iff_of_true ?_ (fun htakes => absurd htakes hnot)
    rw [InOrder, inbound, htaken, hreceived, hrx, ← List.append_assoc, ht]
  · have hcondition : t.NoChoice op ↔ ∀ y ∈ t'.sock.rxBatch.toList ++ [m],
        ∀ z ∈ t'.sock.rxBatch.toList ++ [m], y = z := by
      rw [NoChoice, hrx]
      exact ⟨fun hall => hall htakes, fun hall _ => hall⟩
    rw [hcondition, ← concat_eq_cons_iff, InOrder, inbound, htaken, hreceived, ← ht, hrx,
      List.map_append, List.append_assoc, List.append_cancel_left_eq]
    exact eq_comm

/-- **WHEN PACKETS KEEP THEIR ORDER**: `recv_from` returns or drops the packets in
    the order of their arrival, in every state of a run, exactly if each time it
    takes one there is no other in the batch. -/
theorem received_in_order_iff (D : Dpdk σ) (s : σ) (ops : List SocketOp) :
    (∀ bs, bs <+: ops → ∀ t, run (step D) (start s) bs = .ok t →
        t.taken.map Incoming.mbuf ++ t.sock.rxBatch.toList = t.driver.2.bursts.flatten) ↔
      Along (step D) NoChoice (start s) ops := by
  refine always_iff_along (I := InOrder) (fun t op t' ht h => inOrder_step_iff ht h) ?_ ops (start s) rfl
  intro t op e ht herr htakes
  -- receiving does not stop a run
  rw [htakes.1] at herr
  rw [step] at herr
  split at herr
  · cases herr
  · cases herr

/-! ## From one socket to another -/

theorem exists_isFrame {os : List Outgoing} {fs : List (List UInt8)}
    (h : List.Forall₂ Outgoing.IsFrame os fs) {f : List UInt8} (hf : f ∈ fs) :
    ∃ o ∈ os, o.IsFrame f := by
  induction h with
  | nil => cases hf
  | @cons o g os fs hframe hrest ih =>
      rw [List.mem_cons] at hf
      rcases hf with rfl | hf
      · exact ⟨o, List.mem_cons_self, hframe⟩
      · obtain ⟨o', ho', hframe'⟩ := ih hf
        exact ⟨o', List.mem_cons_of_mem _ ho', hframe'⟩

/-- Only packets for our port are returned. -/
theorem port_of_readFrom {e sender : Endpoint} {p udp : List UInt8}
    (h : UdpSocket.readFrom e p = .ok sender)
    (hudp : Ipv4Packet.payload (EthernetFrame.payload p) = some udp) :
    UdpPacket.dstPort udp = e.port := by
  rw [UdpSocket.readFrom] at h
  simp only [hudp] at h
  by_contra hne
  rw [if_pos hne, ite_self, ite_self, ite_self, ite_self, ite_self] at h
  cases h

/-- **WHAT THE RECEIVER MAKES OF A FRAME** that `send_to` has built. -/
theorem readFrom_isFrame {o : Outgoing} {f : List UInt8} (hf : o.IsFrame f) {e sender : Endpoint}
    (h : UdpSocket.readFrom e f = .ok sender) :
    o.data.length % 256 = 9 ∧ sender.addr.octets = o.data.take 4 ∧
      o.localEndpoint.map Endpoint.port = some sender.port := by
  obtain ⟨localEndpoint, tail, hbound, hmax, htail, rfl⟩ := hf
  have hip : 20 + 8 + o.data.length ≤ u16Max := by omega
  have hport : e.port = o.remoteEndpoint.port :=
    (port_of_readFrom h (UdpSocket.payload_sentIp htail hip)).symm.trans
      (ofNat_word_beBytes o.remoteEndpoint.port)
  rw [UdpSocket.readFrom_sentFrame o.localMac o.remoteMac hport htail hip] at h
  by_cases hlen : o.data.length % 256 = 9
  · rw [if_pos hlen] at h
    cases h
    refine ⟨hlen, UdpSocket.srcAddr_sentIp (by omega), ?_⟩
    rw [hbound]
    rfl
  · rw [if_neg hlen] at h
    cases h

/-- **THE SENDER IS IN THE DATA**: two sockets, and between them a network that
    loses, doubles and reorders frames but makes none up.  Each packet that the
    second one takes holds the data of a datagram that was queued at the first.
    It is returned only if the data has a length of 9 modulo 256, and then its
    sender is said to be at the address that the data begins with. -/
theorem taken_sender_is_data {τ : Type} (D : Dpdk σ) (E : Dpdk τ) (s : σ) (u : τ)
    (ops ops' : List SocketOp) (a : Traffic σ) (b : Traffic τ)
    (ha : run (step D) (start s) ops = .ok a) (hb : run (step E) (start u) ops' = .ok b)
    (hwire : ∀ m ∈ b.driver.2.bursts.flatten, ∃ f ∈ a.driver.2.accepted, f.data = m.data)
    (i : Incoming) (hi : i ∈ b.taken) :
    ∃ o ∈ a.queued, UdpSocket.udpPayload i.mbuf.data = some o.data ∧
      ∀ sender, i.sender = some sender →
        o.data.length % 256 = 9 ∧ sender.addr.octets = o.data.take 4 ∧
          o.localEndpoint.map Endpoint.port = some sender.port := by
  have hacc := accounted_run ha
  have hacc' := accounted_run hb
  have hin : i.mbuf ∈ b.received :=
    hacc'.packets.subset (List.mem_append_left _ (List.mem_map_of_mem hi))
  obtain ⟨f, hf, hdata⟩ := hwire i.mbuf hin
  have hout : i.mbuf.data ∈ a.outbound.map Mbuf.data :=
    List.mem_map.mpr ⟨f, List.mem_append_left _ hf, hdata⟩
  obtain ⟨o, ho, hframe⟩ := exists_isFrame hacc.frames hout
  refine ⟨o, ho, ?_, ?_⟩
  · obtain ⟨localEndpoint, tail, -, hmax, htail, hbytes⟩ := hframe
    rw [hbytes, UdpSocket.udpPayload_sentFrame _ _ htail (by omega)]
  · intro sender hsender
    obtain ⟨e, -, hread⟩ := hacc'.judged i hi
    rw [hsender] at hread
    cases hjudged : UdpSocket.readFrom e i.mbuf.data with
    | error err =>
        rw [hjudged] at hread
        cases hread
    | ok sender' =>
        rw [hjudged] at hread
        cases hread
        exact readFrom_isFrame hframe hjudged

/-- The frame of nine bytes from port 7 to port 9. -/
def nineBytes : Mbuf where
  inner := 1
  buf := [2, 2, 2, 2, 2, 2, 0, 0, 0, 0, 0, 0, 8, 0, 65, 0, 0, 37, 0, 7, 0, 9, 0, 17, 0, 0,
    1, 2, 3, 4, 5, 6, 7, 8, 9, 0, 0, 0, 0, 0, 0, 0, 0, 0, 0, 0, 0, 0, 0, 0, 0]
  dataLen := 51
  pktLen := 51

/-- They come from 10.0.0.1, and are returned as from 1.2.3.4. -/
theorem nine_bytes_from_elsewhere :
    ∃ a b i, run (step (poolNic 64)) (start ⟨[1], []⟩)
        [.bind ⟨⟨10, 0, 0, 1⟩, 7⟩,
          .sendTo [1, 2, 3, 4, 5, 6, 7, 8, 9] ⟨⟨10, 0, 0, 2⟩, 9⟩ ⟨2, 2, 2, 2, 2, 2⟩, .flush 2] = .ok a ∧
      run (step (scriptedNic [nineBytes] 0)) (start ())
        [.bind ⟨⟨10, 0, 0, 2⟩, 9⟩, .poll, .recvFrom] = .ok b ∧
      i ∈ b.taken ∧ i.sender = some ⟨⟨1, 2, 3, 4⟩, 7⟩ ∧
      ∃ o ∈ a.queued, UdpSocket.udpPayload i.mbuf.data = some o.data ∧
        (⟨1, 2, 3, 4⟩ : Ipv4Addr).octets = o.data.take 4 := by
  obtain ⟨a, ha, haccepted⟩ : ∃ a, run (step (poolNic 64)) (start ⟨[1], []⟩)
      [.bind ⟨⟨10, 0, 0, 1⟩, 7⟩,
        .sendTo [1, 2, 3, 4, 5, 6, 7, 8, 9] ⟨⟨10, 0, 0, 2⟩, 9⟩ ⟨2, 2, 2, 2, 2, 2⟩, .flush 2] = .ok a ∧
      a.driver.2.accepted.map Mbuf.data = [nineBytes.data] := ⟨_, rfl, rfl⟩
  obtain ⟨b, hb, hreceived, htaken⟩ : ∃ b, run (step (scriptedNic [nineBytes] 0)) (start ())
      [.bind ⟨⟨10, 0, 0, 2⟩, 9⟩, .poll, .recvFrom] = .ok b ∧
      b.driver.2.bursts.flatten = [nineBytes] ∧
      b.taken = [⟨nineBytes, some ⟨⟨10, 0, 0, 2⟩, 9⟩, some ⟨⟨1, 2, 3, 4⟩, 7⟩⟩] := ⟨_, rfl, rfl, rfl⟩
  have hwire : ∀ m ∈ b.driver.2.bursts.flatten, ∃ f ∈ a.driver.2.accepted, f.data = m.data := by
    intro m hm
    rw [hreceived, List.mem_singleton] at hm
    have hmem : m.data ∈ a.driver.2.accepted.map Mbuf.data := by
      rw [haccepted, hm]
      exact List.mem_singleton_self _
    exact List.mem_map.mp hmem
  obtain ⟨i, hi, hsaid⟩ : ∃ i ∈ b.taken, i.sender = some ⟨⟨1, 2, 3, 4⟩, 7⟩ := by
    rw [htaken]
    exact ⟨_, List.mem_singleton_self _, rfl⟩
  obtain ⟨o, ho, hdata, hsender⟩ := taken_sender_is_data _ _ _ _ _ _ a b ha hb hwire i hi
  exact ⟨a, b, i, ha, hb, hi, hsaid, o, ho, hdata, (hsender _ hsaid).2.1⟩

end Traffic

end MbufUdp

end DpdkNet
