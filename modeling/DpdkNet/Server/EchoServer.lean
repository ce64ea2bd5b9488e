import DpdkNet.Lib.Runs
import DpdkNet.Socket.Futures

/-! # The polled echo server

    `dpdk-net-test/src/manual/tcp_echo.rs`, `EchoServer`: one listening socket,
    and a `process` that the loop of `run_echo_server` calls between polls of the
    interface.  A call reads one contiguous piece of the receive buffer, which is
    a ring, offers what is pending to the send buffer, and keeps what does not
    fit.  In `CloseWait` it then closes the socket, in the same call and whatever
    is left.

    A run is a schedule of calls and of network progress, over any number of
    connections, each of which is ended by the client's FIN.  What is echoed is a
    prefix of what was received in every run (`echoed_prefix_of_run`); all of it is
    echoed before the close exactly if the call that closes finds the unread bytes
    in one piece and room for everything (`echoes_all_iff`). -/

namespace DpdkNet

open Tcp Runs

/-! ## The socket -/

namespace Tcp

/-- Not closed, not in time-wait and not listening. -/
def State.isActive : State → Bool
  | .closed | .timeWait | .listen => false
  | _ => true

/-- A socket with its buffers; the receive buffer is a ring, and its contents
    begin at `rxReadAt`. -/
structure PolledSocket where
  socket : Tcp.Socket
  buffers : Buffers
  rxCapacity : Nat
  rxReadAt : Nat

namespace PolledSocket

/-- A closed socket with empty buffers. -/
def new (rxCapacity txCapacity : Nat) : PolledSocket where
  socket := Socket.new
  buffers := ⟨[], false, [], txCapacity⟩
  rxCapacity := rxCapacity
  rxReadAt := 0

/-- Listen on a port; both buffers are cleared. -/
def listen (s : PolledSocket) (port : UInt16) : Except ListenError PolledSocket :=
  match s.socket.listen port with
  | .error e => .error e
  | .ok socket =>
      .ok { s with
        socket := socket
        buffers := { s.buffers with rxBuffer := [], rxFinReceived := false, txBuffer := [] }
        rxReadAt := 0 }

def close (s : PolledSocket) : PolledSocket := { s with socket := s.socket.close }

def canRecv (s : PolledSocket) : Bool :=
  if s.buffers.mayRecv s.socket.state then !s.buffers.rxBuffer.isEmpty else false

def canSend (s : PolledSocket) : Bool :=
  if s.socket.state.maySend then s.buffers.window ≠ 0 else false

/-- The bytes up to the end of the ring. -/
def contiguous (s : PolledSocket) : List UInt8 :=
  s.buffers.rxBuffer.take (s.rxCapacity - s.rxReadAt)

/-- Call `f` with the contiguous piece at the front, and dequeue as many bytes as
    it says. -/
def recv {α : Type} (f : List UInt8 → Nat × α) (s : PolledSocket) :
    Except RecvError α × PolledSocket :=
  if s.buffers.mayRecv s.socket.state then
    let got := f s.contiguous
    (.ok got.2, { s with
      buffers := { s.buffers with rxBuffer := s.buffers.rxBuffer.drop got.1 }
      rxReadAt := if 0 < s.rxCapacity then (s.rxReadAt + got.1) % s.rxCapacity else 0 })
  else if s.buffers.rxFinReceived then (.error .finished, s)
  else (.error .invalidState, s)

def sendSlice (data : List UInt8) (s : PolledSocket) : Except SendError Nat × PolledSocket :=
  let got := s.buffers.sendSlice s.socket.state data
  (got.1, { s with buffers := got.2 })

end PolledSocket

end Tcp

/-! ## The server -/

structure SocketConfig where
  rxBufferSize : Nat
  txBufferSize : Nat

structure EchoServerStats where
  bytesReceived : Nat
  bytesSent : Nat
  connections : Nat

structure EchoServer where
  port : UInt16
  pendingTx : List UInt8
  stats : EchoServerStats
  wasConnected : Bool

namespace EchoServer

/-- Create a new echo server, with its socket; `none` is the panic of a port on
    which one cannot listen. -/
def new (port : UInt16) (config : SocketConfig) : Option (EchoServer × PolledSocket) :=
  match (PolledSocket.new config.rxBufferSize config.txBufferSize).listen port with
  | .error _ => none
  | .ok sock => some (⟨port, [], ⟨0, 0, 0⟩, false⟩, sock)

/-- Track new connections. -/
def trackConnection (server : EchoServer) : EchoServer :=
  if server.wasConnected then server
  else
    { server with
      stats := { server.stats with connections := server.stats.connections + 1 }
      wasConnected := true }

/-- Receive data: all of what one call shows. -/
def receiveData (server : EchoServer) (sock : PolledSocket) : EchoServer × PolledSocket :=
  if sock.canRecv then
    match sock.recv fun buffer => if 0 < buffer.length then (buffer.length, buffer) else (0, []) with
    | (.ok data, sock) =>
        if data.isEmpty then (server, sock)
        else
          ({ server with
              stats := { server.stats with bytesReceived := server.stats.bytesReceived + data.length }
              pendingTx := server.pendingTx ++ data }, sock)
    | (.error _, sock) => (server, sock)
  else (server, sock)

/-- Send pending data (echo), and say how much of it was taken. -/
def sendPending (server : EchoServer) (sock : PolledSocket) : Nat × EchoServer × PolledSocket :=
  if server.pendingTx.isEmpty then (0, server, sock)
  else if sock.canSend then
    match sock.sendSlice server.pendingTx with
    | (.ok sent, sock) =>
        (sent, { server with
          stats := { server.stats with bytesSent := server.stats.bytesSent + sent }
          pendingTx := server.pendingTx.drop sent }, sock)
    | (.error _, sock) => (0, server, sock)
  else (0, server, sock)

/-- Connection closed. -/
def disconnect (server : EchoServer) : EchoServer :=
  if server.wasConnected then { server with wasConnected := false, pendingTx := [] } else server

/-- Re-listen when Closed. -/
def relisten (port : UInt16) (sock : PolledSocket) : PolledSocket :=
  if sock.socket.state = .closed then
    match sock.listen port with
    | .ok sock => sock
    | .error _ => sock
  else sock

/-- Process the server: receive data and echo it back.  Returns the number of
    bytes echoed in this call. -/
def process (server : EchoServer) (sock : PolledSocket) : Nat × EchoServer × PolledSocket :=
  if sock.socket.state.isActive then
    let received := receiveData server.trackConnection sock
    let sent := sendPending received.1 received.2
    -- the client closed: close the server side too
    if sent.2.2.socket.state = .closeWait then (sent.1, sent.2.1, sent.2.2.close) else sent
  else
    (0, server.disconnect, relisten server.port sock)

/-! ## What a call does -/

theorem rxBuffer_eq_nil_of_canRecv {sock : PolledSocket} (h : sock.canRecv = false) :
    sock.buffers.rxBuffer = [] := by
  by_contra hne
  have hfull : sock.buffers.rxBuffer.isEmpty = false := List.isEmpty_eq_false_iff.mpr hne
  simp [PolledSocket.canRecv, Buffers.mayRecv, hfull] at h

/-- What is dequeued is the piece that was shown. -/
theorem drop_length_contiguous (sock : PolledSocket) :
    sock.buffers.rxBuffer.drop sock.contiguous.length =
      sock.buffers.rxBuffer.drop (sock.rxCapacity - sock.rxReadAt) := by
  rw [PolledSocket.contiguous, List.length_take, List.drop_eq_drop_iff]
  omega

/-- The contiguous piece moves from the receive buffer to what is pending. -/
theorem receiveData_eq (server : EchoServer) (sock : PolledSocket) :
    (receiveData server sock).1.pendingTx = server.pendingTx ++ sock.contiguous ∧
    (receiveData server sock).1.wasConnected = server.wasConnected ∧
    (receiveData server sock).2.socket = sock.socket ∧
    (receiveData server sock).2.buffers = { sock.buffers with
      rxBuffer := sock.buffers.rxBuffer.drop (sock.rxCapacity - sock.rxReadAt) } := by
  cases hcan : sock.canRecv with
  | false =>
      have hnil := rxBuffer_eq_nil_of_canRecv hcan
      have hsame : ({ sock.buffers with rxBuffer := [] } : Buffers) = sock.buffers := by
        rw [← hnil]
      simp [receiveData, hcan, PolledSocket.contiguous, hnil, hsame]
  | true =>
      have hmay : sock.buffers.mayRecv sock.socket.state = true := by
        rw [PolledSocket.canRecv] at hcan
        split at hcan
        · assumption
        · cases hcan
      have hdrop := drop_length_contiguous sock
      cases hpiece : sock.contiguous with
      | nil =>
          rw [hpiece] at hdrop
          simp [receiveData, hcan, PolledSocket.recv, hmay, hpiece, ← hdrop]
      | cons b bs =>
          rw [hpiece] at hdrop
          simp [receiveData, hcan, PolledSocket.recv, hmay, hpiece, ← hdrop]

/-- How much the send buffer takes. -/
def sendRoom (sock : PolledSocket) : Nat :=
  if sock.socket.state.maySend then sock.buffers.window else 0

/-- As much of what is pending moves to the send buffer. -/
theorem sendPending_eq (server : EchoServer) (sock : PolledSocket) :
    (sendPending server sock).2.1.pendingTx = server.pendingTx.drop (sendRoom sock) ∧
    (sendPending server sock).2.1.wasConnected = server.wasConnected ∧
    (sendPending server sock).2.2.socket = sock.socket ∧
    (sendPending server sock).2.2.buffers = { sock.buffers with
      txBuffer := sock.buffers.txBuffer ++ server.pendingTx.take (sendRoom sock) } := by
  by_cases hnil : server.pendingTx = []
  · simp [sendPending, hnil]
  · have hne : server.pendingTx.isEmpty = false := List.isEmpty_eq_false_iff.mpr hnil
    cases hmay : sock.socket.state.maySend with
    | false => simp [sendPending, hne, PolledSocket.canSend, sendRoom, hmay]
    | true =>
        by_cases hfull : sock.buffers.window = 0
        · simp [sendPending, hne, PolledSocket.canSend, sendRoom, hmay, hfull]
        · have hdrop : server.pendingTx.drop (min server.pendingTx.length sock.buffers.window) =
              server.pendingTx.drop sock.buffers.window := by
            rw [List.drop_eq_drop_iff]
            omega
          simp [sendPending, hne, PolledSocket.canSend, sendRoom, hmay, hfull,
            PolledSocket.sendSlice, Buffers.sendSlice, hdrop]

/-- **A CALL ON AN ACTIVE SOCKET**: pending bytes and the contiguous piece, in this
    order, are offered to the send buffer; in `CloseWait` the socket is closed. -/
theorem process_active (server : EchoServer) {sock : PolledSocket}
    (h : sock.socket.state.isActive = true) :
    (process server sock).2.1.pendingTx =
      (server.pendingTx ++ sock.contiguous).drop (sendRoom sock) ∧
    (process server sock).2.1.wasConnected = true ∧
    (process server sock).2.2.socket.state =
      (if sock.socket.state = .closeWait then .lastAck else sock.socket.state) ∧
    (process server sock).2.2.buffers.rxBuffer =
      sock.buffers.rxBuffer.drop (sock.rxCapacity - sock.rxReadAt) ∧
    (process server sock).2.2.buffers.txBuffer = sock.buffers.txBuffer ++
      (server.pendingTx ++ sock.contiguous).take (sendRoom sock) := by
  obtain ⟨hpending, hconn, hsock, hbuf⟩ := receiveData_eq server.trackConnection sock
  obtain ⟨hpending', hconn', hsock', hbuf'⟩ := sendPending_eq
    (receiveData server.trackConnection sock).1 (receiveData server.trackConnection sock).2
  have hroom : sendRoom (receiveData server.trackConnection sock).2 = sendRoom sock := by
    rw [sendRoom, sendRoom, hsock, hbuf]
    rfl
  have htrack : server.trackConnection.pendingTx = server.pendingTx := by
    rw [trackConnection]
    split <;> rfl
  have hwas : server.trackConnection.wasConnected = true := by
    rw [trackConnection]
    split
    · assumption
    · rfl
  rw [hpending, htrack, hroom] at hpending'
  rw [hconn, hwas] at hconn'
  rw [hsock] at hsock'
  rw [hbuf, hpending, htrack, hroom] at hbuf'
  rw [process, if_pos h]
  by_cases hwait : sock.socket.state = .closeWait
  · rw [if_pos hwait]
    simp only [hsock', hwait, if_true]
    refine ⟨hpending', hconn', ?_, ?_, ?_⟩
    · simp [PolledSocket.close, hsock', Tcp.Socket.close, hwait, Tcp.Socket.setState]
    · exact congrArg Buffers.rxBuffer hbuf'
    · exact congrArg Buffers.txBuffer hbuf'
  · rw [if_neg hwait]
    simp only [hsock', hwait, if_false]
    exact ⟨hpending', hconn', trivial, congrArg Buffers.rxBuffer hbuf',
      congrArg Buffers.txBuffer hbuf'⟩

/-- A closed socket listens again, with its buffers cleared, if it can. -/
theorem relisten_cases (port : UInt16) (sock : PolledSocket) :
    relisten port sock = sock ∨
      sock.socket.state = .closed ∧ (relisten port sock).socket.state = .listen ∧
        (relisten port sock).buffers.rxBuffer = [] ∧ (relisten port sock).buffers.txBuffer = [] := by
  rw [relisten]
  by_cases hclosed : sock.socket.state = .closed
  · rw [if_pos hclosed, PolledSocket.listen, Tcp.Socket.listen]
    by_cases hport : port = 0
    · left
      rw [if_pos hport]
    · right
      rw [if_neg hport]
      exact ⟨hclosed, rfl, rfl, rfl⟩
  · left
    rw [if_neg hclosed]

/-- Without a connection nothing is pending. -/
theorem disconnect_pendingTx {server : EchoServer}
    (h : server.wasConnected = false → server.pendingTx = []) :
    server.disconnect.pendingTx = [] := by
  rw [disconnect]
  split
  · rfl
  · rename_i hwas
    exact h (Bool.eq_false_iff.mpr hwas)

theorem process_inactive (server : EchoServer) {sock : PolledSocket}
    (h : sock.socket.state.isActive = false) :
    process server sock = (0, server.disconnect, relisten server.port sock) := by
  rw [process, if_neg (by rw [h]; exact Bool.false_ne_true)]

end EchoServer

/-! ## Schedules -/

/-- A call of `process`, or what the network does to the connection. -/
inductive EchoOp where
  | process
  /-- A client's SYN, -/
  | syn
  /-- the end of the handshake, -/
  | ack
  /-- bytes that follow those before, as many as the window takes, -/
  | data (bytes : List UInt8)
  /-- and the client's FIN, when all its bytes are there. -/
  | fin
  /-- The client acknowledges bytes of ours, -/
  | acked (n : Nat)
  /-- and our FIN. -/
  | finAcked

/-- The connection is not in a state for it. -/
inductive NotNow where
  | mk

/-- The server and its socket; of the latest connection, the bytes received and
    the bytes that `send_slice` has taken. -/
structure Echo where
  server : EchoServer
  sock : PolledSocket
  received : List UInt8
  echoed : List UInt8

namespace Echo

def start (init : EchoServer × PolledSocket) : Echo := ⟨init.1, init.2, [], []⟩

def setState (s : Echo) (st : State) : Echo :=
  { s with sock := { s.sock with socket := s.sock.socket.setState st } }

def step (s : Echo) : EchoOp → Except NotNow Echo
  | .process =>
      let got := s.server.process s.sock
      .ok { s with
        server := got.2.1
        sock := got.2.2
        echoed := s.echoed ++ got.2.2.buffers.txBuffer.drop s.sock.buffers.txBuffer.length }
  | .syn =>
      if s.sock.socket.state = .listen then
        .ok { s.setState .synReceived with received := [], echoed := [] }
      else .error .mk
  | .ack =>
      if s.sock.socket.state = .synReceived then .ok (s.setState .established) else .error .mk
  | .data bytes =>
      if s.sock.socket.state = .established ∧
          s.sock.buffers.rxBuffer.length + bytes.length ≤ s.sock.rxCapacity then
        .ok { s with
          sock := { s.sock with
            buffers := { s.sock.buffers with rxBuffer := s.sock.buffers.rxBuffer ++ bytes } }
          received := s.received ++ bytes }
      else .error .mk
  | .fin =>
      if s.sock.socket.state = .synReceived ∨ s.sock.socket.state = .established then
        .ok { s with
          sock := { s.sock with
            socket := s.sock.socket.setState .closeWait
            buffers := { s.sock.buffers with rxFinReceived := true } } }
      else .error .mk
  | .acked n =>
      if n ≤ s.sock.buffers.txBuffer.length then
        .ok { s with
          sock := { s.sock with
            buffers := { s.sock.buffers with txBuffer := s.sock.buffers.txBuffer.drop n } } }
      else .error .mk
  | .finAcked =>
      if s.sock.socket.state = .lastAck ∧ s.sock.buffers.txBuffer = [] then
        .ok (s.setState .closed)
      else .error .mk

/-- The bytes echoed are a prefix of those received, and all of them once the
    socket is closed. -/
structure Echoes (s : Echo) : Prop where
  isPrefix : s.echoed <+: s.received
  complete : s.sock.socket.state = .lastAck → s.echoed = s.received

/-- The call that closes finds the unread bytes in one piece, and room for them
    behind those that are pending. -/
def LastCallFits (s : Echo) : EchoOp → Prop
  | .process =>
      s.sock.socket.state = .closeWait →
        s.sock.buffers.rxBuffer.length ≤ s.sock.rxCapacity - s.sock.rxReadAt ∧
        s.server.pendingTx.length + s.sock.buffers.rxBuffer.length ≤ s.sock.buffers.window
  | _ => True

/-! ## Every byte is accounted for -/

/-- While there is a connection, what was received is what is echoed, pending and
    unread, in this order; before one, nothing is pending or unread. -/
structure Accounted (s : Echo) : Prop where
  echoed : s.echoed <+: s.received
  connected : s.sock.socket.state.isActive = true →
    s.echoed ++ s.server.pendingTx ++ s.sock.buffers.rxBuffer = s.received
  listening : s.sock.socket.state = .listen →
    s.server.pendingTx = [] ∧ s.sock.buffers.rxBuffer = []
  idle : s.server.wasConnected = false → s.server.pendingTx = []

theorem prefix_of_append {a b c d : List UInt8} (h : a ++ b ++ c = d) : a <+: d :=
  ⟨b ++ c, by rw [← List.append_assoc]; exact h⟩

/-- A connection that is accounted for. -/
theorem accounted_of_active {s : Echo} (hactive : s.sock.socket.state.isActive = true)
    (heq : s.echoed ++ s.server.pendingTx ++ s.sock.buffers.rxBuffer = s.received)
    (hidle : s.server.wasConnected = false → s.server.pendingTx = []) : Accounted s where
  echoed := prefix_of_append heq
  connected := fun _ => heq
  listening := fun h => by
    rw [h] at hactive
    cases hactive
  idle := hidle

/-- What a call on an active socket has echoed afterwards. -/
theorem process_echoed {s s' : Echo} (hactive : s.sock.socket.state.isActive = true)
    (h : s.step .process = .ok s') :
    s'.echoed = s.echoed ++
      (s.server.pendingTx ++ s.sock.contiguous).take (EchoServer.sendRoom s.sock) := by
  obtain ⟨-, -, -, -, htx⟩ := EchoServer.process_active s.server hactive
  cases h
  show s.echoed ++ _ = _
  rw [htx, List.drop_left]

/-- A call on any other socket echoes nothing. -/
theorem process_idle {s s' : Echo} (hactive : s.sock.socket.state.isActive = false)
    (h : s.step .process = .ok s') :
    s'.echoed = s.echoed ∧ s'.received = s.received ∧ s'.server = s.server.disconnect ∧
      s'.sock = EchoServer.relisten s.server.port s.sock := by
  have hprocess := EchoServer.process_inactive s.server hactive
  simp only [step, hprocess] at h
  cases h
  refine ⟨?_, rfl, rfl, rfl⟩
  show s.echoed ++ _ = s.echoed
  obtain hsame | ⟨-, -, -, htx⟩ := EchoServer.relisten_cases s.server.port s.sock
  · rw [hsame, List.drop_length, List.append_nil]
  · rw [htx, List.drop_nil, List.append_nil]

/-- A call moves bytes from the unread to the pending and from these to the echoed,
    and loses none. -/
theorem process_accounted {s s' : Echo} (hs : Accounted s) (h : s.step .process = .ok s') :
    Accounted s' := by
  cases hactive : s.sock.socket.state.isActive with
  | true =>
      have hechoed := process_echoed hactive h
      obtain ⟨hpending, hwas, hstate, hrx, -⟩ := EchoServer.process_active s.server hactive
      cases h
      refine accounted_of_active ?_ ?_ ?_
      · show State.isActive (EchoServer.process s.server s.sock).2.2.socket.state = true
        rw [hstate]
        split
        · rfl
        · exact hactive
      · rw [hechoed]
        show _ ++ (EchoServer.process s.server s.sock).2.1.pendingTx ++
          (EchoServer.process s.server s.sock).2.2.buffers.rxBuffer = s.received
        rw [hpending, hrx, List.append_assoc s.echoed, List.take_append_drop, ← hs.connected hactive]
        simp only [List.append_assoc, PolledSocket.contiguous, List.take_append_drop]
      · intro hfalse
        exact Bool.noConfusion (hwas.symm.trans hfalse)
  | false =>
      obtain ⟨hechoed, hreceived, hserver, hsock⟩ := process_idle hactive h
      have hpending : s'.server.pendingTx = [] := by
        rw [hserver]
        exact EchoServer.disconnect_pendingTx hs.idle
      obtain hsame | ⟨-, hlisten, hrx, -⟩ := EchoServer.relisten_cases s.server.port s.sock
      · constructor
        · rw [hechoed, hreceived]
          exact hs.echoed
        · intro hs'
          rw [hsock, hsame, hactive] at hs'
          cases hs'
        · intro hs'
          rw [hsock, hsame] at hs'
          refine ⟨hpending, ?_⟩
          rw [hsock, hsame]
          exact (hs.listening hs').2
        · intro _
          exact hpending
      · constructor
        · rw [hechoed, hreceived]
          exact hs.echoed
        · intro hs'
          rw [hsock, hlisten] at hs'
          cases hs'
        · intro _
          refine ⟨hpending, ?_⟩
          rw [hsock]
          exact hrx
        · intro _
          exact hpending

/-- The states that the network moves the connection through are active ones. -/
theorem network_accounted {s s' : Echo} {op : EchoOp} (hop : op ≠ .process) (hs : Accounted s)
    (h : s.step op = .ok s') : Accounted s' := by
  cases op with
  | process => exact absurd rfl hop
  | syn =>
      obtain ⟨hlisten, rfl⟩ := guard_eq_ok h
      obtain ⟨hpending, hrx⟩ := hs.listening hlisten
      refine accounted_of_active rfl ?_ hs.idle
      show [] ++ s.server.pendingTx ++ s.sock.buffers.rxBuffer = []
      rw [hpending, hrx]
      rfl
  | ack =>
      obtain ⟨hsyn, rfl⟩ := guard_eq_ok h
      exact accounted_of_active rfl (hs.connected (by rw [hsyn]; rfl)) hs.idle
  | data bytes =>
      obtain ⟨⟨hest, -⟩, rfl⟩ := guard_eq_ok h
      have hactive : s.sock.socket.state.isActive = true := by
        rw [hest]
        rfl
      refine accounted_of_active hactive ?_ hs.idle
      show s.echoed ++ s.server.pendingTx ++ (s.sock.buffers.rxBuffer ++ bytes) =
        s.received ++ bytes
      rw [← List.append_assoc, hs.connected hactive]
  | fin =>
      obtain ⟨hopen, rfl⟩ := guard_eq_ok h
      have hactive : s.sock.socket.state.isActive = true := by
        rcases hopen with hsyn | hest
        · rw [hsyn]
          rfl
        · rw [hest]
          rfl
      exact accounted_of_active rfl (hs.connected hactive) hs.idle
  | acked n =>
      obtain ⟨-, rfl⟩ := guard_eq_ok h
      exact ⟨hs.echoed, hs.connected, hs.listening, hs.idle⟩
  | finAcked =>
      obtain ⟨-, rfl⟩ := guard_eq_ok h
      constructor
      · exact hs.echoed
      · intro hactive
        cases hactive
      · intro hlisten
        cases hlisten
      · exact hs.idle

theorem accounted_step {s s' : Echo} {op : EchoOp} (hs : Accounted s) (h : s.step op = .ok s') :
    Accounted s' := by
  by_cases hop : op = .process
  · rw [hop] at h
    exact process_accounted hs h
  · exact network_accounted hop hs h

/-- A server as it is created. -/
theorem start_accounted {port : UInt16} {config : SocketConfig} {init : EchoServer × PolledSocket}
    (h : EchoServer.new port config = some init) : Accounted (start init) := by
  rw [EchoServer.new] at h
  split at h
  · cases h
  · rename_i sock hlisten
    cases h
    rw [PolledSocket.listen, Tcp.Socket.listen] at hlisten
    split at hlisten
    · cases hlisten
    · rename_i socket hsocket
      split at hsocket
      · cases hsocket
      · cases hsocket
        cases hlisten
        constructor
        · exact List.prefix_refl []
        · intro hactive
          cases hactive
        · intro _
          exact ⟨rfl, rfl⟩
        · intro _
          rfl

/-- In every run, what is echoed is a prefix of what is received. -/
theorem echoed_prefix_of_run {port : UInt16} {config : SocketConfig}
    {init : EchoServer × PolledSocket} (h : EchoServer.new port config = some init)
    {ops : List EchoOp} {t : Echo} (hrun : run step (start init) ops = .ok t) :
    t.echoed <+: t.received :=
  (run_invariant (fun _ _ _ => accounted_step) (start_accounted h) hrun).echoed

/-! ## The call that closes -/

/-- In `CloseWait`, a call echoes all that is left exactly if it fits. -/
theorem closing_complete_iff {s s' : Echo} (hs : Accounted s)
    (hwait : s.sock.socket.state = .closeWait) (h : s.step .process = .ok s') :
    s'.echoed = s'.received ↔ LastCallFits s .process := by
  have hactive : s.sock.socket.state.isActive = true := by
    rw [hwait]
    rfl
  have hroom : EchoServer.sendRoom s.sock = s.sock.buffers.window := by
    rw [EchoServer.sendRoom, hwait]
    rfl
  have hreceived : s'.received = s.received := by
    cases h
    rfl
  have hechoed := process_echoed hactive h
  rw [hroom] at hechoed
  -- of two prefixes of the same list, the lengths decide
  have hlength : s'.echoed = s'.received ↔ s'.echoed.length = s'.received.length :=
    ⟨congrArg List.length, (process_accounted hs h).echoed.eq_of_length⟩
  have hbefore := congrArg List.length (hs.connected hactive)
  rw [hlength, hreceived, hechoed, LastCallFits]
  simp only [List.length_append, List.length_take, PolledSocket.contiguous, hwait, true_implies]
    at hbefore ⊢
  omega

/-- The state after a call. -/
theorem state_process {s s' : Echo} (h : s.step .process = .ok s')
    (hlast : s'.sock.socket.state = .lastAck) :
    s.sock.socket.state = .closeWait ∨ s.sock.socket.state = .lastAck := by
  cases hactive : s.sock.socket.state.isActive with
  | true =>
      obtain ⟨-, -, hstate, -, -⟩ := EchoServer.process_active s.server hactive
      cases h
      rw [hstate] at hlast
      split at hlast
      · left
        assumption
      · right
        exact hlast
  | false =>
      obtain ⟨-, -, -, hsock⟩ := process_idle hactive h
      rw [hsock] at hlast
      obtain hsame | ⟨-, hlisten, -, -⟩ := EchoServer.relisten_cases s.server.port s.sock
      · right
        rw [← hsame]
        exact hlast
      · rw [hlisten] at hlast
        cases hlast

/-- A call after the close echoes nothing. -/
theorem process_lastAck {s s' : Echo} (hlast : s.sock.socket.state = .lastAck)
    (h : s.step .process = .ok s') : s'.echoed = s.echoed ∧ s'.received = s.received := by
  have hroom : EchoServer.sendRoom s.sock = 0 := by
    rw [EchoServer.sendRoom, hlast]
    rfl
  have hechoed := process_echoed (by rw [hlast]; rfl) h
  rw [hroom, List.take_zero, List.append_nil] at hechoed
  cases h
  exact ⟨hechoed, rfl⟩

/-- **ONE CALL**: it keeps the promise exactly if, should it close the socket, all
    that is left fits. -/
theorem process_echoes_iff {s s' : Echo} (hs : Accounted s) (he : Echoes s)
    (h : s.step .process = .ok s') : Echoes s' ↔ LastCallFits s .process := by
  by_cases hwait : s.sock.socket.state = .closeWait
  · rw [← closing_complete_iff hs hwait h]
    constructor
    · intro he'
      refine he'.complete ?_
      obtain ⟨-, -, hstate, -, -⟩ := EchoServer.process_active s.server
        (show s.sock.socket.state.isActive = true by rw [hwait]; rfl)
      cases h
      exact hstate.trans (if_pos hwait)
    · intro hall
      exact ⟨(process_accounted hs h).echoed, fun _ => hall⟩
  · refine iff_of_true ⟨(process_accounted hs h).echoed, ?_⟩ (fun h' => absurd h' hwait)
    intro hlast'
    have hlast := (state_process h hlast').resolve_left hwait
    obtain ⟨hechoed, hreceived⟩ := process_lastAck hlast h
    rw [hechoed, hreceived]
    exact he.complete hlast

/-- The network does not close the server's side. -/
theorem network_echoes {s s' : Echo} {op : EchoOp} (hop : op ≠ .process) (hs : Accounted s)
    (he : Echoes s) (h : s.step op = .ok s') : Echoes s' := by
  refine ⟨(network_accounted hop hs h).echoed, ?_⟩
  intro hlast
  cases op with
  | process => exact absurd rfl hop
  | acked n =>
      obtain ⟨-, rfl⟩ := guard_eq_ok h
      exact he.complete hlast
  | data bytes =>
      obtain ⟨⟨hest, -⟩, rfl⟩ := guard_eq_ok h
      exact State.noConfusion (hest.symm.trans hlast)
  | syn | ack | fin | finAcked =>
      obtain ⟨-, rfl⟩ := guard_eq_ok h
      cases hlast

/-- **EVERYTHING IS ECHOED BEFORE THE CLOSE** in the runs where each call that
    closes finds the unread bytes in one piece and room for all that is left, and
    in no other. -/
theorem echoes_all_iff {port : UInt16} {config : SocketConfig} {init : EchoServer × PolledSocket}
    (h : EchoServer.new port config = some init) (ops : List EchoOp) :
    (∀ bs, bs <+: ops → ∀ t, run step (start init) bs = .ok t → Echoes t) ↔
      Along step LastCallFits (start init) ops := by
  have hstart := start_accounted h
  have hecho : Echoes (start init) := ⟨hstart.echoed, fun _ => rfl⟩
  have halways : (∀ bs, bs <+: ops → ∀ t, run step (start init) bs = .ok t →
      Accounted t ∧ Echoes t) ↔ Along step LastCallFits (start init) ops := by
    refine always_iff_along ?_ ?_ ops (start init) ⟨hstart, hecho⟩
    · rintro s op s' ⟨hs, he⟩ hstep
      have hs' := accounted_step hs hstep
      by_cases hop : op = .process
      · rw [hop] at hstep ⊢
        rw [← process_echoes_iff hs he hstep]
        exact and_iff_right hs'
      · refine iff_of_true ⟨hs', network_echoes hop hs he hstep⟩ ?_
        cases op with
        | process => exact absurd rfl hop
        | _ => trivial
    · rintro s op e - hstep
      cases op with
      | process => cases hstep
      | _ => trivial
  rw [← halways]
  constructor
  · intro hall bs hbs t ht
    exact ⟨run_invariant (fun _ _ _ => accounted_step) hstart ht, hall bs hbs t ht⟩
  · intro hall bs hbs t ht
    exact (hall bs hbs t ht).2

/-- A byte that arrives with the FIN is echoed by the call that closes. -/
theorem one_byte_echoed :
    ∃ init, EchoServer.new 7 ⟨2, 8⟩ = some init ∧
      ∀ bs, bs <+: [.syn, .ack, .data [1], .fin, .process] →
        ∀ t, run step (start init) bs = .ok t → Echoes t := by
  refine ⟨_, rfl, (echoes_all_iff (show EchoServer.new 7 ⟨2, 8⟩ = some _ from rfl) _).mpr ?_⟩
  refine ⟨trivial, fun s₁ h₁ => ?_⟩
  cases h₁
  refine ⟨trivial, fun s₂ h₂ => ?_⟩
  cases h₂
  refine ⟨trivial, fun s₃ h₃ => ?_⟩
  cases h₃
  refine ⟨trivial, fun s₄ h₄ => ?_⟩
  cases h₄
  exact ⟨fun _ => by decide, fun _ _ => trivial⟩

/-- A send buffer of one byte: the first byte is echoed and not yet acknowledged,
    the second is received, and the call after the FIN reads it, finds the buffer
    full, and closes. -/
theorem pending_byte_lost :
    ∃ init, EchoServer.new 7 ⟨8, 1⟩ = some init ∧
      ∃ t, run step (start init)
          [.syn, .ack, .data [1], .process, .data [2], .fin, .process] = .ok t ∧
        t.echoed = [1] ∧ t.received = [1, 2] ∧ ¬ Echoes t := by
  refine ⟨_, rfl, _, rfl, rfl, rfl, ?_⟩
  intro he
  have hall := he.complete rfl
  revert hall
  decide

-- a receive buffer of two bytes: the second and the third wrap around its end, and
-- the call after the FIN reads one of them
example :
    ∃ init, EchoServer.new 7 ⟨2, 8⟩ = some init ∧
      ∃ t, run step (start init)
          [.syn, .ack, .data [1], .process, .data [2, 3], .fin, .process] = .ok t ∧
        t.echoed = [1, 2] ∧ t.received = [1, 2, 3] ∧ t.sock.socket.state = .lastAck :=
  ⟨_, rfl, _, rfl, rfl, rfl, rfl⟩

end Echo

end DpdkNet
