import DpdkNet.Server.EchoServer
import DpdkNet.Socket.StreamLink

/-! # The polled echo client, and its server

    `dpdk-net-test/src/manual/tcp_echo.rs`, `EchoClient`: `send` queues data,
    `process` sends it and then reads the echo.  `run_echo_test` calls the
    `process` of the server and of the client between polls of the interface;
    here the calls and the network interleave in any order, over one connection.

    In every run the client has received a prefix of what it has sent, so
    `verify_echo` fails for want of bytes only (`verify_fails_only_short`).  The
    client sends before it reads and never sends again: what is queued once it
    waits for the echo is never sent, and the client never completes
    (`queued_while_waiting_is_lost`). -/

namespace DpdkNet

open Tcp Runs Channel

/-- Neither closed nor in time-wait. -/
def Tcp.State.isOpen (st : State) : Bool := !st.terminal

/-- A socket that is not active, not closed and not in time-wait is listening. -/
theorem Tcp.State.eq_listen {st : State} (hactive : st.isActive = false)
    (hterm : st.terminal = false) : st = .listen := by
  cases st with
  | listen => rfl
  | closed | timeWait => cases hterm
  | _ => cases hactive

theorem Tcp.State.terminal_of_isActive {st : State} (hactive : st.isActive = true) :
    st.terminal = false := by
  cases st with
  | closed | timeWait => cases hactive
  | _ => rfl

/-! ## The client -/

/-- State of the echo client. -/
inductive EchoClientState where
  /-- waiting for the connection to be established -/
  | connecting
  /-- connected and ready to send -/
  | connected
  /-- waiting to receive the echo -/
  | waitingForEcho
  /-- all expected data received -/
  | complete
  /-- connection closed or error -/
  | closed
  deriving DecidableEq, Repr

structure EchoClientStats where
  bytesSent : Nat
  bytesReceived : Nat
  deriving DecidableEq, Repr

structure EchoClient where
  state : EchoClientState
  dataToSend : List UInt8
  sendOffset : Nat
  receivedData : List UInt8
  expectedLen : Nat
  stats : EchoClientStats
  deriving DecidableEq, Repr

namespace EchoClient

/-- A client whose socket has been told to connect. -/
def new : EchoClient := ⟨.connecting, [], 0, [], 0, ⟨0, 0⟩⟩

def isComplete (client : EchoClient) : Bool := client.state = .complete

/-- Queue data to be sent and echoed back. -/
def send (client : EchoClient) (data : List UInt8) : EchoClient :=
  { client with
    dataToSend := client.dataToSend ++ data
    expectedLen := client.expectedLen + data.length }

/-- Does the received data match what was sent?  `none` is the panic of a slice
    beyond the end. -/
def verifyEcho (client : EchoClient) : Option Bool :=
  if client.receivedData.length < client.expectedLen then some false
  else if client.dataToSend.length < client.expectedLen then none
  else some (client.receivedData.take client.expectedLen = client.dataToSend.take client.expectedLen)

/-- `Connecting`: the branch on queued data makes no difference. -/
def connect (client : EchoClient) (sock : PolledSocket) : EchoClient :=
  if sock.socket.state.isActive then
    { client with state := if client.dataToSend.isEmpty then .connected else .connected }
  else client

/-- Send any pending data. -/
def sendPending (client : EchoClient) (sock : PolledSocket) : EchoClient × PolledSocket :=
  if client.sendOffset < client.dataToSend.length ∧ sock.canSend = true then
    match sock.sendSlice (client.dataToSend.drop client.sendOffset) with
    | (.ok sent, sock) =>
        ({ client with
            stats := { client.stats with bytesSent := client.stats.bytesSent + sent }
            sendOffset := client.sendOffset + sent }, sock)
    | (.error _, sock) => (client, sock)
  else (client, sock)

/-- Receive echoed data: all of what one call shows. -/
def receive (client : EchoClient) (sock : PolledSocket) : EchoClient × PolledSocket :=
  if sock.canRecv then
    match sock.recv fun buffer => if 0 < buffer.length then (buffer.length, buffer) else (0, []) with
    | (.ok data, sock) =>
        if data.isEmpty then (client, sock)
        else
          ({ client with
              stats := { client.stats with bytesReceived := client.stats.bytesReceived + data.length }
              receivedData := client.receivedData ++ data }, sock)
    | (.error _, sock) => (client, sock)
  else (client, sock)

/-- The state machine, before the check for a closed connection. -/
def advance (client : EchoClient) (sock : PolledSocket) : EchoClient × PolledSocket :=
  match client.state with
  | .connecting => (client.connect sock, sock)
  | .connected =>
      let sent := client.sendPending sock
      if sent.1.dataToSend.length ≤ sent.1.sendOffset ∧ sent.1.dataToSend ≠ [] then
        ({ sent.1 with state := .waitingForEcho }, sent.2)
      else sent
  | .waitingForEcho =>
      let got := client.receive sock
      if got.1.expectedLen ≤ got.1.receivedData.length then
        ({ got.1 with state := .complete }, got.2)
      else got
  | .complete | .closed => (client, sock)

/-- Process the client: handle connection, send data, receive echo.  Returns true
    if the state changed. -/
def process (client : EchoClient) (sock : PolledSocket) : Bool × EchoClient × PolledSocket :=
  let next := client.advance sock
  let closed : EchoClient :=
    if next.2.socket.state.isOpen = false ∧ next.1.state ≠ .complete then
      { next.1 with state := .closed }
    else next.1
  (closed.state ≠ client.state, closed, next.2)

/-! ## What a call does -/

/-- What a call of `process` reads and sends, and the state it goes to. -/
structure Processes (client : EchoClient) (sock : PolledSocket) (k : Nat) (bs : List UInt8)
    (st : EchoClientState) (r : EchoClient × PolledSocket) : Prop where
  next : r.1 = { client with
    state := st
    sendOffset := client.sendOffset + bs.length
    receivedData := client.receivedData ++ sock.buffers.rxBuffer.take k
    stats := ⟨client.stats.bytesSent + bs.length,
      client.stats.bytesReceived + (sock.buffers.rxBuffer.take k).length⟩ }
  socket : r.2.socket = sock.socket
  buffers : r.2.buffers = { sock.buffers with
    rxBuffer := sock.buffers.rxBuffer.drop k
    txBuffer := sock.buffers.txBuffer ++ bs }
  sends : bs <+: client.dataToSend.drop client.sendOffset
  sends_open : bs ≠ [] → sock.socket.state.maySend = true ∧ client.state = .connected
  complete : st = .complete → client.state = .complete ∨
    client.expectedLen ≤ client.receivedData.length + (sock.buffers.rxBuffer.take k).length
  waiting : client.state = .waitingForEcho → st = .waitingForEcho ∨ st = .complete ∨ st = .closed
  closed : client.state = .closed → st = .closed

section Process

variable (client : EchoClient) (sock : PolledSocket)

/-- A call that neither reads nor sends. -/
theorem processes_idle {st : EchoClientState}
    (hcomplete : st = .complete → client.state = .complete ∨
      client.expectedLen ≤ client.receivedData.length)
    (hwaiting : client.state = .waitingForEcho →
      st = .waitingForEcho ∨ st = .complete ∨ st = .closed)
    (hclosed : client.state = .closed → st = .closed) :
    Processes client sock 0 [] st ({ client with state := st }, sock) where
  next := by simp
  socket := rfl
  buffers := by simp
  sends := List.nil_prefix
  sends_open := fun h => absurd rfl h
  complete := by simpa using hcomplete
  waiting := hwaiting
  closed := hclosed

/-- Reading takes the contiguous piece at the front. -/
theorem recv_contiguous (hmay : sock.buffers.mayRecv sock.socket.state = true) :
    ∃ readAt, (sock.recv fun buffer => if 0 < buffer.length then (buffer.length, buffer) else (0, []))
      = (.ok sock.contiguous, { sock with
          buffers := { sock.buffers with
            rxBuffer := sock.buffers.rxBuffer.drop (sock.rxCapacity - sock.rxReadAt) }
          rxReadAt := readAt }) := by
  have hdrop := EchoServer.drop_length_contiguous sock
  rw [PolledSocket.recv, if_pos hmay]
  cases hpiece : sock.contiguous with
  | nil =>
      rw [hpiece] at hdrop
      exact ⟨_, by rw [← hdrop]; rfl⟩
  | cons b bs =>
      rw [hpiece] at hdrop
      exact ⟨_, by rw [← hdrop]; rfl⟩

/-- Reading, in whatever state the socket is. -/
theorem receive_eq :
    (client.receive sock).1 = { client with
      receivedData := client.receivedData ++ sock.contiguous
      stats := { client.stats with
        bytesReceived := client.stats.bytesReceived + sock.contiguous.length } } ∧
    (client.receive sock).2.socket = sock.socket ∧
    (client.receive sock).2.buffers = { sock.buffers with
      rxBuffer := sock.buffers.rxBuffer.drop (sock.rxCapacity - sock.rxReadAt) } := by
  rw [receive]
  cases hcan : sock.canRecv with
  | false =>
      have hnil := EchoServer.rxBuffer_eq_nil_of_canRecv hcan
      have hsame : ({ sock.buffers with rxBuffer := [] } : Buffers) = sock.buffers := by
        rw [← hnil]
      simp [PolledSocket.contiguous, hnil, hsame]
  | true =>
      have hmay : sock.buffers.mayRecv sock.socket.state = true := by
        rw [PolledSocket.canRecv] at hcan
        split at hcan
        · assumption
        · cases hcan
      obtain ⟨readAt, hrecv⟩ := recv_contiguous sock hmay
      rw [if_pos rfl, hrecv]
      cases hpiece : sock.contiguous with
      | nil => simp
      | cons b bs => simp

/-- How much of what is queued fits. -/
theorem sendPending_eq :
    ∃ bs, bs <+: client.dataToSend.drop client.sendOffset ∧
      (bs ≠ [] → sock.socket.state.maySend = true) ∧
      (client.sendPending sock).1 = { client with
        sendOffset := client.sendOffset + bs.length
        stats := { client.stats with bytesSent := client.stats.bytesSent + bs.length } } ∧
      (client.sendPending sock).2.socket = sock.socket ∧
      (client.sendPending sock).2.buffers =
        { sock.buffers with txBuffer := sock.buffers.txBuffer ++ bs } := by
  rw [sendPending]
  by_cases hsend : client.sendOffset < client.dataToSend.length ∧ sock.canSend = true
  · have hmay : sock.socket.state.maySend = true := by
      have hcan := hsend.2
      rw [PolledSocket.canSend] at hcan
      split at hcan
      · assumption
      · cases hcan
    refine ⟨(client.dataToSend.drop client.sendOffset).take sock.buffers.window,
      List.take_prefix _ _, fun _ => hmay, ?_⟩
    rw [if_pos hsend, PolledSocket.sendSlice, sendSlice_open sock.buffers hmay]
    simp [Nat.min_comm]
  · refine ⟨[], List.nil_prefix, fun h => absurd rfl h, ?_⟩
    rw [if_neg hsend]
    simp

/-- The state machine, before the check for a closed connection. -/
theorem advance_processes :
    ∃ k bs, Processes client sock k bs (client.advance sock).1.state (client.advance sock) := by
  rw [advance]
  cases hst : client.state with
  | connecting =>
      refine ⟨0, [], ?_⟩
      show Processes client sock 0 [] (client.connect sock).state (client.connect sock, sock)
      rw [connect]
      by_cases hactive : sock.socket.state.isActive = true
      · rw [if_pos hactive, ite_self]
        refine processes_idle client sock ?_ ?_ ?_
        · intro h
          cases h
        · intro h
          rw [hst] at h
          cases h
        · intro h
          rw [hst] at h
          cases h
      · rw [if_neg hactive]
        refine processes_idle client sock ?_ ?_ ?_
        · exact Or.inl
        · exact Or.inl
        · exact id
  | connected =>
      obtain ⟨bs, hpre, hopen, hclient, hsocket, hbuffers⟩ := sendPending_eq client sock
      have hnext : ∀ st, st = .connected ∨ st = .waitingForEcho →
          Processes client sock 0 bs st
            ({ (client.sendPending sock).1 with state := st }, (client.sendPending sock).2) := by
        intro st hcases
        refine ⟨?_, hsocket, ?_, hpre, fun hne => ⟨hopen hne, hst⟩, ?_, ?_, ?_⟩
        · rw [hclient]
          simp
        · rw [hbuffers]
          simp
        · rintro rfl
          rcases hcases with h | h
          · cases h
          · cases h
        · intro h
          rw [hst] at h
          cases h
        · intro h
          rw [hst] at h
          cases h
      refine ⟨0, bs, ?_⟩
      dsimp only
      split
      · exact hnext .waitingForEcho (Or.inr rfl)
      · have hstate : (client.sendPending sock).1.state = .connected := by
          rw [hclient]
          exact hst
        exact hnext _ (Or.inl hstate)
  | waitingForEcho =>
      obtain ⟨hclient, hsocket, hbuffers⟩ := receive_eq client sock
      have hnext : ∀ st, (st = .complete → client.expectedLen ≤
            client.receivedData.length + sock.contiguous.length) →
          st = .waitingForEcho ∨ st = .complete →
          Processes client sock (sock.rxCapacity - sock.rxReadAt) [] st
            ({ (client.receive sock).1 with state := st }, (client.receive sock).2) := by
        intro st hcomplete hcases
        refine ⟨?_, hsocket, ?_, List.nil_prefix, fun h => absurd rfl h,
          fun h => Or.inr (hcomplete h), ?_, ?_⟩
        · rw [hclient]
          rfl
        · rw [hbuffers]
          simp
        · intro _
          rcases hcases with h | h
          · exact Or.inl h
          · exact Or.inr (Or.inl h)
        · intro h
          rw [hst] at h
          cases h
      refine ⟨sock.rxCapacity - sock.rxReadAt, [], ?_⟩
      dsimp only
      have hlen : (client.receive sock).1.receivedData.length
          = client.receivedData.length + sock.contiguous.length := by
        rw [hclient]
        exact List.length_append
      split
      · rename_i hall
        refine hnext .complete (fun _ => ?_) (Or.inr rfl)
        rw [← hlen]
        rw [hclient] at hall ⊢
        exact hall
      · have hstate : (client.receive sock).1.state = .waitingForEcho := by
          rw [hclient]
          exact hst
        exact hnext _ (fun h => by rw [hstate] at h; cases h) (Or.inl hstate)
  | complete =>
      refine ⟨0, [], processes_idle client sock ?_ ?_ ?_⟩
      · exact Or.inl
      · exact Or.inl
      · exact id
  | closed =>
      refine ⟨0, [], processes_idle client sock ?_ ?_ ?_⟩
      · exact Or.inl
      · exact Or.inl
      · exact id

/-- **A CALL** of `process`. -/
theorem process_processes :
    ∃ k bs st, Processes client sock k bs st (client.process sock).2 := by
  obtain ⟨k, bs, hadv⟩ := advance_processes client sock
  rw [process]
  by_cases hclosed : (client.advance sock).2.socket.state.isOpen = false ∧
      (client.advance sock).1.state ≠ .complete
  · refine ⟨k, bs, .closed, ?_⟩
    simp only [if_pos hclosed]
    refine ⟨?_, hadv.socket, hadv.buffers, hadv.sends, hadv.sends_open, ?_, ?_, fun _ => rfl⟩
    · rw [hadv.next]
    · intro h
      cases h
    · intro _
      exact Or.inr (Or.inr rfl)
  · refine ⟨k, bs, (client.advance sock).1.state, ?_⟩
    simp only [if_neg hclosed]
    exact hadv

end Process

end EchoClient

/-! ## The client and the server -/

/-- What `process` left of a socket, with what it has read and sent. -/
def StreamEnd.afterProcess (e : StreamEnd) (sock : PolledSocket) : StreamEnd :=
  { e with
    socket := sock.socket
    buffers := sock.buffers
    read := e.read ++
      e.buffers.rxBuffer.take (e.buffers.rxBuffer.length - sock.buffers.rxBuffer.length)
    written := e.written ++ sock.buffers.txBuffer.drop e.buffers.txBuffer.length
    -- the only change of state is a close
    finSent := e.finSent || decide (sock.socket.state ≠ e.socket.state) }

/-- Reading `k` bytes, sending `bs` and perhaps closing. -/
theorem StreamEnd.afterProcess_calls {e : StreamEnd} {sock : PolledSocket} {k : Nat}
    {bs : List UInt8}
    (hbuffers : sock.buffers = { e.buffers with
      rxBuffer := e.buffers.rxBuffer.drop k, txBuffer := e.buffers.txBuffer ++ bs })
    (hopen : bs ≠ [] → e.socket.state.maySend = true)
    (hstate : sock.socket.state = e.socket.state ∨ sock.socket.state.sendClosed = true) :
    Relation.ReflTransGen StreamEnd.Effect e (e.afterProcess sock) ∧
      (e.afterProcess sock).read = e.read ++ e.buffers.rxBuffer.take k ∧
      (e.afterProcess sock).written = e.written ++ bs := by
  have hread : e.buffers.rxBuffer.take
      (e.buffers.rxBuffer.length - (e.buffers.rxBuffer.drop k).length)
      = e.buffers.rxBuffer.take k := by
    rw [List.take_eq_take_iff, List.length_drop]
    omega
  have heq : e.afterProcess sock = { e with
      socket := sock.socket
      buffers := { e.buffers with
        rxBuffer := e.buffers.rxBuffer.drop k, txBuffer := e.buffers.txBuffer ++ bs }
      read := e.read ++ e.buffers.rxBuffer.take k
      written := e.written ++ bs
      finSent := e.finSent || decide (sock.socket.state ≠ e.socket.state) } := by
    rw [afterProcess, hbuffers, hread, List.drop_left]
  refine ⟨?_, by rw [heq], by rw [heq]⟩
  rw [heq]
  -- first the read, then the write, then the state
  have hfirst : Relation.ReflTransGen StreamEnd.Effect e { e with
      buffers := { e.buffers with rxBuffer := e.buffers.rxBuffer.drop k }
      read := e.read ++ e.buffers.rxBuffer.take k } := .single (.read k)
  have hsecond : Relation.ReflTransGen StreamEnd.Effect e { e with
      buffers := { e.buffers with
        rxBuffer := e.buffers.rxBuffer.drop k, txBuffer := e.buffers.txBuffer ++ bs }
      read := e.read ++ e.buffers.rxBuffer.take k
      written := e.written ++ bs } := by
    by_cases hbs : bs = []
    · rw [hbs, List.append_nil, List.append_nil]
      exact hfirst
    · exact hfirst.tail (.write rfl bs (hopen hbs))
  by_cases hsame : sock.socket.state = e.socket.state
  · have hno : (e.finSent || decide (sock.socket.state ≠ e.socket.state)) = e.finSent := by
      simp [hsame]
    rw [hno]
    exact hsecond.tail (.register hsame)
  · exact hsecond.tail (.close _ (hstate.resolve_left hsame))

/-- A call of one of the two, a step of the handshake, or what the network does. -/
inductive EchoTestOp where
  /-- `EchoClient::send` -/
  | send (data : List UInt8)
  | client
  | server
  /-- `EchoClient::close` -/
  | close
  | syn
  | synAck
  | ack
  | net (x : Side) (op : NetOp)

/-- The client and the server of one connection. -/
structure EchoTest where
  link : Link
  rxReadAt : Side → Nat
  client : EchoClient
  server : EchoServer

namespace EchoTest

/-- The server listens, and the client's socket has been told to connect. -/
def start (init : EchoServer × PolledSocket) (config : SocketConfig) : EchoTest where
  link
    | .client => { StreamEnd.start config.rxBufferSize config.txBufferSize with
        socket := ⟨.synSent, none, none⟩ }
    | .server => { StreamEnd.start init.2.rxCapacity init.2.buffers.txCapacity with
        socket := init.2.socket }
  rxReadAt := fun _ => 0
  client := .new
  server := init.1

/-- The socket as `process` finds it. -/
def sock (s : EchoTest) (x : Side) : PolledSocket where
  socket := (s.link x).socket
  buffers := (s.link x).buffers
  rxCapacity := (s.link x).rxCapacity
  rxReadAt := s.rxReadAt x

/-- The socket as `process` leaves it. -/
def put (s : EchoTest) (x : Side) (sock : PolledSocket) : EchoTest :=
  { s with
    link := Function.update s.link x ((s.link x).afterProcess sock)
    rxReadAt := Function.update s.rxReadAt x sock.rxReadAt }

def setState (s : EchoTest) (x : Side) (st : State) : EchoTest :=
  let e := { s.link x with socket := (s.link x).socket.setState st }
  { s with link := Function.update s.link x e }

def step (s : EchoTest) : EchoTestOp → Except NotReady EchoTest
  | .send data => .ok { s with client := s.client.send data }
  | .client =>
      let got := s.client.process (s.sock .client)
      .ok { s.put .client got.2.2 with client := got.2.1 }
  | .server =>
      -- on a closed socket the server listens for the next connection
      if (s.link .server).socket.state = .closed then .error .mk
      else
        let got := s.server.process (s.sock .server)
        .ok { s.put .server got.2.2 with server := got.2.1 }
  | .close => .ok { s with link := Function.update s.link .client (s.link .client).close }
  | .syn =>
      if (s.link .client).socket.state = .synSent ∧ (s.link .server).socket.state = .listen then
        .ok (s.setState .server .synReceived)
      else .error .mk
  | .synAck =>
      if (s.link .client).socket.state = .synSent ∧
          (s.link .server).socket.state = .synReceived then
        .ok (s.setState .client .established)
      else .error .mk
  | .ack =>
      if (s.link .client).socket.state ≠ .synSent ∧
          (s.link .server).socket.state = .synReceived then
        .ok (s.setState .server .established)
      else .error .mk
  | .net x op =>
      match s.link.net x op with
      | .ok link => .ok { s with link }
      | .error e => .error e

end EchoTest

/-! ## The server's end -/

/-- What the server has sent and what is pending is what it has read. -/
structure EchoServer.Serves (server : EchoServer) (e : StreamEnd) : Prop where
  echoed : e.written <+: e.read
  pending : e.socket.state.terminal = false → e.written ++ server.pendingTx = e.read
  listening : e.socket.state = .listen → server.pendingTx = []
  idle : server.wasConnected = false → server.pendingTx = []

/-- The buffers after a call on an active socket. -/
theorem EchoServer.process_buffers (server : EchoServer) {sock : PolledSocket}
    (h : sock.socket.state.isActive = true) :
    (process server sock).2.2.buffers = { sock.buffers with
      rxBuffer := sock.buffers.rxBuffer.drop (sock.rxCapacity - sock.rxReadAt)
      txBuffer := sock.buffers.txBuffer ++
        (server.pendingTx ++ sock.contiguous).take (sendRoom sock) } := by
  obtain ⟨-, -, -, hrx, htx⟩ := process_active server h
  obtain ⟨-, -, hsock, hbuf⟩ := receiveData_eq server.trackConnection sock
  obtain ⟨-, -, -, hbuf'⟩ := sendPending_eq
    (receiveData server.trackConnection sock).1 (receiveData server.trackConnection sock).2
  -- closing the socket leaves its buffers
  have hsame : (process server sock).2.2.buffers.rxFinReceived = sock.buffers.rxFinReceived ∧
      (process server sock).2.2.buffers.txCapacity = sock.buffers.txCapacity := by
    have hrest : ∀ b : Buffers, b = (sendPending (receiveData server.trackConnection sock).1
          (receiveData server.trackConnection sock).2).2.2.buffers →
        b.rxFinReceived = sock.buffers.rxFinReceived ∧ b.txCapacity = sock.buffers.txCapacity := by
      rintro b rfl
      rw [hbuf', hbuf]
      exact ⟨rfl, rfl⟩
    rw [process, if_pos h]
    dsimp only
    split
    · exact hrest _ rfl
    · exact hrest _ rfl
  obtain ⟨hfin, hcap⟩ := hsame
  generalize (process server sock).2.2.buffers = b at hrx htx hfin hcap
  obtain ⟨rx, fin, tx, cap⟩ := b
  cases hrx
  cases htx
  cases hfin
  cases hcap
  rfl

/-- **A CALL OF THE SERVER**, at an end whose socket is not closed. -/
theorem EchoServer.serves_process {server : EchoServer} {e : StreamEnd} (sock : PolledSocket)
    (hs : server.Serves e) (hsocket : sock.socket = e.socket) (hbuffers : sock.buffers = e.buffers)
    (hclosed : e.socket.state ≠ .closed) :
    (process server sock).2.1.Serves (e.afterProcess (process server sock).2.2) ∧
      Relation.ReflTransGen StreamEnd.Effect e (e.afterProcess (process server sock).2.2) := by
  cases hactive : sock.socket.state.isActive with
  | true =>
      obtain ⟨hpending, hwas, hstate, -, -⟩ := process_active server hactive
      have hbuf := process_buffers server hactive
      rw [hbuffers] at hbuf
      rw [hsocket] at hstate
      have hopen : (server.pendingTx ++ sock.contiguous).take (sendRoom sock) ≠ [] →
          e.socket.state.maySend = true := by
        intro hne
        rw [← hsocket]
        by_contra hmay
        exact hne (by rw [sendRoom, if_neg hmay, List.take_zero])
      have hnext : (process server sock).2.2.socket.state = e.socket.state ∨
          (process server sock).2.2.socket.state.sendClosed = true := by
        rw [hstate]
        split
        · exact Or.inr rfl
        · exact Or.inl rfl
      obtain ⟨hcalls, hread, hwritten⟩ := StreamEnd.afterProcess_calls hbuf hopen hnext
      have hall : e.written ++ server.pendingTx = e.read := by
        refine hs.pending ?_
        rw [hsocket] at hactive
        exact State.terminal_of_isActive hactive
      -- bytes move from the unread to the pending and from these to the sent
      have heq : (e.afterProcess (process server sock).2.2).written ++
          (process server sock).2.1.pendingTx
            = (e.afterProcess (process server sock).2.2).read := by
        rw [hread, hwritten, hpending, List.append_assoc, List.take_append_drop,
          ← List.append_assoc, hall, PolledSocket.contiguous, hbuffers]
      refine ⟨⟨⟨_, heq⟩, fun _ => heq, fun hlisten => ?_, fun hfalse => ?_⟩, hcalls⟩
      · -- a call on an active socket does not make it listen
        have hlisten' : (if e.socket.state = .closeWait then State.lastAck
            else e.socket.state) = .listen := hstate.symm.trans hlisten
        split at hlisten'
        · cases hlisten'
        · rw [hsocket, hlisten'] at hactive
          cases hactive
      · exact absurd (hwas.symm.trans hfalse) Bool.noConfusion
  | false =>
      rw [process_inactive server hactive]
      have hsame : relisten server.port sock = sock := by
        rw [relisten, if_neg (by rw [hsocket]; exact hclosed)]
      have hend : e.afterProcess (relisten server.port sock) = e := by
        rw [hsame, StreamEnd.afterProcess, hsocket, hbuffers]
        simp
      rw [hend]
      have hnone := disconnect_pendingTx hs.idle
      refine ⟨⟨hs.echoed, fun hterm => ?_, fun _ => hnone, fun _ => hnone⟩, .refl⟩
      have hlisten : e.socket.state = .listen := by
        rw [hsocket] at hactive
        exact State.eq_listen hactive hterm
      have hbefore := hs.pending hterm
      rw [hs.listening hlisten] at hbefore
      rw [hnone]
      exact hbefore

/-- The network takes no bytes from the server. -/
theorem EchoServer.Serves.net {server : EchoServer} {e e' : StreamEnd} (hs : server.Serves e)
    (h : NetMove e e') : server.Serves e' := by
  have hterm : e'.socket.state.terminal = false → e.socket.state.terminal = false := by
    intro hopen
    rcases h.state with ⟨hst, -⟩ | ⟨hst, -⟩ | hst | hst
    · rw [← hst]
      exact hopen
    · cases hold : e.socket.state <;> rw [hold] at hst <;> first | rfl | cases hst
    · cases hold : e.socket.state <;> rw [hold] at hst <;> first | rfl | cases hst
    · rw [hst] at hopen
      cases hopen
  have hlisten : e'.socket.state = .listen → e.socket.state = .listen := by
    intro hlisten
    rcases h.state with ⟨hst, -⟩ | ⟨hst, -⟩ | hst | hst
    · rw [← hst]
      exact hlisten
    · rw [hlisten] at hst
      cases hold : e.socket.state <;> rw [hold] at hst <;> cases hst
    · rw [hlisten] at hst
      cases hold : e.socket.state <;> rw [hold] at hst <;> cases hst
    · rw [hst] at hlisten
      cases hlisten
  refine ⟨?_, ?_, fun hl => hs.listening (hlisten hl), hs.idle⟩
  · rw [h.written, h.read]
    exact hs.echoed
  · intro hopen
    rw [h.written, h.read]
    exact hs.pending (hterm hopen)

/-! ## The client's end -/

/-- What the client has sent is a part of what is queued, and what it has received
    is what it has read. -/
structure EchoClient.Sends (client : EchoClient) (e : StreamEnd) : Prop where
  sent : e.written = client.dataToSend.take client.sendOffset
  offset_le : client.sendOffset ≤ client.dataToSend.length
  received : client.receivedData = e.read
  expected : client.expectedLen = client.dataToSend.length
  stats : client.stats = ⟨client.sendOffset, client.receivedData.length⟩

namespace EchoClient.Sends

variable {client : EchoClient} {e e' : StreamEnd}

theorem send (hs : client.Sends e) (data : List UInt8) : (client.send data).Sends e where
  sent := hs.sent.trans (List.take_append_of_le_length hs.offset_le).symm
  offset_le := by
    show client.sendOffset ≤ (client.dataToSend ++ data).length
    rw [List.length_append]
    exact Nat.le_trans hs.offset_le (Nat.le_add_right _ _)
  received := hs.received
  expected := by
    show client.expectedLen + data.length = (client.dataToSend ++ data).length
    rw [List.length_append, hs.expected]
  stats := hs.stats

/-- What is sent next follows what was sent. -/
theorem process {sock : PolledSocket} {k : Nat} {bs : List UInt8} {st : EchoClientState}
    {r : EchoClient × PolledSocket} (hs : client.Sends e)
    (hsocket : sock.socket = e.socket) (hbuffers : sock.buffers = e.buffers)
    (hr : Processes client sock k bs st r) :
    r.1.Sends (e.afterProcess r.2) ∧
      Relation.ReflTransGen StreamEnd.Effect e (e.afterProcess r.2) := by
  have hbuf := hr.buffers
  rw [hbuffers] at hbuf
  obtain ⟨hcalls, hread, hwritten⟩ := StreamEnd.afterProcess_calls hbuf
    (fun hne => by rw [← hsocket]; exact (hr.sends_open hne).1)
    (Or.inl (by rw [hr.socket, hsocket]))
  obtain ⟨rest, hrest⟩ := hr.sends
  have hlen := congrArg List.length hrest
  rw [List.length_append, List.length_drop] at hlen
  have hle := hs.offset_le
  refine ⟨?_, hcalls⟩
  rw [hr.next]
  constructor
  · show (e.afterProcess r.2).written = client.dataToSend.take (client.sendOffset + bs.length)
    rw [hwritten, hs.sent, List.take_add, ← hrest, List.take_left]
  · show client.sendOffset + bs.length ≤ client.dataToSend.length
    omega
  · show client.receivedData ++ sock.buffers.rxBuffer.take k = (e.afterProcess r.2).read
    rw [hread, hs.received, hbuffers]
  · exact hs.expected
  · show EchoClientStats.mk _ _ = _
    rw [hs.stats, List.length_append]

theorem net (hs : client.Sends e) (h : NetMove e e') : client.Sends e' :=
  ⟨h.written.trans hs.sent, hs.offset_le, hs.received.trans h.read.symm, hs.expected, hs.stats⟩

end EchoClient.Sends

/-! ## Whole runs -/

namespace EchoTest

structure Tested (s : EchoTest) : Prop where
  flowing : s.link.Flowing
  serves : s.server.Serves (s.link .server)
  sends : s.client.Sends (s.link .client)

/-- Something happens at the server's end, -/
theorem tested_of_server {s : EchoTest} (hs : s.Tested) {e : StreamEnd} {server : EchoServer}
    {readAt : Side → Nat} (hflow : Link.Flowing (Function.update s.link .server e))
    (hserves : server.Serves e) :
    Tested ⟨Function.update s.link .server e, readAt, s.client, server⟩ := by
  refine ⟨hflow, ?_, ?_⟩
  · show server.Serves (Function.update s.link .server e .server)
    rw [Function.update_self]
    exact hserves
  · show s.client.Sends (Function.update s.link .server e .client)
    rw [Function.update_of_ne Side.noConfusion]
    exact hs.sends

/-- or at the client's. -/
theorem tested_of_client {s : EchoTest} (hs : s.Tested) {e : StreamEnd} {client : EchoClient}
    {readAt : Side → Nat} (hflow : Link.Flowing (Function.update s.link .client e))
    (hsends : client.Sends e) :
    Tested ⟨Function.update s.link .client e, readAt, client, s.server⟩ := by
  refine ⟨hflow, ?_, ?_⟩
  · show s.server.Serves (Function.update s.link .client e .server)
    rw [Function.update_of_ne Side.noConfusion]
    exact hs.serves
  · show client.Sends (Function.update s.link .client e .client)
    rw [Function.update_self]
    exact hsends

/-- The server's end moves on in the handshake. -/
theorem serves_setState {server : EchoServer} {e : StreamEnd} {st : State}
    (hs : server.Serves e) (hopen : e.socket.state.terminal = false) (hst : st ≠ .listen) :
    server.Serves { e with socket := e.socket.setState st } :=
  ⟨hs.echoed, fun _ => hs.pending hopen, fun h => absurd h hst, hs.idle⟩

/-- **ONE STEP** of the test. -/
theorem tested_step {s s' : EchoTest} {op : EchoTestOp} (hs : s.Tested)
    (h : s.step op = .ok s') : s'.Tested := by
  obtain ⟨hflow, hserves, hsends⟩ := id hs
  cases op with
  | send data =>
      cases h
      exact ⟨hflow, hserves, hsends.send data⟩
  | client =>
      obtain ⟨k, bs, st, hr⟩ := s.client.process_processes (s.sock .client)
      obtain ⟨hsends', hcalls⟩ := hsends.process rfl rfl hr
      cases h
      exact tested_of_client hs (Link.flowing_calls hflow hcalls) hsends'
  | server =>
      simp only [step] at h
      split at h
      · cases h
      · rename_i hclosed
        obtain ⟨hserves', hcalls⟩ :=
          EchoServer.serves_process (s.sock .server) hserves rfl rfl hclosed
        cases h
        exact tested_of_server hs (Link.flowing_calls hflow hcalls) hserves'
  | close =>
      cases h
      refine tested_of_client hs (Link.flowing_call hflow (StreamEnd.close_effect _)) ?_
      exact ⟨hsends.sent, hsends.offset_le, hsends.received, hsends.expected, hsends.stats⟩
  | syn =>
      obtain ⟨⟨-, hlisten⟩, rfl⟩ := guard_eq_ok h
      refine tested_of_server hs (Link.flowing_setState hflow (by rw [hlisten]; rfl) _) ?_
      exact serves_setState hserves (by rw [hlisten]; rfl) State.noConfusion
  | synAck =>
      obtain ⟨⟨hsyn, -⟩, rfl⟩ := guard_eq_ok h
      refine tested_of_client hs (Link.flowing_setState hflow (by rw [hsyn]; rfl) _) ?_
      exact ⟨hsends.sent, hsends.offset_le, hsends.received, hsends.expected, hsends.stats⟩
  | ack =>
      obtain ⟨⟨-, hsyn⟩, rfl⟩ := guard_eq_ok h
      refine tested_of_server hs (Link.flowing_setState hflow (by rw [hsyn]; rfl) _) ?_
      exact serves_setState hserves (by rw [hsyn]; rfl) State.noConfusion
  | net x op =>
      simp only [step] at h
      split at h
      · rename_i link hnet
        cases h
        exact ⟨Link.flowing_net hflow hnet, hserves.net (Link.net_moves hnet .server),
          hsends.net (Link.net_moves hnet .client)⟩
      · cases h

theorem tested_start {port : UInt16} {config : SocketConfig} {init : EchoServer × PolledSocket}
    (h : EchoServer.new port config = some init) (clientConfig : SocketConfig) :
    (start init clientConfig).Tested := by
  rw [EchoServer.new] at h
  split at h
  · cases h
  · cases h
    refine ⟨?_, ?_, ?_⟩
    · intro x
      cases x with
      | client => exact Flows.fresh _ _
      | server => exact Flows.fresh _ _
    · exact ⟨List.prefix_refl _, fun _ => rfl, fun _ => rfl, fun _ => rfl⟩
    · exact ⟨rfl, Nat.le_refl 0, rfl, rfl, rfl⟩

/-- What the client has received is a part of what it has sent. -/
theorem Tested.received_prefix {s : EchoTest} (hs : s.Tested) :
    s.client.receivedData <+: s.client.dataToSend.take s.client.sendOffset := by
  rw [hs.sends.received, ← hs.sends.sent]
  have hforth := hs.flowing .client
  have hback := hs.flowing .server
  exact hback.read_prefix.trans (hs.serves.echoed.trans hforth.read_prefix)

/-- A client is not moved by anything but its own calls. -/
theorem client_step {s s' : EchoTest} {op : EchoTestOp} (h : s.step op = .ok s') :
    s'.client = s.client ∨ (∃ data, op = .send data ∧ s'.client = s.client.send data) ∨
      ∃ k bs st, EchoClient.Processes s.client (s.sock .client) k bs st
        (s'.client, (s.client.process (s.sock .client)).2.2) := by
  cases op with
  | send data =>
      cases h
      exact Or.inr (Or.inl ⟨data, rfl, rfl⟩)
  | client =>
      cases h
      exact Or.inr (Or.inr (s.client.process_processes (s.sock .client)))
  | server =>
      simp only [step] at h
      split at h
      · cases h
      · cases h
        exact Or.inl rfl
  | close =>
      cases h
      exact Or.inl rfl
  | syn | synAck | ack =>
      obtain ⟨-, rfl⟩ := guard_eq_ok h
      exact Or.inl rfl
  | net x op =>
      simp only [step] at h
      split at h
      · cases h
        exact Or.inl rfl
      · cases h

/-- A client that is complete has received all that it has sent. -/
def AllBack (s : EchoTest) : Prop :=
  s.client.state = .complete → s.client.sendOffset ≤ s.client.receivedData.length

theorem allBack_step {s s' : EchoTest} {op : EchoTestOp} (hs : s.Tested) (hback : s.AllBack)
    (h : s.step op = .ok s') : s'.AllBack := by
  intro hcomplete
  have hle := hs.sends.offset_le
  have hexpected := hs.sends.expected
  rcases client_step h with hsame | ⟨data, -, hsend⟩ | ⟨k, bs, st, hr⟩
  · rw [hsame] at hcomplete ⊢
    exact hback hcomplete
  · rw [hsend] at hcomplete ⊢
    exact hback hcomplete
  · have hnext := hr.next
    dsimp only at hnext
    rw [hnext] at hcomplete ⊢
    show s.client.sendOffset + bs.length ≤ (s.client.receivedData ++ _).length
    rw [List.length_append]
    rcases hr.complete hcomplete with hbefore | hall
    · -- it was complete before, and sends nothing more
      have hnil : bs = [] := by
        by_contra hne
        have hstate := (hr.sends_open hne).2
        rw [hbefore] at hstate
        cases hstate
      rw [hnil]
      exact Nat.le_trans (hback hbefore) (Nat.le_add_right _ _)
    · obtain ⟨rest, hrest⟩ := hr.sends
      have hlen := congrArg List.length hrest
      rw [List.length_append, List.length_drop] at hlen
      omega

/-- **VERIFICATION FAILS ONLY FOR WANT OF BYTES**: in every run, what the client has
    received is a prefix of what it has sent, all of it once it is complete, and
    the counts are those of the bytes.  `verify_echo` does not panic, and it
    returns whether as many bytes were received as were queued. -/
theorem verify_fails_only_short {port : UInt16} {config : SocketConfig}
    {init : EchoServer × PolledSocket} (h : EchoServer.new port config = some init)
    (clientConfig : SocketConfig) (ops : List EchoTestOp) (t : EchoTest)
    (hrun : run step (start init clientConfig) ops = .ok t) :
    t.client.receivedData <+: t.client.dataToSend.take t.client.sendOffset ∧
      (t.client.isComplete = true →
        t.client.receivedData = t.client.dataToSend.take t.client.sendOffset) ∧
      t.client.stats = ⟨t.client.sendOffset, t.client.receivedData.length⟩ ∧
      t.client.verifyEcho =
        some (decide (t.client.stats.bytesReceived = t.client.dataToSend.length)) := by
  have hinv : t.Tested ∧ t.AllBack := by
    refine run_invariant (I := fun s => Tested s ∧ AllBack s) ?_
      ⟨tested_start h clientConfig, fun hfalse => by cases hfalse⟩ hrun
    rintro s op s' ⟨hs, hback⟩ hstep
    exact ⟨tested_step hs hstep, allBack_step hs hback hstep⟩
  obtain ⟨ht, hback⟩ := hinv
  have hpre := ht.received_prefix
  refine ⟨hpre, fun hcomplete => ?_, ht.sends.stats, ?_⟩
  · refine hpre.eq_of_length (Nat.le_antisymm hpre.length_le ?_)
    rw [List.length_take]
    exact Nat.le_trans (Nat.min_le_left _ _) (hback (of_decide_eq_true hcomplete))
  have hqueued : t.client.receivedData <+: t.client.dataToSend :=
    hpre.trans (List.take_prefix _ _)
  have hle := hqueued.length_le
  rw [EchoClient.verifyEcho, ht.sends.stats, ht.sends.expected, if_neg (Nat.lt_irrefl _)]
  by_cases hshort : t.client.receivedData.length < t.client.dataToSend.length
  · rw [if_pos hshort]
    have hne : ¬ t.client.receivedData.length = t.client.dataToSend.length := by omega
    simp [hne]
  · have heq : t.client.receivedData = t.client.dataToSend :=
      hqueued.eq_of_length (by omega)
    rw [if_neg hshort, heq]
    simp

/-- A client that waits for its echo while something is queued, or has given up. -/
structure Stranded (sent : Nat) (s : EchoTest) : Prop where
  tested : s.Tested
  state : s.client.state = .waitingForEcho ∨ s.client.state = .closed
  offset : s.client.sendOffset = sent
  queued : sent < s.client.dataToSend.length

/-- **ONE STEP** sends nothing more. -/
theorem stranded_step {sent : Nat} {s s' : EchoTest} {op : EchoTestOp}
    (hs : s.Stranded sent) (h : s.step op = .ok s') : s'.Stranded sent := by
  have ht' := tested_step hs.tested h
  rcases client_step h with hsame | ⟨data, -, hsend⟩ | ⟨k, bs, st, hr⟩
  · exact ⟨ht', by rw [hsame]; exact hs.state, by rw [hsame]; exact hs.offset,
      by rw [hsame]; exact hs.queued⟩
  · refine ⟨ht', by rw [hsend]; exact hs.state, by rw [hsend]; exact hs.offset, ?_⟩
    rw [hsend]
    show sent < (s.client.dataToSend ++ data).length
    rw [List.length_append]
    exact Nat.lt_of_lt_of_le hs.queued (Nat.le_add_right _ _)
  · have hnil : bs = [] := by
      by_contra hne
      have hconnected := (hr.sends_open hne).2
      rcases hs.state with hst | hst
      · rw [hst] at hconnected
        cases hconnected
      · rw [hst] at hconnected
        cases hconnected
    have hnext := hr.next
    dsimp only at hnext
    have hqueued : s'.client.dataToSend = s.client.dataToSend := by rw [hnext]
    have hoffset : s'.client.sendOffset = sent := by
      rw [hnext, hnil]
      exact hs.offset
    have hst' : s'.client.state = st := by rw [hnext]
    -- no more can have come back than was sent, and that is not everything
    have hnot : st ≠ .complete := by
      intro hcomplete
      rcases hr.complete hcomplete with hbefore | hall
      · rcases hs.state with hst | hst
        · rw [hbefore] at hst
          cases hst
        · rw [hbefore] at hst
          cases hst
      · have hback := ht'.received_prefix.length_le
        rw [hoffset, hqueued, List.length_take] at hback
        have hreceived : s'.client.receivedData.length = s.client.receivedData.length +
            ((s.sock .client).buffers.rxBuffer.take k).length := by
          rw [hnext]
          exact List.length_append
        have hexpected := hs.tested.sends.expected
        have hlt := hs.queued
        omega
    refine ⟨ht', ?_, hoffset, hqueued ▸ hs.queued⟩
    rw [hst']
    rcases hs.state with hst | hst
    · rcases hr.waiting hst with h' | h' | h'
      · exact Or.inl h'
      · exact absurd h' hnot
      · exact Or.inr h'
    · exact Or.inr (hr.closed hst)

/-- **WHAT IS QUEUED WHILE THE CLIENT WAITS IS LOST**: take any run to a state in
    which the client waits for its echo, and queue something more.  However the
    run goes on, nothing of it is ever sent, the client never completes and
    `verify_echo` is false. -/
theorem queued_while_waiting_is_lost {port : UInt16} {config : SocketConfig}
    {init : EchoServer × PolledSocket} (h : EchoServer.new port config = some init)
    (clientConfig : SocketConfig) (ops : List EchoTestOp) (s : EchoTest)
    (hrun : run step (start init clientConfig) ops = .ok s)
    (hwaiting : s.client.state = .waitingForEcho) (data : List UInt8) (hdata : data ≠ [])
    (more : List EchoTestOp) (t : EchoTest) (hmore : run step s (.send data :: more) = .ok t) :
    t.client.sendOffset = s.client.sendOffset ∧ t.client.isComplete = false ∧
      t.client.verifyEcho = some false := by
  have hs := run_invariant (fun _ _ _ => tested_step) (tested_start h clientConfig) hrun
  have hsend : step s (.send data) = .ok { s with client := s.client.send data } := rfl
  rw [run_cons_ok hsend] at hmore
  have hstart : Stranded s.client.sendOffset { s with client := s.client.send data } := by
    refine ⟨tested_step hs hsend, Or.inl hwaiting, rfl, ?_⟩
    show s.client.sendOffset < (s.client.dataToSend ++ data).length
    have hle := hs.sends.offset_le
    have hpos := List.length_pos_iff.mpr hdata
    rw [List.length_append]
    omega
  have ht := run_invariant (fun _ _ _ => stranded_step) hstart hmore
  refine ⟨ht.offset, ?_, ?_⟩
  · rw [EchoClient.isComplete, decide_eq_false_iff_not]
    intro hcomplete
    rcases ht.state with hst | hst
    · rw [hcomplete] at hst
      cases hst
    · rw [hcomplete] at hst
      cases hst
  · have hback := ht.tested.received_prefix.length_le
    rw [ht.offset, List.length_take] at hback
    have hlt := ht.queued
    have hexpected := ht.tested.sends.expected
    rw [EchoClient.verifyEcho, if_pos (by omega)]

/-- One byte there and back. -/
theorem one_byte_verified :
    ∃ init ops t, EchoServer.new 7 ⟨8, 8⟩ = some init ∧
      run step (start init ⟨8, 8⟩) ops = .ok t ∧ t.client.isComplete = true ∧
      t.client.receivedData = t.client.dataToSend.take t.client.sendOffset := by
  obtain ⟨init, hnew⟩ : ∃ init, EchoServer.new 7 ⟨8, 8⟩ = some init := ⟨_, rfl⟩
  obtain ⟨t, hrun, hcomplete⟩ : ∃ t, run step (start init ⟨8, 8⟩)
      [.send [1], .syn, .synAck, .client, .client, .ack, .net .client (.deliver 1), .server,
        .net .server (.deliver 1), .client] = .ok t ∧ t.client.isComplete = true := by
    cases hnew
    exact ⟨_, rfl, rfl⟩
  exact ⟨init, _, t, hnew, hrun, hcomplete,
    (verify_fails_only_short hnew ⟨8, 8⟩ _ t hrun).2.1 hcomplete⟩

/-- A second byte queued while the first is on its way. -/
theorem second_byte_lost :
    ∃ init ops more t, EchoServer.new 7 ⟨8, 8⟩ = some init ∧
      run step (start init ⟨8, 8⟩) (ops ++ .send [2] :: more) = .ok t ∧
      t.client.receivedData = [1] ∧ t.client.verifyEcho = some false := by
  obtain ⟨init, hnew⟩ : ∃ init, EchoServer.new 7 ⟨8, 8⟩ = some init := ⟨_, rfl⟩
  obtain ⟨s, t, hrun, hmore, hwaiting, hreceived⟩ : ∃ s t, run step (start init ⟨8, 8⟩)
        [.send [1], .syn, .synAck, .client, .client, .ack] = .ok s ∧
      run step s [.send [2], .net .client (.deliver 1), .server, .net .server (.deliver 1), .client,
        .client] = .ok t ∧
      s.client.state = .waitingForEcho ∧ t.client.receivedData = [1] := by
    cases hnew
    exact ⟨_, _, rfl, rfl, rfl, rfl⟩
  refine ⟨init, _, _, t, hnew, (run_append hrun).trans hmore, hreceived, ?_⟩
  exact (queued_while_waiting_is_lost hnew ⟨8, 8⟩ _ s hrun hwaiting [2] (by simp) _ t hmore).2.2

end EchoTest

end DpdkNet
