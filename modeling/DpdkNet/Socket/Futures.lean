import DpdkNet.Socket.Tcp

/-! # The futures of a stream

    `TcpSendFuture`, `TcpRecvFuture`, `WaitConnectedFuture` and `CloseFuture` of
    `socket/tcp.rs`, and the four polls of `TokioTcpStream` in
    `runtime/tokio_compat.rs`, over one socket with its buffers.

    The buffers are smoltcp's: `recv_slice` and `send_slice` move as many bytes
    as there are, or as there is room for, after a check of the state.  Closing
    the connection leaves both buffers as they are.

    Each poll comes with the condition under which it returns `Pending`
    (`…_pending_iff`), read off the socket alone. -/

namespace DpdkNet

open Tcp

namespace Tcp

inductive SendError where
  | invalidState
  deriving DecidableEq, Repr

inductive RecvError where
  | invalidState
  | finished
  deriving DecidableEq, Repr

/-- The receive and the send buffer of a socket. -/
structure Buffers where
  rxBuffer : List UInt8
  rxFinReceived : Bool
  txBuffer : List UInt8
  txCapacity : Nat
  deriving DecidableEq, Repr

/-- Can the socket still transmit? -/
def State.maySend : State → Bool
  | .established | .closeWait => true
  | _ => false

/-- Is the receive half open? -/
def State.receiving : State → Bool
  | .established | .finWait1 | .finWait2 => true
  | _ => false

/-- Is the connection over? -/
def State.terminal : State → Bool
  | .closed | .timeWait => true
  | _ => false

def Socket.registerSendWaker (s : Socket) (cx : Waker) : Socket := { s with sendWaker := some cx }

namespace Buffers

/-- What is in the receive buffer can be read in any state. -/
def mayRecv (b : Buffers) (st : State) : Bool := st.receiving || !b.rxBuffer.isEmpty

/-- Room in the send buffer. -/
def window (b : Buffers) : Nat := b.txCapacity - b.txBuffer.length

/-- Dequeue up to `n` received bytes. -/
def recvSlice (b : Buffers) (st : State) (n : Nat) : Except RecvError (List UInt8) × Buffers :=
  if b.mayRecv st then
    (.ok (b.rxBuffer.take n), { b with rxBuffer := b.rxBuffer.drop n })
  else if b.rxFinReceived then (.error .finished, b)
  else (.error .invalidState, b)

/-- Enqueue as much of the data as there is room for. -/
def sendSlice (b : Buffers) (st : State) (data : List UInt8) : Except SendError Nat × Buffers :=
  if st.maySend then
    (.ok (min data.length b.window),
      { b with txBuffer := b.txBuffer ++ data.take b.window })
  else (.error .invalidState, b)

/-- How much is queued and not yet acknowledged. -/
def sendQueue (b : Buffers) : Nat := b.txBuffer.length

end Buffers

end Tcp

def Poll.isReady {α : Type} : Poll α → Bool
  | .ready _ => true
  | .pending => false

/-- Send what is left of the data; the offset moves with every poll. -/
def TcpSendFuture.poll (cx : Waker) (data : List UInt8) (offset : Nat) (t : Tcp.Socket)
    (b : Buffers) : Poll (Except SendError Nat) × Nat × Tcp.Socket × Buffers :=
  match b.sendSlice t.state (data.drop offset) with
  | (.ok 0, b) => (.pending, offset, t.registerSendWaker cx, b)
  | (.ok sent, b) =>
      if data.length ≤ offset + sent then (.ready (.ok data.length), offset + sent, t, b)
      else (.pending, offset + sent, t.registerSendWaker cx, b)
  | (.error e, b) => (.ready (.error e), offset, t, b)

/-- Receive into a buffer of `n` bytes.  The end of the stream is a read of
    nothing. -/
def TcpRecvFuture.poll (cx : Waker) (n : Nat) (t : Tcp.Socket) (b : Buffers) :
    Poll (Except RecvError (List UInt8)) × Tcp.Socket × Buffers :=
  match b.recvSlice t.state n with
  | (.ok [], b) =>
      if n = 0 then (.ready (.ok []), t, b) else (.pending, t.registerRecvWaker cx, b)
  | (.ok bytes, b) => (.ready (.ok bytes), t, b)
  | (.error .finished, b) => (.ready (.ok []), t, b)
  | (.error e, b) => (.ready (.error e), t, b)

/-- Wait for the handshake. -/
def WaitConnectedFuture.poll (cx : Waker) (t : Tcp.Socket) :
    Poll (Except Unit Unit) × Tcp.Socket :=
  match t.state with
  | .established => (.ready (.ok ()), t)
  | .closed | .timeWait => (.ready (.error ()), t)
  | .synSent | .synReceived => (.pending, t.registerSendWaker cx)
  | _ => (.pending, t.registerSendWaker cx)

/-- Wait for the connection to be over. -/
def CloseFuture.poll (cx : Waker) (t : Tcp.Socket) : Poll Unit × Tcp.Socket :=
  match t.state with
  | .closed | .timeWait => (.ready (), t)
  | _ => (.pending, t.registerSendWaker cx)

namespace TokioTcpStream

/-- The `io::Error` of the wrapper. -/
inductive IoError where
  | notConnected (message : String)
  deriving DecidableEq, Repr

/-- Read into the `n` unfilled bytes of the buffer. -/
def pollRead (cx : Waker) (n : Nat) (t : Tcp.Socket) (b : Buffers) :
    Poll (Except IoError (List UInt8)) × Tcp.Socket × Buffers :=
  if n = 0 then (.ready (.ok []), t, b)
  else
    match b.recvSlice t.state n with
    | (.ok [], b) => (.pending, t.registerRecvWaker cx, b)
    | (.ok bytes, b) => (.ready (.ok bytes), t, b)
    | (.error .finished, b) => (.ready (.ok []), t, b)
    | (.error .invalidState, b) =>
        (.ready (.error (.notConnected "socket in invalid state for receiving")), t, b)

def pollWrite (cx : Waker) (buf : List UInt8) (t : Tcp.Socket) (b : Buffers) :
    Poll (Except IoError Nat) × Tcp.Socket × Buffers :=
  match b.sendSlice t.state buf with
  | (.ok 0, b) =>
      if buf = [] then (.ready (.ok 0), t, b) else (.pending, t.registerSendWaker cx, b)
  | (.ok n, b) => (.ready (.ok n), t, b)
  | (.error .invalidState, b) =>
      (.ready (.error (.notConnected "socket in invalid state for sending")), t, b)

/-- Flushed means that the send buffer is empty. -/
def pollFlush (cx : Waker) (t : Tcp.Socket) (b : Buffers) :
    Poll (Except IoError Unit) × Tcp.Socket :=
  if b.sendQueue = 0 then (.ready (.ok ()), t) else (.pending, t.registerSendWaker cx)

/-- Start the close if need be, then wait for it.  The socket is looked at twice,
    before and after. -/
def pollShutdown (cx : Waker) (t : Tcp.Socket) : Poll (Except IoError Unit) × Tcp.Socket :=
  let wait (t : Tcp.Socket) : Poll (Except IoError Unit) × Tcp.Socket :=
    match t.state with
    | .closed | .timeWait => (.ready (.ok ()), t)
    | _ => (.pending, t.registerSendWaker cx)
  match t.state with
  | .closed | .timeWait => (.ready (.ok ()), t)
  | .finWait1 | .finWait2 | .closing | .lastAck => wait t
  | _ => wait t.close

end TokioTcpStream

/-! ## When a poll waits -/

section Pending

variable (cx : Waker) (t : Tcp.Socket) (b : Buffers)

theorem TcpSendFuture.pending_iff (data : List UInt8) (offset : Nat) :
    (TcpSendFuture.poll cx data offset t b).1 = .pending ↔
      t.state.maySend = true ∧
        (data.drop offset = [] ∨ b.window < (data.drop offset).length) := by
  by_cases hsend : t.state.maySend = true
  · have hlen : (data.drop offset).length = data.length - offset := List.length_drop
    simp only [poll, Buffers.sendSlice, hsend, if_true, true_and]
    cases hsent : min (data.drop offset).length b.window with
    | zero =>
        refine iff_of_true rfl ?_
        by_cases hnil : data.drop offset = []
        · exact Or.inl hnil
        · have := List.length_pos_iff.mpr hnil
          exact Or.inr (by omega)
    | succ n =>
        have hne : data.drop offset ≠ [] := by
          intro hnil
          rw [hnil] at hsent
          simp at hsent
        by_cases hall : data.length ≤ offset + (n + 1)
        · simp only [if_pos hall]
          refine iff_of_false (fun h => by cases h) ?_
          rintro (hnil | hlt)
          · exact hne hnil
          · omega
        · simp only [if_neg hall, true_iff]
          exact Or.inr (by omega)
  · simp [poll, Buffers.sendSlice, hsend]

/-- An empty receive buffer yields nothing while the receive half is open, and an
    error afterwards. -/
theorem Tcp.Buffers.recvSlice_of_nil {b : Buffers} (st : State) (n : Nat)
    (h : b.rxBuffer = []) :
    b.recvSlice st n =
      if st.receiving then (.ok [], b)
      else if b.rxFinReceived then (.error .finished, b) else (.error .invalidState, b) := by
  obtain ⟨rx, fin, tx, cap⟩ := b
  subst h
  simp [recvSlice, mayRecv]

/-- A receive buffer with something in it can be read in any state. -/
theorem Tcp.Buffers.recvSlice_of_ne_nil {b : Buffers} (st : State) (n : Nat)
    (h : b.rxBuffer ≠ []) :
    b.recvSlice st n = (.ok (b.rxBuffer.take n), { b with rxBuffer := b.rxBuffer.drop n }) := by
  have hrecv : b.mayRecv st = true := by simp [mayRecv, h]
  rw [recvSlice, if_pos hrecv]

theorem TcpRecvFuture.pending_iff (n : Nat) :
    (TcpRecvFuture.poll cx n t b).1 = .pending ↔
      t.state.receiving = true ∧ b.rxBuffer = [] ∧ n ≠ 0 := by
  by_cases hrx : b.rxBuffer = []
  · simp only [poll, Buffers.recvSlice_of_nil _ n hrx, hrx, true_and]
    by_cases hrecv : t.state.receiving = true
    · simp only [hrecv, if_true, true_and]
      by_cases hn : n = 0
      · simp [hn]
      · simp [hn]
    · simp only [hrecv, Bool.false_eq_true, if_false, false_and, iff_false]
      cases b.rxFinReceived <;> simp
  · simp only [poll, Buffers.recvSlice_of_ne_nil _ n hrx, hrx, false_and, and_false, iff_false]
    split
    · rename_i heq
      have hn : n = 0 := by
        simp only [Prod.mk.injEq, Except.ok.injEq, List.take_eq_nil_iff, hrx, or_false] at heq
        exact heq.1
      simp [hn]
    · simp
    · simp
    · simp

theorem TokioTcpStream.pollRead_pending_iff (n : Nat) :
    (TokioTcpStream.pollRead cx n t b).1 = .pending ↔
      t.state.receiving = true ∧ b.rxBuffer = [] ∧ n ≠ 0 := by
  by_cases hn : n = 0
  · simp [pollRead, hn]
  · by_cases hrx : b.rxBuffer = []
    · simp only [pollRead, if_neg hn, Buffers.recvSlice_of_nil _ n hrx, hrx, true_and]
      by_cases hrecv : t.state.receiving = true
      · simp [hrecv, hn]
      · simp only [hrecv, Bool.false_eq_true, if_false, false_and, iff_false]
        cases b.rxFinReceived <;> simp
    · simp only [pollRead, if_neg hn, Buffers.recvSlice_of_ne_nil _ n hrx, hrx, false_and,
        and_false, iff_false]
      split
      · rename_i heq
        simp [hrx, hn] at heq
      · simp
      · simp
      · simp

theorem TokioTcpStream.pollWrite_pending_iff (buf : List UInt8) :
    (TokioTcpStream.pollWrite cx buf t b).1 = .pending ↔
      t.state.maySend = true ∧ buf ≠ [] ∧ b.window = 0 := by
  by_cases hsend : t.state.maySend = true
  · simp only [pollWrite, Buffers.sendSlice, hsend, if_true, true_and]
    cases hsent : min buf.length b.window with
    | zero =>
        by_cases hnil : buf = []
        · simp [hnil]
        · have := List.length_pos_iff.mpr hnil
          simp only [hnil, if_false, ne_eq, not_false_eq_true, true_and, true_iff]
          omega
    | succ n =>
        refine iff_of_false (fun h => by cases h) ?_
        rintro ⟨-, hfull⟩
        omega
  · simp [pollWrite, Buffers.sendSlice, hsend]

theorem WaitConnectedFuture.pending_iff :
    (WaitConnectedFuture.poll cx t).1 = .pending ↔
      t.state ≠ .established ∧ t.state.terminal = false := by
  cases h : t.state <;> simp [poll, h, State.terminal]

theorem CloseFuture.pending_iff :
    (CloseFuture.poll cx t).1 = .pending ↔ t.state.terminal = false := by
  cases h : t.state <;> simp [poll, h, State.terminal]

theorem TokioTcpStream.pollFlush_pending_iff :
    (TokioTcpStream.pollFlush cx t b).1 = .pending ↔ b.sendQueue ≠ 0 := by
  by_cases h : b.sendQueue = 0
  · simp [pollFlush, h]
  · simp [pollFlush, h]

/-- Shutting down waits unless closing takes the socket straight to the end. -/
theorem TokioTcpStream.pollShutdown_pending_iff :
    (TokioTcpStream.pollShutdown cx t).1 = .pending ↔ t.close.state.terminal = false := by
  cases h : t.state <;> simp [pollShutdown, Socket.close, h, State.terminal, Socket.setState]

end Pending

/-! ## A dead connection -/

theorem Poll.isReady_iff {α : Type} (p : Poll α) : p.isReady = true ↔ p ≠ .pending := by
  cases p with
  | ready a => simp [isReady]
  | pending => simp [isReady]

/-- **WHEN NOTHING WAITS ON A DEAD CONNECTION**: on a closed socket, whatever is
    left in its buffers, all polls are ready exactly if the send buffer is
    empty.  The one that looks at the buffer and not at the state is
    `poll_flush`. -/
theorem closed_polls_ready_iff (cx : Waker) (t : Tcp.Socket) (b : Buffers)
    (hclosed : t.state = .closed) :
    ((∀ data offset, (TcpSendFuture.poll cx data offset t b).1.isReady = true) ∧
      (∀ n, (TcpRecvFuture.poll cx n t b).1.isReady = true) ∧
      (WaitConnectedFuture.poll cx t).1.isReady = true ∧
      (CloseFuture.poll cx t).1.isReady = true ∧
      (∀ n, (TokioTcpStream.pollRead cx n t b).1.isReady = true) ∧
      (∀ buf, (TokioTcpStream.pollWrite cx buf t b).1.isReady = true) ∧
      (TokioTcpStream.pollFlush cx t b).1.isReady = true ∧
      (TokioTcpStream.pollShutdown cx t).1.isReady = true) ↔
    b.sendQueue = 0 := by
  simp only [Poll.isReady_iff, ne_eq, TcpSendFuture.pending_iff, TcpRecvFuture.pending_iff,
    WaitConnectedFuture.pending_iff, CloseFuture.pending_iff,
    TokioTcpStream.pollRead_pending_iff, TokioTcpStream.pollWrite_pending_iff,
    TokioTcpStream.pollFlush_pending_iff, TokioTcpStream.pollShutdown_pending_iff,
    Socket.close, hclosed]
  simp [State.maySend, State.receiving, State.terminal]

/-- A reset connection that has been read only in part and has nothing unsent:
    every poll is ready. -/
theorem closed_polls_ready_with_unread_data :
    (∀ buf, (TokioTcpStream.pollWrite 7 buf (Socket.new.abort) ⟨[104, 105], true, [], 64⟩).1.isReady
        = true) ∧
      (TokioTcpStream.pollFlush 7 Socket.new.abort ⟨[104, 105], true, [], 64⟩).1.isReady = true := by
  have h := (closed_polls_ready_iff 7 Socket.new.abort ⟨[104, 105], true, [], 64⟩ rfl).mpr rfl
  exact ⟨h.2.2.2.2.2.1, h.2.2.2.2.2.2.1⟩

/-- Two bytes written, then a reset: the flush waits, and nothing will ever wake
    it. -/
theorem flush_waits_on_dead_connection :
    TokioTcpStream.pollFlush 7 (Socket.abort ⟨.established, none, none⟩)
        (Buffers.sendSlice ⟨[], false, [], 64⟩ .established [104, 105]).2
      = (.pending, ⟨.closed, none, some 7⟩) := by
  decide

end DpdkNet
