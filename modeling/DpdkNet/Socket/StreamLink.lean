import DpdkNet.Lib.Channel
import DpdkNet.Socket.SendFuture

/-! # Two ends of a connection

    A `TcpStream` at each end of an established connection, with the calls that
    tasks make at either end (`socket/tcp.rs`, and the polls of
    `runtime/tokio_compat.rs`) and what the network does in between, in any order.
    TCP is taken at its word: bytes arrive once and in order, a FIN after the last
    of them, and a connection can be reset at any time.

    What one end has read is a prefix of what the other has written, and the end
    of the stream is reported only if it is all of it
    (`stream_end_is_complete`).  A connection that breaks is reported as an error. -/

namespace DpdkNet

open Tcp Runs Channel

/-- The states after the send half was closed. -/
def Tcp.State.sendClosed : State → Bool
  | .finWait1 | .finWait2 | .closing | .lastAck | .timeWait | .closed => true
  | _ => false

/-- The states in which a close sends a FIN. -/
def Tcp.State.closesWithFin : State → Bool
  | .synReceived | .established | .closeWait => true
  | _ => false

/-- The state after the peer's FIN, where one is taken. -/
def Tcp.State.onFin : State → Option State
  | .established => some .closeWait
  | .finWait1 => some .closing
  | .finWait2 => some .timeWait
  | _ => none

/-- The state after our FIN is acknowledged. -/
def Tcp.State.onFinAcked : State → Option State
  | .finWait1 => some .finWait2
  | .closing => some .timeWait
  | .lastAck => some .closed
  | _ => none

/-- A socket with its buffers and sequence numbers, and a record of what was
    written, what was read, and whether the end of the stream was reported. -/
structure StreamEnd where
  socket : Tcp.Socket
  buffers : Buffers
  rxCapacity : Nat
  /-- bytes of ours that the peer has acknowledged, -/
  sndUna : Nat
  /-- bytes of the peer's that have arrived, -/
  rcvNxt : Nat
  /-- and whether a FIN follows ours. -/
  finSent : Bool
  written : List UInt8
  read : List UInt8
  ended : Bool

/-- The bytes that a read returned. -/
def Poll.bytes {ε : Type} : Poll (Except ε (List UInt8)) → List UInt8
  | .ready (.ok bs) => bs
  | _ => []

/-- A read that returned nothing. -/
def Poll.isEof {ε : Type} : Poll (Except ε (List UInt8)) → Bool
  | .ready (.ok []) => true
  | _ => false

namespace StreamEnd

/-- An established connection on which nothing has happened. -/
def start (rxCapacity txCapacity : Nat) : StreamEnd where
  socket := ⟨.established, none, none⟩
  buffers := ⟨[], false, [], txCapacity⟩
  rxCapacity := rxCapacity
  sndUna := 0
  rcvNxt := 0
  finSent := false
  written := []
  read := []
  ended := false

/-- Record what a read into `n` bytes returned. -/
def afterRead {ε : Type} (e : StreamEnd) (n : Nat)
    (got : Poll (Except ε (List UInt8)) × Tcp.Socket × Buffers) : StreamEnd :=
  { e with
    socket := got.2.1
    buffers := got.2.2
    read := e.read ++ got.1.bytes
    ended := e.ended || (decide (n ≠ 0) && got.1.isEof) }

/-- Record what a call put into the send buffer. -/
def afterWrite (e : StreamEnd) (t : Tcp.Socket) (b : Buffers) : StreamEnd :=
  { e with
    socket := t
    buffers := b
    written := e.written ++ b.txBuffer.drop e.buffers.txBuffer.length }

/-- A poll of `TcpStream::recv`. -/
def recv (cx : Waker) (n : Nat) (e : StreamEnd) : Poll (Except RecvError (List UInt8)) × StreamEnd :=
  let got := TcpRecvFuture.poll cx n e.socket e.buffers
  (got.1, e.afterRead n got)

/-- A poll of `TcpStream::send`, at an offset of its data. -/
def send (cx : Waker) (data : List UInt8) (offset : Nat) (e : StreamEnd) :
    Poll (Except SendError Nat) × Nat × StreamEnd :=
  let got := TcpSendFuture.poll cx data offset e.socket e.buffers
  (got.1, got.2.1, e.afterWrite got.2.2.1 got.2.2.2)

def pollRead (cx : Waker) (n : Nat) (e : StreamEnd) :
    Poll (Except TokioTcpStream.IoError (List UInt8)) × StreamEnd :=
  let got := TokioTcpStream.pollRead cx n e.socket e.buffers
  (got.1, e.afterRead n got)

def pollWrite (cx : Waker) (buf : List UInt8) (e : StreamEnd) :
    Poll (Except TokioTcpStream.IoError Nat) × StreamEnd :=
  let got := TokioTcpStream.pollWrite cx buf e.socket e.buffers
  (got.1, e.afterWrite got.2.1 got.2.2)

/-- `TcpStream::close`; a poll of its future is `waitClosed`. -/
def close (e : StreamEnd) : StreamEnd :=
  { e with
    socket := e.socket.close
    finSent := e.finSent || e.socket.state.closesWithFin }

def waitClosed (cx : Waker) (e : StreamEnd) : Poll Unit × StreamEnd :=
  let got := CloseFuture.poll cx e.socket
  (got.1, { e with socket := got.2 })

/-- A shutdown closes the socket the first time. -/
def pollShutdown (cx : Waker) (e : StreamEnd) :
    Poll (Except TokioTcpStream.IoError Unit) × StreamEnd :=
  let got := TokioTcpStream.pollShutdown cx e.socket
  (got.1, { e with
    socket := got.2
    finSent := e.finSent || e.socket.state.closesWithFin })

def abort (e : StreamEnd) : StreamEnd := { e with socket := e.socket.abort }

end StreamEnd

/-- The calls of tasks at one end. -/
inductive EndOp where
  | recv (cx : Waker) (n : Nat)
  | send (cx : Waker) (data : List UInt8) (offset : Nat)
  | pollRead (cx : Waker) (n : Nat)
  | pollWrite (cx : Waker) (buf : List UInt8)
  | close
  | waitClosed (cx : Waker)
  | pollShutdown (cx : Waker)
  | abort

def StreamEnd.call (e : StreamEnd) : EndOp → StreamEnd
  | .recv cx n => (e.recv cx n).2
  | .send cx data offset => (e.send cx data offset).2.2
  | .pollRead cx n => (e.pollRead cx n).2
  | .pollWrite cx buf => (e.pollWrite cx buf).2
  | .close => e.close
  | .waitClosed cx => (e.waitClosed cx).2
  | .pollShutdown cx => (e.pollShutdown cx).2
  | .abort => e.abort

/-! ## The network -/

/-- What happens between an end and its peer. -/
inductive NetOp where
  /-- The next bytes reach the peer, within its window, -/
  | deliver (n : Nat)
  /-- and the FIN after the last of them. -/
  | fin
  /-- Bytes that have arrived are acknowledged, -/
  | acked (n : Nat)
  /-- and the FIN. -/
  | finAcked
  /-- A RST arrives or a timer expires. -/
  | reset

/-- The connection is not in a state for it. -/
inductive NotReady where
  | mk

/-- The end and its peer after it. -/
def NetOp.occur (a b : StreamEnd) : NetOp → Except NotReady (StreamEnd × StreamEnd)
  | .deliver n =>
      let next := a.buffers.txBuffer.drop (b.rcvNxt - a.sndUna)
      if b.socket.state.receiving = true ∧ n ≤ next.length ∧
          b.buffers.rxBuffer.length + n ≤ b.rxCapacity then
        .ok (a, { b with
          socket := { b.socket with recvWaker := none }
          buffers := { b.buffers with rxBuffer := b.buffers.rxBuffer ++ next.take n }
          rcvNxt := b.rcvNxt + n })
      else .error .mk
  | .fin =>
      match b.socket.state.onFin with
      | some st =>
          if a.finSent = true ∧ b.rcvNxt = a.sndUna + a.buffers.txBuffer.length then
            .ok (a, { b with
              socket := b.socket.setState st
              buffers := { b.buffers with rxFinReceived := true } })
          else .error .mk
      | none => .error .mk
  | .acked n =>
      if a.socket.state ≠ .closed ∧ a.sndUna + n ≤ b.rcvNxt then
        .ok ({ a with
          socket := { a.socket with sendWaker := none }
          buffers := { a.buffers with txBuffer := a.buffers.txBuffer.drop n }
          sndUna := a.sndUna + n }, b)
      else .error .mk
  | .finAcked =>
      match a.socket.state.onFinAcked with
      | some st =>
          if b.buffers.rxFinReceived = true ∧ a.buffers.txBuffer = [] then
            .ok ({ a with socket := a.socket.setState st }, b)
          else .error .mk
      | none => .error .mk
  | .reset => .ok ({ a with socket := a.socket.setState .closed }, b)

/-! ## Runs -/

inductive Side where
  | client
  | server
  deriving DecidableEq, Repr

def Side.other : Side → Side
  | .client => .server
  | .server => .client

/-- The two ends. -/
abbrev Link := Side → StreamEnd

inductive LinkOp where
  | call (x : Side) (op : EndOp)
  | net (x : Side) (op : NetOp)

namespace Link

/-- Both ends established, with buffers of any size. -/
def start (rxCapacity txCapacity : Side → Nat) : Link :=
  fun x => .start (rxCapacity x) (txCapacity x)

/-- Something happens between an end and its peer. -/
def net (l : Link) (x : Side) (op : NetOp) : Except NotReady Link :=
  match op.occur (l x) (l x.other) with
  | .ok (a, b) => .ok (Function.update (Function.update l x a) x.other b)
  | .error e => .error e

def step (l : Link) : LinkOp → Except NotReady Link
  | .call x op => .ok (Function.update l x ((l x).call op))
  | .net x op => l.net x op

end Link

/-! ## What a call can do -/

/-- What a read into `n` bytes finds and leaves. -/
inductive Reads {ε : Type} (n : Nat) (t : Tcp.Socket) (b : Buffers) :
    Poll (Except ε (List UInt8)) × Tcp.Socket × Buffers → Prop
  | pending {t' : Tcp.Socket} (hstate : t'.state = t.state) : Reads n t b (.pending, t', b)
  | error (e : ε) (hstate : t.state.receiving = false) (hfin : b.rxFinReceived = false) :
      Reads n t b (.ready (.error e), t, b)
  | data (hrx : n = 0 ∨ b.rxBuffer ≠ []) :
      Reads n t b (.ready (.ok (b.rxBuffer.take n)), t, { b with rxBuffer := b.rxBuffer.drop n })
  | eof (hrx : b.rxBuffer = []) (hfin : b.rxFinReceived = true) :
      Reads n t b (.ready (.ok []), t, b)

theorem rxBuffer_drop_zero (b : Buffers) : { b with rxBuffer := b.rxBuffer.drop 0 } = b := rfl

theorem TcpRecvFuture.poll_reads (cx : Waker) (n : Nat) (t : Tcp.Socket) (b : Buffers) :
    Reads n t b (TcpRecvFuture.poll cx n t b) := by
  rw [poll]
  by_cases hrx : b.rxBuffer = []
  · rw [Buffers.recvSlice_of_nil t.state n hrx]
    by_cases hrecv : t.state.receiving = true
    · rw [if_pos hrecv]
      by_cases hn : n = 0
      · simp only [if_pos hn]
        have h := Reads.data (ε := RecvError) (n := n) (t := t) (b := b) (Or.inl hn)
        rw [hn, List.take_zero, rxBuffer_drop_zero] at h
        rw [hn]
        exact h
      · simp only [if_neg hn]
        exact .pending rfl
    · rw [if_neg hrecv]
      by_cases hfin : b.rxFinReceived = true
      · rw [if_pos hfin]
        exact .eof hrx hfin
      · rw [if_neg hfin]
        exact .error _ (Bool.eq_false_iff.mpr hrecv) (Bool.eq_false_iff.mpr hfin)
  · rw [Buffers.recvSlice_of_ne_nil t.state n hrx]
    cases htake : b.rxBuffer.take n with
    | nil =>
        have hn : n = 0 := (List.take_eq_nil_iff.mp htake).resolve_right hrx
        simp only [if_pos hn]
        have h := Reads.data (ε := RecvError) (n := n) (t := t) (b := b) (Or.inl hn)
        rw [htake] at h
        exact h
    | cons x xs =>
        have h := Reads.data (ε := RecvError) (n := n) (t := t) (b := b) (Or.inr hrx)
        rw [htake] at h
        exact h

theorem TokioTcpStream.pollRead_reads (cx : Waker) (n : Nat) (t : Tcp.Socket) (b : Buffers) :
    Reads n t b (TokioTcpStream.pollRead cx n t b) := by
  rw [pollRead]
  by_cases hn : n = 0
  · rw [if_pos hn]
    have h := Reads.data (ε := IoError) (n := n) (t := t) (b := b) (Or.inl hn)
    rw [hn, List.take_zero, rxBuffer_drop_zero] at h
    rw [hn]
    exact h
  · rw [if_neg hn]
    by_cases hrx : b.rxBuffer = []
    · rw [Buffers.recvSlice_of_nil t.state n hrx]
      by_cases hrecv : t.state.receiving = true
      · rw [if_pos hrecv]
        exact .pending rfl
      · rw [if_neg hrecv]
        by_cases hfin : b.rxFinReceived = true
        · rw [if_pos hfin]
          exact .eof hrx hfin
        · rw [if_neg hfin]
          exact .error _ (Bool.eq_false_iff.mpr hrecv) (Bool.eq_false_iff.mpr hfin)
    · rw [Buffers.recvSlice_of_ne_nil t.state n hrx]
      have h := Reads.data (ε := IoError) (n := n) (t := t) (b := b) (Or.inr hrx)
      cases htake : b.rxBuffer.take n with
      | nil => exact absurd ((List.take_eq_nil_iff.mp htake).resolve_right hrx) hn
      | cons x xs =>
          rw [htake] at h
          exact h

namespace StreamEnd

/-- The changes that a call can make to its end. -/
inductive Effect (e : StreamEnd) : StreamEnd → Prop
  | register {t : Tcp.Socket} (hstate : t.state = e.socket.state) : Effect e { e with socket := t }
  | read (n : Nat) : Effect e { e with
      buffers := { e.buffers with rxBuffer := e.buffers.rxBuffer.drop n }
      read := e.read ++ e.buffers.rxBuffer.take n }
  | finish (hrx : e.buffers.rxBuffer = []) (hfin : e.buffers.rxFinReceived = true) :
      Effect e { e with ended := true }
  | write {t : Tcp.Socket} (hstate : t.state = e.socket.state) (bs : List UInt8)
      (hopen : e.socket.state.maySend = true) : Effect e { e with
        socket := t
        buffers := { e.buffers with txBuffer := e.buffers.txBuffer ++ bs }
        written := e.written ++ bs }
  | close {t : Tcp.Socket} (fin : Bool) (hstate : t.state.sendClosed = true) :
      Effect e { e with socket := t, finSent := e.finSent || fin }

section AfterRead

variable {ε : Type} {n : Nat} {e : StreamEnd} (t : Tcp.Socket)

theorem afterRead_pending :
    e.afterRead (ε := ε) n (.pending, t, e.buffers) = { e with socket := t } := by
  simp [afterRead, Poll.bytes, Poll.isEof]

theorem afterRead_error (err : ε) :
    e.afterRead n (.ready (.error err), t, e.buffers) = { e with socket := t } := by
  simp [afterRead, Poll.bytes, Poll.isEof]

/-- A read of something is not a read of nothing into a buffer that could hold
    something. -/
theorem afterRead_data (hrx : n = 0 ∨ e.buffers.rxBuffer ≠ []) :
    e.afterRead (ε := ε) n (.ready (.ok (e.buffers.rxBuffer.take n)), t,
        { e.buffers with rxBuffer := e.buffers.rxBuffer.drop n })
      = { e with
          socket := t
          buffers := { e.buffers with rxBuffer := e.buffers.rxBuffer.drop n }
          read := e.read ++ e.buffers.rxBuffer.take n } := by
  have hnot : (decide (n ≠ 0) &&
      (Poll.ready (Except.ok (ε := ε) (e.buffers.rxBuffer.take n))).isEof) = false := by
    by_cases hn : n = 0
    · simp [hn]
    · cases htake : e.buffers.rxBuffer.take n with
      | nil => exact absurd ((List.take_eq_nil_iff.mp htake).resolve_right (hrx.resolve_left hn)) hn
      | cons x xs => simp [Poll.isEof]
  rw [afterRead, hnot, Bool.or_false]
  rfl

theorem afterRead_eof (hn : n ≠ 0) :
    e.afterRead (ε := ε) n (.ready (.ok []), t, e.buffers) = { e with socket := t, ended := true } := by
  simp [afterRead, Poll.bytes, Poll.isEof, hn]

end AfterRead

theorem effect_of_reads {ε : Type} {n : Nat} {e : StreamEnd}
    {got : Poll (Except ε (List UInt8)) × Tcp.Socket × Buffers}
    (h : Reads n e.socket e.buffers got) : e.Effect (e.afterRead n got) := by
  cases h with
  | pending hstate =>
      rw [afterRead_pending]
      exact .register hstate
  | error err hstate hfin =>
      rw [afterRead_error]
      exact .register rfl
  | data hrx =>
      rw [afterRead_data _ hrx]
      exact .read n
  | eof hrx hfin =>
      by_cases hn : n = 0
      · have heff := Effect.register (e := e) (t := e.socket) rfl
        simpa [afterRead, Poll.bytes, Poll.isEof, hn] using heff
      · rw [afterRead_eof _ hn]
        exact .finish hrx hfin

/-- What `send_slice` does to an end, whoever is registered then. -/
theorem effect_of_sendSlice (e : StreamEnd) (data : List UInt8) {t : Tcp.Socket}
    (hstate : t.state = e.socket.state) :
    e.Effect (e.afterWrite t (e.buffers.sendSlice e.socket.state data).2) := by
  by_cases hopen : e.socket.state.maySend = true
  · rw [sendSlice_open e.buffers hopen, afterWrite, List.drop_left]
    exact .write hstate _ hopen
  · rw [Buffers.sendSlice, if_neg hopen, afterWrite, List.drop_length, List.append_nil]
    exact .register hstate

theorem send_effect (cx : Waker) (data : List UInt8) (offset : Nat) (e : StreamEnd) :
    e.Effect (e.send cx data offset).2.2 := by
  have heff := @effect_of_sendSlice e (data.drop offset)
  show e.Effect (e.afterWrite (TcpSendFuture.poll cx data offset e.socket e.buffers).2.2.1
    (TcpSendFuture.poll cx data offset e.socket e.buffers).2.2.2)
  rw [TcpSendFuture.poll]
  rcases hslice : e.buffers.sendSlice e.socket.state (data.drop offset) with ⟨res, b⟩
  rw [hslice] at heff
  cases res with
  | error err => exact heff rfl
  | ok sent =>
      cases sent with
      | zero => exact heff rfl
      | succ k =>
          by_cases hall : data.length ≤ offset + (k + 1)
          · simp only [if_pos hall]
            exact heff rfl
          · simp only [if_neg hall]
            exact heff rfl

theorem pollWrite_effect (cx : Waker) (buf : List UInt8) (e : StreamEnd) :
    e.Effect (e.pollWrite cx buf).2 := by
  have heff := @effect_of_sendSlice e buf
  show e.Effect (e.afterWrite (TokioTcpStream.pollWrite cx buf e.socket e.buffers).2.1
    (TokioTcpStream.pollWrite cx buf e.socket e.buffers).2.2)
  rw [TokioTcpStream.pollWrite]
  rcases hslice : e.buffers.sendSlice e.socket.state buf with ⟨res, b⟩
  rw [hslice] at heff
  cases res with
  | error err =>
      cases err
      exact heff rfl
  | ok sent =>
      cases sent with
      | zero =>
          by_cases hnil : buf = []
          · simp only [if_pos hnil]
            exact heff rfl
          · simp only [if_neg hnil]
            exact heff rfl
      | succ k => exact heff rfl

theorem sendClosed_close (t : Tcp.Socket) : t.close.state.sendClosed = true := by
  cases hst : t.state <;> simp [Socket.close, hst, Socket.setState, State.sendClosed]

theorem close_effect (e : StreamEnd) : e.Effect e.close :=
  .close _ (sendClosed_close e.socket)

theorem waitClosed_effect (cx : Waker) (e : StreamEnd) : e.Effect (e.waitClosed cx).2 := by
  refine .register ?_
  rw [CloseFuture.poll]
  split <;> rfl

theorem pollShutdown_effect (cx : Waker) (e : StreamEnd) : e.Effect (e.pollShutdown cx).2 := by
  refine .close _ ?_
  cases hst : e.socket.state <;>
    simp [TokioTcpStream.pollShutdown, Socket.close, hst, Socket.setState,
      Socket.registerSendWaker, State.sendClosed]

/-- **ONE CALL** at an end. -/
theorem call_effect (e : StreamEnd) (op : EndOp) : e.Effect (e.call op) := by
  cases op with
  | recv cx n => exact effect_of_reads (TcpRecvFuture.poll_reads cx n e.socket e.buffers)
  | send cx data offset => exact send_effect cx data offset e
  | pollRead cx n => exact effect_of_reads (TokioTcpStream.pollRead_reads cx n e.socket e.buffers)
  | pollWrite cx buf => exact pollWrite_effect cx buf e
  | close => exact close_effect e
  | waitClosed cx => exact waitClosed_effect cx e
  | pollShutdown cx => exact pollShutdown_effect cx e
  | abort =>
      have heff := Effect.close (e := e) (t := e.socket.abort) false rfl
      rw [Bool.or_false] at heff
      exact heff

end StreamEnd

/-! ## What the network can do -/

/-- The changes that the network can make to an end, apart from bytes that arrive
    or are acknowledged. -/
structure NetMove (e e' : StreamEnd) : Prop where
  written : e'.written = e.written
  read : e'.read = e.read
  ended : e'.ended = e.ended
  finSent : e'.finSent = e.finSent
  state : (e'.socket.state = e.socket.state ∧
      e'.buffers.rxFinReceived = e.buffers.rxFinReceived) ∨
    (e.socket.state.onFin = some e'.socket.state ∧ e'.buffers.rxFinReceived = true) ∨
    e.socket.state.onFinAcked = some e'.socket.state ∨ e'.socket.state = .closed

theorem NetMove.refl (e : StreamEnd) : NetMove e e := ⟨rfl, rfl, rfl, rfl, Or.inl ⟨rfl, rfl⟩⟩

/-- **ONE EVENT**, seen from both ends. -/
theorem NetOp.occur_moves {a a' b b' : StreamEnd} {op : NetOp}
    (hop : op.occur a b = .ok (a', b')) : NetMove a a' ∧ NetMove b b' := by
  cases op with
  | deliver n =>
      obtain ⟨-, heq⟩ := guard_eq_ok hop
      cases heq
      exact ⟨.refl a, rfl, rfl, rfl, rfl, Or.inl ⟨rfl, rfl⟩⟩
  | fin =>
      simp only [occur] at hop
      split at hop
      · rename_i st hst
        obtain ⟨-, heq⟩ := guard_eq_ok hop
        cases heq
        exact ⟨.refl a, rfl, rfl, rfl, rfl, Or.inr (Or.inl ⟨hst, rfl⟩)⟩
      · cases hop
  | acked n =>
      obtain ⟨-, heq⟩ := guard_eq_ok hop
      cases heq
      exact ⟨⟨rfl, rfl, rfl, rfl, Or.inl ⟨rfl, rfl⟩⟩, .refl b⟩
  | finAcked =>
      simp only [occur] at hop
      split at hop
      · rename_i st hst
        obtain ⟨-, heq⟩ := guard_eq_ok hop
        cases heq
        exact ⟨⟨rfl, rfl, rfl, rfl, Or.inr (Or.inr (Or.inl hst))⟩, .refl b⟩
      · cases hop
  | reset =>
      cases hop
      exact ⟨⟨rfl, rfl, rfl, rfl, Or.inr (Or.inr (Or.inr rfl))⟩, .refl b⟩

/-! ## What flows from one end to the other -/

/-- The bytes from `a` to `b`.  A FIN has arrived only if it was sent and all bytes
    are there; the end of the stream is reported only when they are read too. -/
structure Flows (a b : StreamEnd) : Prop where
  carries : Carries a.written a.sndUna b.rcvNxt a.buffers.txBuffer b.read b.buffers.rxBuffer
  fin : b.buffers.rxFinReceived = true → a.finSent = true ∧ b.rcvNxt = a.written.length
  finSent : a.finSent = true → a.socket.state.sendClosed = true
  ended : b.ended = true → b.buffers.rxFinReceived = true ∧ b.buffers.rxBuffer = []

namespace Flows

variable {a a' b b' : StreamEnd}

/-- Nothing has happened yet, whatever state the sockets are in. -/
theorem fresh {rxa txa rxb txb : Nat} (ta tb : Tcp.Socket) :
    Flows { StreamEnd.start rxa txa with socket := ta }
      { StreamEnd.start rxb txb with socket := tb } where
  carries := Carries.empty
  fin := fun h => by cases h
  finSent := fun h => by cases h
  ended := fun h => by cases h

theorem maySend_of_sendClosed {st : State} (h : st.sendClosed = true) : st.maySend = false := by
  cases st <;> first | rfl | cases h

/-- A call at the end that sends. -/
theorem call_sender (h : Flows a b) (heff : a.Effect a') : Flows a' b := by
  cases heff with
  | register hstate =>
      refine ⟨h.carries, h.fin, fun hsent => ?_, h.ended⟩
      rw [hstate]
      exact h.finSent hsent
  | read n => exact ⟨h.carries, h.fin, h.finSent, h.ended⟩
  | finish hrx hfin => exact ⟨h.carries, h.fin, h.finSent, h.ended⟩
  | write hstate bs hopen =>
      -- an end that still writes has not closed, so no FIN has arrived
      have hnot : a.finSent = false := by
        by_contra hsent
        have hclosed := maySend_of_sendClosed (h.finSent (Bool.not_eq_false _ ▸ hsent))
        rw [hclosed] at hopen
        cases hopen
      refine ⟨h.carries.write bs, fun hfin => ?_, fun hsent => ?_, h.ended⟩
      · exact absurd (hnot.symm.trans (h.fin hfin).1) Bool.false_ne_true
      · exact absurd (hnot.symm.trans hsent) Bool.false_ne_true
  | close fin hstate =>
      refine ⟨h.carries, fun hfin => ⟨?_, (h.fin hfin).2⟩, fun _ => hstate, h.ended⟩
      show (a.finSent || fin) = true
      rw [(h.fin hfin).1, Bool.true_or]

/-- A call at the end that receives. -/
theorem call_receiver (h : Flows a b) (heff : b.Effect b') : Flows a b' := by
  cases heff with
  | register hstate => exact ⟨h.carries, h.fin, h.finSent, h.ended⟩
  | read n =>
      refine ⟨h.carries.take n, h.fin, h.finSent, fun hended => ?_⟩
      obtain ⟨hfin, hrx⟩ := h.ended hended
      refine ⟨hfin, ?_⟩
      show b.buffers.rxBuffer.drop n = []
      rw [hrx, List.drop_nil]
  | finish hrx hfin => exact ⟨h.carries, h.fin, h.finSent, fun _ => ⟨hfin, hrx⟩⟩
  | write hstate bs hopen => exact ⟨h.carries, h.fin, h.finSent, h.ended⟩
  | close fin hstate => exact ⟨h.carries, h.fin, h.finSent, h.ended⟩

/-- An end whose send half is not closed moves to another state, -/
theorem open_sender (h : Flows a b) (hst : a.socket.state.sendClosed = false) (st : State) :
    Flows { a with socket := a.socket.setState st } b := by
  refine ⟨h.carries, h.fin, fun hsent => ?_, h.ended⟩
  exact absurd (hst.symm.trans (h.finSent hsent)) Bool.false_ne_true

/-- or its peer does. -/
theorem open_receiver (h : Flows a b) (st : State) :
    Flows a { b with socket := b.socket.setState st } :=
  ⟨h.carries, h.fin, h.finSent, h.ended⟩

/-- What is left of the send buffer once `b` has all of it. -/
theorem next_length (h : Flows a b) :
    (a.buffers.txBuffer.drop (b.rcvNxt - a.sndUna)).length = a.written.length - b.rcvNxt := by
  have hle := h.carries.una_le
  rw [List.length_drop, h.carries.length_tx]
  omega

/-- What the network does from `a` to `b`, in this direction. -/
theorem net_forth {op : NetOp} (h : Flows a b) (hop : op.occur a b = .ok (a', b')) :
    Flows a' b' := by
  cases op with
  | deliver n =>
      obtain ⟨⟨-, hn, -⟩, heq⟩ := guard_eq_ok hop
      cases heq
      have hlen := h.next_length
      refine ⟨h.carries.arrive hn, fun hfin => ?_, h.finSent, fun hended => ?_⟩
      · obtain ⟨hsent, hall⟩ := h.fin hfin
        refine ⟨hsent, ?_⟩
        show b.rcvNxt + n = a.written.length
        omega
      · -- after the FIN there is nothing left to deliver
        obtain ⟨hfin, hrx⟩ := h.ended hended
        obtain ⟨-, hall⟩ := h.fin hfin
        have hnone : n = 0 := by omega
        refine ⟨hfin, ?_⟩
        rw [hnone, List.take_zero, List.append_nil]
        exact hrx
  | fin =>
      simp only [NetOp.occur] at hop
      split at hop
      · obtain ⟨⟨hsent, hall⟩, heq⟩ := guard_eq_ok hop
        cases heq
        have hlen := h.carries.length_tx
        have hle := h.carries.una_le
        have hle' := h.carries.nxt_le
        refine ⟨h.carries, fun _ => ⟨hsent, ?_⟩, h.finSent, fun hended => ⟨rfl, (h.ended hended).2⟩⟩
        show b.rcvNxt = a.written.length
        omega
      · cases hop
  | acked n =>
      obtain ⟨⟨-, hn⟩, heq⟩ := guard_eq_ok hop
      cases heq
      exact ⟨h.carries.ack hn, h.fin, h.finSent, h.ended⟩
  | finAcked =>
      simp only [NetOp.occur] at hop
      split at hop
      · rename_i st hst
        obtain ⟨-, heq⟩ := guard_eq_ok hop
        cases heq
        refine ⟨h.carries, h.fin, fun _ => ?_, h.ended⟩
        show st.sendClosed = true
        cases hstate : a.socket.state <;> rw [hstate] at hst <;> cases hst <;> rfl
      · cases hop
  | reset =>
      cases hop
      exact ⟨h.carries, h.fin, fun _ => rfl, h.ended⟩

/-- And in the other direction, where it moves no bytes. -/
theorem net_back {op : NetOp} (h : Flows b a) (hop : op.occur a b = .ok (a', b')) :
    Flows b' a' := by
  cases op with
  | deliver n =>
      obtain ⟨-, heq⟩ := guard_eq_ok hop
      cases heq
      exact ⟨h.carries, h.fin, h.finSent, h.ended⟩
  | fin =>
      simp only [NetOp.occur] at hop
      split at hop
      · rename_i st hst
        obtain ⟨-, heq⟩ := guard_eq_ok hop
        cases heq
        refine ⟨h.carries, h.fin, fun hsent => ?_, h.ended⟩
        have hclosed := h.finSent hsent
        show st.sendClosed = true
        cases hstate : b.socket.state <;> rw [hstate] at hst hclosed <;> cases hst
        · cases hclosed
        · rfl
        · rfl
      · cases hop
  | acked n =>
      obtain ⟨-, heq⟩ := guard_eq_ok hop
      cases heq
      exact ⟨h.carries, h.fin, h.finSent, h.ended⟩
  | finAcked =>
      simp only [NetOp.occur] at hop
      split at hop
      · obtain ⟨-, heq⟩ := guard_eq_ok hop
        cases heq
        exact ⟨h.carries, h.fin, h.finSent, h.ended⟩
      · cases hop
  | reset =>
      cases hop
      exact ⟨h.carries, h.fin, h.finSent, h.ended⟩

/-- What was read is a prefix of what was written. -/
theorem read_prefix (h : Flows a b) : b.read <+: a.written := h.carries.read_prefix

/-- At the end of the stream everything was read. -/
theorem read_eq (h : Flows a b) (hended : b.ended = true) : b.read = a.written := by
  obtain ⟨hfin, hrx⟩ := h.ended hended
  exact h.carries.read_eq (h.fin hfin).2 hrx

end Flows

/-! ## Whole runs -/

theorem Side.other_other (x : Side) : x.other.other = x := by
  cases x with
  | client => rfl
  | server => rfl

theorem Side.other_ne (x : Side) : x.other ≠ x := by
  cases x with
  | client => exact Side.noConfusion
  | server => exact Side.noConfusion

theorem Side.eq_or_eq_other (x y : Side) : y = x ∨ y = x.other := by
  cases x with
  | client =>
      cases y with
      | client => exact Or.inl rfl
      | server => exact Or.inr rfl
  | server =>
      cases y with
      | client => exact Or.inr rfl
      | server => exact Or.inl rfl

namespace Link

/-- Both directions. -/
def Flowing (l : Link) : Prop := ∀ x : Side, Flows (l x) (l x.other)

/-- A pair of ends that flows both ways, put in the place of `x` and its peer. -/
theorem flowing_of {l : Link} {x : Side} (hforth : Flows (l x) (l x.other))
    (hback : Flows (l x.other) (l x)) : Flowing l := by
  intro y
  rcases x.eq_or_eq_other y with rfl | rfl
  · exact hforth
  · rw [x.other_other]
    exact hback

theorem flowing_call {l : Link} (hl : l.Flowing) {x : Side} {e : StreamEnd}
    (heff : (l x).Effect e) : Flowing (Function.update l x e) := by
  have hback := hl x.other
  rw [x.other_other] at hback
  refine flowing_of (x := x) ?_ ?_
  · rw [Function.update_self, Function.update_of_ne x.other_ne]
    exact (hl x).call_sender heff
  · rw [Function.update_self, Function.update_of_ne x.other_ne]
    exact hback.call_receiver heff

/-- A handshake moves an end on. -/
theorem flowing_setState {l : Link} (hl : l.Flowing) {x : Side}
    (hst : (l x).socket.state.sendClosed = false) (st : State) :
    Flowing (Function.update l x { l x with socket := (l x).socket.setState st }) := by
  have hback := hl x.other
  rw [x.other_other] at hback
  refine flowing_of (x := x) ?_ ?_
  · rw [Function.update_self, Function.update_of_ne x.other_ne]
    exact (hl x).open_sender hst st
  · rw [Function.update_self, Function.update_of_ne x.other_ne]
    exact hback.open_receiver st

/-- Any number of calls at one end, one after the other. -/
theorem flowing_calls {l : Link} (hl : l.Flowing) {x : Side} {e : StreamEnd}
    (h : Relation.ReflTransGen StreamEnd.Effect (l x) e) : Flowing (Function.update l x e) := by
  induction h with
  | refl =>
      rw [Function.update_eq_self]
      exact hl
  | tail _ heff ih =>
      have hnext := flowing_call ih (x := x) (by rw [Function.update_self]; exact heff)
      rw [Function.update_idem] at hnext
      exact hnext

/-- What the network does to the two ends. -/
theorem net_ok {l l' : Link} {x : Side} {op : NetOp} (h : l.net x op = .ok l') :
    op.occur (l x) (l x.other) = .ok (l' x, l' x.other) := by
  rw [net] at h
  split at h
  · rename_i a b hop
    cases h
    rw [hop, Function.update_self, Function.update_of_ne x.other_ne.symm, Function.update_self]
  · cases h

/-- Every end, whichever side the event is at. -/
theorem net_moves {l l' : Link} {x : Side} {op : NetOp} (h : l.net x op = .ok l') (y : Side) :
    NetMove (l y) (l' y) := by
  obtain ⟨hleft, hright⟩ := NetOp.occur_moves (net_ok h)
  rcases x.eq_or_eq_other y with rfl | rfl
  · exact hleft
  · exact hright

theorem flowing_net {l l' : Link} {x : Side} {op : NetOp} (hl : l.Flowing)
    (h : l.net x op = .ok l') : l'.Flowing := by
  have hback := hl x.other
  rw [x.other_other] at hback
  have hop := net_ok h
  exact flowing_of (x := x) ((hl x).net_forth hop) (hback.net_back hop)

/-- **ONE STEP** keeps both directions. -/
theorem flowing_step {l l' : Link} {op : LinkOp} (hl : l.Flowing) (h : l.step op = .ok l') :
    l'.Flowing := by
  cases op with
  | call x op =>
      cases h
      exact flowing_call hl ((l x).call_effect op)
  | net x op => exact flowing_net hl h

theorem flowing_start (rxCapacity txCapacity : Side → Nat) : (start rxCapacity txCapacity).Flowing :=
  fun _ => Flows.fresh _ _

/-- **THE END OF A STREAM IS ITS END**: in every run, whatever the tasks at the two
    ends call and however the network behaves, an end has read a prefix of what
    its peer has written, and all of it once it was told that the stream has
    ended. -/
theorem stream_end_is_complete (rxCapacity txCapacity : Side → Nat) (ops : List LinkOp) (t : Link)
    (hrun : run step (start rxCapacity txCapacity) ops = .ok t) (x : Side) :
    (t x.other).read <+: (t x).written ∧
      ((t x.other).ended = true → (t x.other).read = (t x).written) := by
  have hflows := run_invariant (fun _ _ _ => flowing_step) (flowing_start _ _) hrun x
  exact ⟨hflows.read_prefix, hflows.read_eq⟩

/-- Three bytes through a receive buffer of two, then the FIN. -/
theorem three_bytes_then_end :
    ∃ ops t, run step (start (fun _ => 2) (fun _ => 8)) ops = .ok t ∧
      (t .server).ended = true ∧ (t .server).read = (t .client).written := by
  obtain ⟨t, hrun, hended⟩ : ∃ t, run step (start (fun _ => 2) (fun _ => 8))
      [.call .client (.send 1 [1, 2, 3] 0), .net .client (.deliver 2), .call .client .close,
        .call .server (.recv 2 64), .net .client (.deliver 1), .net .client .fin,
        .call .server (.recv 2 64), .call .server (.recv 2 64)] = .ok t ∧
      (t .server).ended = true := ⟨_, rfl, rfl⟩
  exact ⟨_, t, hrun, hended, (stream_end_is_complete _ _ _ t hrun .client).2 hended⟩

end Link

end DpdkNet
