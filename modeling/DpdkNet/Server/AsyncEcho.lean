import DpdkNet.Lib.Tally
import DpdkNet.Socket.StreamLink

/-! # The async echo server

    `dpdk-net-test/src/app/echo_server.rs`: `EchoServer::run` accepts connections
    and spawns `handle_connection` for each, which receives and sends by turns
    until the client closes or something fails, and then closes.

    A handler is at one of its awaits.  A poll of its task is a number of the steps
    taken here, each of which polls the future it waits for and goes on to the
    next; clients call what they like, and the network interleaves.

    Every client reads a prefix of what it has written, and all of it if it is told
    that the stream has ended (`echo_is_complete`): the server closes only after a
    read of nothing, which comes after everything before it was sent.  The
    counters are those of the bytes that were read and sent
    (`stats_count_bytes`). -/

namespace DpdkNet

open Tcp Runs

namespace AsyncEcho

/-- Statistics for the echo server; the counters wrap around. -/
structure ServerStats where
  connections : UInt64
  bytesReceived : UInt64
  bytesSent : UInt64
  sendErrors : UInt64
  deriving DecidableEq, Repr

def ServerStats.new : ServerStats := ⟨0, 0, 0, 0⟩

/-- How the loop of a handler was left. -/
inductive Reason where
  | clientClosed
  | recvError
  | sendError
  deriving DecidableEq, Repr

/-- The await that a handler is at. -/
inductive Phase where
  | receiving
  | sending (data : List UInt8) (offset : Nat)
  | closing (why : Reason)
  | done (why : Reason)
  deriving DecidableEq, Repr

/-- The size of a handler's buffer. -/
def bufLen : Nat := 4096

/-- Receive and echo data until closed: from the await it is at to the next. -/
def handleConnection (cx : Waker) (phase : Phase) (stats : ServerStats) (e : StreamEnd) :
    Phase × ServerStats × StreamEnd :=
  match phase with
  | .receiving =>
      match e.recv cx bufLen with
      | (.ready (.ok []), e) => (.closing .clientClosed, stats, e.close)
      | (.ready (.ok bytes), e) =>
          (.sending bytes 0,
            { stats with bytesReceived := stats.bytesReceived + UInt64.ofNat bytes.length }, e)
      | (.ready (.error _), e) => (.closing .recvError, stats, e.close)
      | (.pending, e) => (.receiving, stats, e)
  | .sending data offset =>
      match e.send cx data offset with
      | (.ready (.ok len), _, e) =>
          (.receiving, { stats with bytesSent := stats.bytesSent + UInt64.ofNat len }, e)
      | (.ready (.error _), _, e) =>
          (.closing .sendError, { stats with sendErrors := stats.sendErrors + 1 }, e.close)
      | (.pending, offset, e) => (.sending data offset, stats, e)
  | .closing why =>
      match e.waitClosed cx with
      | (.ready (), e) => (.done why, stats, e)
      | (.pending, e) => (.closing why, stats, e)
  | .done why => (.done why, stats, e)

/-! ## The handler's promise -/

/-- The handler has not closed: the connection is open, half closed by the client,
    or broken. -/
structure Opened (e : StreamEnd) : Prop where
  noFin : e.finSent = false
  state : e.socket.state = .established ∨
    (e.socket.state = .closeWait ∧ e.buffers.rxFinReceived = true) ∨ e.socket.state = .closed

/-- The connection is broken, and no FIN was sent. -/
structure Broken (e : StreamEnd) : Prop where
  noFin : e.finSent = false
  state : e.socket.state = .closed

/-- What a handler that has closed for this reason has sent of what it has read. -/
def Reason.Holds (e : StreamEnd) : Reason → Prop
  | .clientClosed => e.ended = true ∧ e.written = e.read
  | .recvError | .sendError => Broken e ∧ e.written <+: e.read

/-- And a handler that is at this await. -/
def Phase.Holds (e : StreamEnd) : Phase → Prop
  | .receiving => Opened e ∧ e.written = e.read
  | .sending data offset =>
      Opened e ∧ offset < data.length ∧ e.written ++ data.drop offset = e.read
  | .closing why | .done why => why.Holds e

theorem Reason.Holds.written_prefix {e : StreamEnd} {why : Reason} (h : why.Holds e) :
    e.written <+: e.read := by
  cases why with
  | clientClosed => exact h.2 ▸ List.prefix_refl _
  | recvError => exact h.2
  | sendError => exact h.2

/-- What was sent is a prefix of what was read at every await. -/
theorem Phase.Holds.written_prefix {e : StreamEnd} {phase : Phase} (h : phase.Holds e) :
    e.written <+: e.read := by
  cases phase with
  | receiving => exact h.2 ▸ List.prefix_refl _
  | sending data offset => exact ⟨_, h.2.2⟩
  | closing why => exact Reason.Holds.written_prefix h
  | done why => exact Reason.Holds.written_prefix h

theorem Reason.Holds.of_finSent {e : StreamEnd} {why : Reason} (h : why.Holds e)
    (hfin : e.finSent = true) : e.ended = true ∧ e.written = e.read := by
  cases why with
  | clientClosed => exact h
  | recvError => exact absurd (h.1.noFin.symm.trans hfin) Bool.false_ne_true
  | sendError => exact absurd (h.1.noFin.symm.trans hfin) Bool.false_ne_true

/-- A handler that has sent a FIN has come to the end of the stream, and has sent
    all of it. -/
theorem Phase.Holds.of_finSent {e : StreamEnd} {phase : Phase} (h : phase.Holds e)
    (hfin : e.finSent = true) : e.ended = true ∧ e.written = e.read := by
  cases phase with
  | receiving => exact absurd (h.1.noFin.symm.trans hfin) Bool.false_ne_true
  | sending data offset => exact absurd (h.1.noFin.symm.trans hfin) Bool.false_ne_true
  | closing why => exact Reason.Holds.of_finSent h hfin
  | done why => exact Reason.Holds.of_finSent h hfin

/-! ## One await -/

section Await

variable {e : StreamEnd} (cx : Waker)

theorem opened_register {t : Tcp.Socket} (h : Opened e) (hstate : t.state = e.socket.state) :
    Opened { e with socket := t } := by
  refine ⟨h.noFin, ?_⟩
  show t.state = _ ∨ (t.state = _ ∧ _) ∨ t.state = _
  rw [hstate]
  exact h.state

/-- A connection on which nothing more can be received, with no FIN, is broken. -/
theorem broken_of_not_receiving (h : Opened e) (hrecv : e.socket.state.receiving = false)
    (hfin : e.buffers.rxFinReceived = false) : Broken e := by
  refine ⟨h.noFin, ?_⟩
  rcases h.state with hest | ⟨-, hfin'⟩ | hclosed
  · rw [hest] at hrecv
    cases hrecv
  · rw [hfin] at hfin'
    cases hfin'
  · exact hclosed

/-- And so is one on which nothing can be sent. -/
theorem broken_of_not_maySend (h : Opened e) (hsend : e.socket.state.maySend = false) :
    Broken e := by
  refine ⟨h.noFin, ?_⟩
  rcases h.state with hest | ⟨hwait, -⟩ | hclosed
  · rw [hest] at hsend
    cases hsend
  · rw [hwait] at hsend
    cases hsend
  · exact hclosed

/-- Closing a broken connection does nothing. -/
theorem Broken.close (h : Broken e) : e.close = e := by
  have hnone : e.socket.close = e.socket := by
    rw [Tcp.Socket.close, h.state]
  rw [StreamEnd.close, hnone, h.state, h.noFin]
  show { e with finSent := false } = e
  rw [← h.noFin]

end Await

/-- One for a handler whose send failed. -/
def Reason.failed : Reason → Nat
  | .sendError => 1
  | _ => 0

def Phase.failed : Phase → Nat
  | .closing why | .done why => why.failed
  | _ => 0

/-- The bytes of the send that ended between these two awaits. -/
def completedBy : Phase → Phase → Nat
  | .sending data _, .receiving => data.length
  | _, _ => 0

/-- `n` bytes of what was written belong to sends that completed. -/
def Reason.Completed (e : StreamEnd) (n : Nat) : Reason → Prop
  | .sendError => n ≤ e.written.length
  | _ => n = e.written.length

def Phase.Completed (e : StreamEnd) (n : Nat) : Phase → Prop
  | .receiving => n = e.written.length
  | .sending _ offset => n + offset = e.written.length
  | .closing why | .done why => why.Completed e n

/-- What a step of a handler does. -/
structure Handles (phase : Phase) (stats : ServerStats) (e : StreamEnd)
    (r : Phase × ServerStats × StreamEnd) : Prop where
  holds : r.1.Holds r.2.2
  calls : Relation.ReflTransGen StreamEnd.Effect e r.2.2
  completed : ∀ n, phase.Completed e n → r.1.Completed r.2.2 (n + completedBy phase r.1)
  connections : r.2.1.connections = stats.connections
  received : ∃ n, r.2.2.read.length = e.read.length + n ∧
    r.2.1.bytesReceived = stats.bytesReceived + UInt64.ofNat n
  sent : r.2.1.bytesSent = stats.bytesSent + UInt64.ofNat (completedBy phase r.1)
  errors : ∃ n, r.1.failed = phase.failed + n ∧
    r.2.1.sendErrors = stats.sendErrors + UInt64.ofNat n

theorem add_ofNat_zero (x : UInt64) : x = x + UInt64.ofNat 0 := (UInt64.add_zero x).symm

section Steps

variable {e : StreamEnd} (cx : Waker) (stats : ServerStats)

/-- A step that counts nothing. -/
theorem handles_quiet {phase phase' : Phase} {e' : StreamEnd} (holds : phase'.Holds e')
    (calls : Relation.ReflTransGen StreamEnd.Effect e e')
    (completed : ∀ n, phase.Completed e n → phase'.Completed e' n) (read : e'.read = e.read)
    (by_zero : completedBy phase phase' = 0) (failed : phase'.failed = phase.failed) :
    Handles phase stats e (phase', stats, e') := by
  refine ⟨holds, calls, ?_, rfl, ⟨0, ?_, add_ofNat_zero _⟩, ?_, ⟨0, failed, add_ofNat_zero _⟩⟩
  · intro n hn
    show phase'.Completed e' (n + completedBy phase phase')
    rw [by_zero]
    exact completed n hn
  · show e'.read.length = e.read.length + 0
    rw [read]
    rfl
  · show stats.bytesSent = stats.bytesSent + UInt64.ofNat (completedBy phase phase')
    rw [by_zero]
    exact add_ofNat_zero _

theorem handles_receiving (h : Phase.receiving.Holds e) :
    Handles .receiving stats e (handleConnection cx .receiving stats e) := by
  obtain ⟨hopen, heq⟩ := h
  have hreads := TcpRecvFuture.poll_reads cx bufLen e.socket e.buffers
  have heffect := StreamEnd.effect_of_reads hreads
  rw [handleConnection, StreamEnd.recv]
  generalize TcpRecvFuture.poll cx bufLen e.socket e.buffers = got at hreads heffect
  cases hreads with
  | pending hstate =>
      rw [StreamEnd.afterRead_pending] at heffect ⊢
      exact handles_quiet stats ⟨opened_register hopen hstate, heq⟩ (.single heffect)
        (fun n hn => hn) rfl rfl rfl
  | error err hrecv hfin =>
      have hbroken := broken_of_not_receiving hopen hrecv hfin
      rw [StreamEnd.afterRead_error] at heffect ⊢
      show Handles _ _ _ (.closing .recvError, stats, e.close)
      rw [hbroken.close]
      exact handles_quiet stats ⟨hbroken, heq ▸ List.prefix_refl _⟩ (.single heffect)
        (fun n hn => hn) rfl rfl rfl
  | data hrx =>
      have hne : e.buffers.rxBuffer ≠ [] := hrx.resolve_left (by decide)
      rw [StreamEnd.afterRead_data _ hrx] at heffect ⊢
      cases htake : e.buffers.rxBuffer.take bufLen with
      | nil => exact absurd ((List.take_eq_nil_iff.mp htake).resolve_right hne) (by decide)
      | cons x xs =>
          rw [htake] at heffect
          refine ⟨⟨⟨hopen.noFin, hopen.state⟩, Nat.zero_lt_succ _, ?_⟩, (.single heffect),
            fun n hn => hn, rfl, ⟨(x :: xs).length, List.length_append, rfl⟩, add_ofNat_zero _,
            ⟨0, rfl, add_ofNat_zero _⟩⟩
          show e.written ++ (x :: xs) = e.read ++ (x :: xs)
          rw [heq]
  | eof hrx hfin =>
      rw [StreamEnd.afterRead_eof _ (by decide)] at heffect ⊢
      exact handles_quiet stats ⟨rfl, heq⟩ (.tail (.single heffect) (StreamEnd.close_effect _))
        (fun n hn => hn) rfl rfl rfl

/-- A send on a connection that takes data. -/
theorem send_open {data : List UInt8} {offset : Nat} (hopen : e.socket.state.maySend = true)
    (hlt : offset < data.length) :
    ∃ t, t.state = e.socket.state ∧ e.send cx data offset =
      (if offset + min (data.length - offset) e.buffers.window = data.length
          then .ready (.ok data.length) else .pending,
        offset + min (data.length - offset) e.buffers.window,
        { e with
          socket := t
          buffers := { e.buffers with
            txBuffer := e.buffers.txBuffer ++ (data.drop offset).take e.buffers.window }
          written := e.written ++ (data.drop offset).take e.buffers.window }) := by
  rw [StreamEnd.send, TcpSendFuture.poll, sendSlice_open e.buffers hopen, List.length_drop]
  cases hn : min (data.length - offset) e.buffers.window with
  | zero =>
      have hne : ¬ offset + 0 = data.length := by omega
      refine ⟨e.socket.registerSendWaker cx, rfl, ?_⟩
      simp only [if_neg hne, StreamEnd.afterWrite, List.drop_left]
      rfl
  | succ n =>
      by_cases hall : offset + (n + 1) = data.length
      · have hle : data.length ≤ offset + (n + 1) := Nat.le_of_eq hall.symm
        refine ⟨e.socket, rfl, ?_⟩
        simp only [if_pos hle, if_pos hall, StreamEnd.afterWrite, List.drop_left]
      · have hle : ¬ data.length ≤ offset + (n + 1) := by omega
        refine ⟨e.socket.registerSendWaker cx, rfl, ?_⟩
        simp only [if_neg hle, if_neg hall, StreamEnd.afterWrite, List.drop_left]

/-- A send on any other. -/
theorem send_closed {data : List UInt8} {offset : Nat} (hopen : e.socket.state.maySend = false) :
    e.send cx data offset = (.ready (.error .invalidState), offset, e) := by
  have hnot : ¬ e.socket.state.maySend = true := by
    rw [hopen]
    exact Bool.noConfusion
  rw [StreamEnd.send, TcpSendFuture.poll, Buffers.sendSlice, if_neg hnot]
  simp [StreamEnd.afterWrite]

theorem handles_sending {data : List UInt8} {offset : Nat}
    (h : (Phase.sending data offset).Holds e) :
    Handles (.sending data offset) stats e
      (handleConnection cx (.sending data offset) stats e) := by
  obtain ⟨hopen, hlt, heq⟩ := h
  have heffect := StreamEnd.send_effect cx data offset e
  cases hmay : e.socket.state.maySend with
  | false =>
      have hbroken := broken_of_not_maySend hopen hmay
      rw [handleConnection, send_closed cx hmay]
      show Handles _ _ _
        (.closing .sendError, { stats with sendErrors := stats.sendErrors + 1 }, e.close)
      rw [hbroken.close]
      refine ⟨⟨hbroken, ⟨_, heq⟩⟩, .refl, fun n hn => ?_, rfl,
        ⟨0, rfl, add_ofNat_zero _⟩, add_ofNat_zero _, ⟨1, rfl, rfl⟩⟩
      show n + 0 ≤ e.written.length
      have hcount : n + offset = e.written.length := hn
      omega
  | true =>
      obtain ⟨t, hstate, hsend⟩ := send_open (e := e) cx hmay hlt
      rw [handleConnection, hsend]
      rw [hsend] at heffect
      have hopen' : Opened { e with
          socket := t
          buffers := { e.buffers with
            txBuffer := e.buffers.txBuffer ++ (data.drop offset).take e.buffers.window }
          written := e.written ++ (data.drop offset).take e.buffers.window } := by
        refine ⟨hopen.noFin, ?_⟩
        show t.state = _ ∨ (t.state = _ ∧ _) ∨ t.state = _
        rw [hstate]
        exact hopen.state
      have hlen : ((data.drop offset).take e.buffers.window).length
          = min (data.length - offset) e.buffers.window := by
        rw [List.length_take, List.length_drop, Nat.min_comm]
      by_cases hall : offset + min (data.length - offset) e.buffers.window = data.length
      · rw [if_pos hall]
        have hrest : (data.drop offset).take e.buffers.window = data.drop offset := by
          refine List.take_of_length_le ?_
          rw [List.length_drop]
          omega
        refine ⟨⟨hopen', ?_⟩, (.single heffect), fun n hn => ?_, rfl,
          ⟨0, rfl, add_ofNat_zero _⟩, rfl, ⟨0, rfl, add_ofNat_zero _⟩⟩
        · show e.written ++ (data.drop offset).take e.buffers.window = e.read
          rw [hrest]
          exact heq
        · show n + data.length = (e.written ++ (data.drop offset).take e.buffers.window).length
          have hcount : n + offset = e.written.length := hn
          rw [List.length_append, hlen]
          omega
      · rw [if_neg hall]
        refine handles_quiet stats ⟨hopen', ?_, ?_⟩ (.single heffect) (fun n hn => ?_) rfl
          rfl rfl
        · show offset + min (data.length - offset) e.buffers.window < data.length
          omega
        · show e.written ++ (data.drop offset).take e.buffers.window ++
            data.drop (offset + min (data.length - offset) e.buffers.window) = e.read
          -- not everything fits, so the room decides
          have hroom : min (data.length - offset) e.buffers.window = e.buffers.window := by omega
          rw [hroom, ← List.drop_drop, List.append_assoc, List.take_append_drop]
          exact heq
        · show n + (offset + min (data.length - offset) e.buffers.window)
            = (e.written ++ (data.drop offset).take e.buffers.window).length
          have hcount : n + offset = e.written.length := hn
          rw [List.length_append, hlen]
          omega

/-- Waiting for the end of the connection. -/
theorem handles_closing {why : Reason} (h : (Phase.closing why).Holds e) :
    Handles (.closing why) stats e (handleConnection cx (.closing why) stats e) := by
  obtain ⟨res, t, hstate, hwait⟩ : ∃ res t, t.state = e.socket.state ∧
      e.waitClosed cx = (res, { e with socket := t }) := by
    refine ⟨_, _, ?_, rfl⟩
    rw [CloseFuture.poll]
    split <;> rfl
  have heffect : e.Effect { e with socket := t } := .register hstate
  have hholds : why.Holds { e with socket := t } := by
    cases why with
    | clientClosed => exact h
    | recvError => exact ⟨⟨h.1.noFin, hstate.trans h.1.state⟩, h.2⟩
    | sendError => exact ⟨⟨h.1.noFin, hstate.trans h.1.state⟩, h.2⟩
  have hcompleted : ∀ n, why.Completed e n → why.Completed { e with socket := t } n := by
    intro n hn
    cases why with
    | clientClosed => exact hn
    | recvError => exact hn
    | sendError => exact hn
  rw [handleConnection, hwait]
  cases res with
  | pending => exact handles_quiet stats hholds (.single heffect) hcompleted rfl rfl rfl
  | ready u => exact handles_quiet stats hholds (.single heffect) hcompleted rfl rfl rfl

/-- **ONE STEP OF A HANDLER** keeps its promise, and counts what it does. -/
theorem handles {phase : Phase} (h : phase.Holds e) :
    Handles phase stats e (handleConnection cx phase stats e) := by
  cases phase with
  | receiving => exact handles_receiving cx stats h
  | sending data offset => exact handles_sending cx stats h
  | closing why => exact handles_closing cx stats h
  | done why =>
      exact handles_quiet stats h .refl (fun n hn => hn) rfl rfl rfl

end Steps

/-! ## The network -/

/-- What the network leaves to a handler. -/
structure Leaves (e e' : StreamEnd) : Prop where
  written : e'.written = e.written
  read : e'.read = e.read
  ended : e'.ended = e.ended
  opened : Opened e → Opened e'
  broken : Broken e → Broken e'

section Leaves

variable {e e' : StreamEnd} (h : Leaves e e')
include h

theorem Leaves.reason_holds {why : Reason} (hp : why.Holds e) : why.Holds e' := by
  have hpre := hp.written_prefix
  rw [← h.written, ← h.read] at hpre
  cases why with
  | clientClosed => exact ⟨h.ended.trans hp.1, h.written.trans (hp.2.trans h.read.symm)⟩
  | recvError => exact ⟨h.broken hp.1, hpre⟩
  | sendError => exact ⟨h.broken hp.1, hpre⟩

theorem Leaves.holds {phase : Phase} (hp : phase.Holds e) : phase.Holds e' := by
  cases phase with
  | receiving => exact ⟨h.opened hp.1, h.written.trans (hp.2.trans h.read.symm)⟩
  | sending data offset =>
      refine ⟨h.opened hp.1, hp.2.1, ?_⟩
      rw [h.written, h.read]
      exact hp.2.2
  | closing why => exact h.reason_holds hp
  | done why => exact h.reason_holds hp

theorem Leaves.reason_completed {why : Reason} {n : Nat} (hp : why.Completed e n) :
    why.Completed e' n := by
  have hlen := congrArg List.length h.written
  cases why with
  | clientClosed => exact Eq.trans hp hlen.symm
  | recvError => exact Eq.trans hp hlen.symm
  | sendError => exact Nat.le_trans hp (Nat.le_of_eq hlen.symm)

theorem Leaves.completed {phase : Phase} {n : Nat} (hp : phase.Completed e n) :
    phase.Completed e' n := by
  have hlen := congrArg List.length h.written
  cases phase with
  | receiving => exact Eq.trans hp hlen.symm
  | sending data offset => exact Eq.trans hp hlen.symm
  | closing why => exact h.reason_completed hp
  | done why => exact h.reason_completed hp

end Leaves

/-- A handler that has not closed has no FIN that could be acknowledged, and takes
    the client's at most once. -/
theorem leaves_of_netMove {e e' : StreamEnd} (h : NetMove e e') : Leaves e e' := by
  refine ⟨h.written, h.read, h.ended, fun hopen => ⟨h.finSent.trans hopen.noFin, ?_⟩,
    fun hbroken => ⟨h.finSent.trans hbroken.noFin, ?_⟩⟩
  · rcases h.state with ⟨hst, hfin⟩ | ⟨hst, hfin⟩ | hst | hst
    · rw [hst, hfin]
      exact hopen.state
    · rcases hopen.state with hest | ⟨hwait, -⟩ | hclosed
      · rw [hest] at hst
        exact Or.inr (Or.inl ⟨(Option.some.inj hst).symm, hfin⟩)
      · rw [hwait] at hst
        cases hst
      · rw [hclosed] at hst
        cases hst
    · rcases hopen.state with hest | ⟨hwait, -⟩ | hclosed
      · rw [hest] at hst
        cases hst
      · rw [hwait] at hst
        cases hst
      · rw [hclosed] at hst
        cases hst
    · exact Or.inr (Or.inr hst)
  · rcases h.state with ⟨hst, -⟩ | ⟨hst, -⟩ | hst | hst
    · exact hst.trans hbroken.state
    · rw [hbroken.state] at hst
      cases hst
    · rw [hbroken.state] at hst
      cases hst
    · exact hst

/-! ## The server -/

/-- A connection that the server has accepted, with its handler; the bytes of the
    sends that completed are kept on record. -/
structure Conn where
  link : Link
  phase : Phase
  completed : Nat

/-- A connection as `accept` returns it. -/
def Conn.start (rxCapacity txCapacity : Side → Nat) : Conn :=
  ⟨Link.start rxCapacity txCapacity, .receiving, 0⟩

structure Server where
  stats : ServerStats
  /-- the accept loop is running -/
  listening : Bool
  conns : List Conn

/-- What happens on one connection. -/
inductive ConnOp where
  /-- a step of its handler -/
  | handle (cx : Waker)
  /-- a call of the client -/
  | client (op : EndOp)
  | net (x : Side) (op : NetOp)

inductive ServerOp where
  | accept (rxCapacity txCapacity : Side → Nat)
  /-- `accept` fails, and the loop goes on -/
  | acceptError
  | cancel
  | conn (i : Nat) (op : ConnOp)

/-- One connection, with the statistics that all of them share. -/
def Conn.step (c : Conn) (stats : ServerStats) : ConnOp → Except NotReady (Conn × ServerStats)
  | .handle cx =>
      let got := handleConnection cx c.phase stats (c.link .server)
      .ok (⟨Function.update c.link .server got.2.2, got.1, c.completed + completedBy c.phase got.1⟩,
        got.2.1)
  | .client op =>
      .ok ({ c with link := Function.update c.link .client ((c.link .client).call op) }, stats)
  | .net x op =>
      match c.link.net x op with
      | .ok link => .ok ({ c with link }, stats)
      | .error e => .error e

namespace Server

def new : Server := ⟨.new, true, []⟩

/-- `run`, its handlers, their clients and the network. -/
def step (s : Server) : ServerOp → Except NotReady Server
  | .accept rxCapacity txCapacity =>
      if s.listening = true then
        .ok { s with
          stats := { s.stats with connections := s.stats.connections + 1 }
          conns := s.conns ++ [Conn.start rxCapacity txCapacity] }
      else .error .mk
  | .acceptError => if s.listening = true then .ok s else .error .mk
  | .cancel => .ok { s with listening := false }
  | .conn i op =>
      match s.conns[i]? with
      | none => .error .mk
      | some c =>
          match c.step s.stats op with
          | .ok (c, stats) => .ok { s with stats := stats, conns := s.conns.set i c }
          | .error e => .error e

end Server

/-! ## Whole runs -/

/-- A connection whose handler keeps its promise. -/
structure Conn.Echoing (c : Conn) : Prop where
  flowing : c.link.Flowing
  holds : c.phase.Holds (c.link .server)
  completed : c.phase.Completed (c.link .server) c.completed

/-- What a step on a connection adds to the statistics. -/
structure Counts (c c' : Conn) (stats stats' : ServerStats) : Prop where
  connections : stats'.connections = stats.connections
  received : ∃ n, (c'.link .server).read.length = (c.link .server).read.length + n ∧
    stats'.bytesReceived = stats.bytesReceived + UInt64.ofNat n
  sent : ∃ n, c'.completed = c.completed + n ∧
    stats'.bytesSent = stats.bytesSent + UInt64.ofNat n
  errors : ∃ n, c'.phase.failed = c.phase.failed + n ∧
    stats'.sendErrors = stats.sendErrors + UInt64.ofNat n

/-- A step that counts nothing. -/
theorem counts_quiet {c c' : Conn} (stats : ServerStats)
    (hread : (c'.link .server).read = (c.link .server).read) (hphase : c'.phase = c.phase)
    (hcompleted : c'.completed = c.completed) : Counts c c' stats stats :=
  ⟨rfl, ⟨0, by rw [hread]; rfl, add_ofNat_zero _⟩, ⟨0, hcompleted, add_ofNat_zero _⟩,
    ⟨0, by rw [hphase]; rfl, add_ofNat_zero _⟩⟩

/-- **ONE STEP ON A CONNECTION**. -/
theorem Conn.echoing_step {c c' : Conn} {stats stats' : ServerStats} {op : ConnOp}
    (hc : c.Echoing) (h : c.step stats op = .ok (c', stats')) :
    c'.Echoing ∧ Counts c c' stats stats' := by
  cases op with
  | handle cx =>
      have hh := handles cx stats hc.holds
      simp only [step] at h
      generalize handleConnection cx c.phase stats (c.link .server) = got at hh h
      cases h
      refine ⟨⟨Link.flowing_calls hc.flowing hh.calls, ?_, ?_⟩, ⟨hh.connections, ?_, ⟨_, rfl, hh.sent⟩, hh.errors⟩⟩
      · show got.1.Holds (Function.update c.link .server got.2.2 .server)
        rw [Function.update_self]
        exact hh.holds
      · show got.1.Completed (Function.update c.link .server got.2.2 .server) _
        rw [Function.update_self]
        exact hh.completed _ hc.completed
      · show ∃ n, (Function.update c.link .server got.2.2 .server).read.length = _ ∧ _
        rw [Function.update_self]
        exact hh.received
  | client op =>
      cases h
      have hserver : Function.update c.link .client ((c.link .client).call op) .server
          = c.link .server := Function.update_of_ne Side.noConfusion _ _
      refine ⟨⟨Link.flowing_call hc.flowing ((c.link .client).call_effect op), ?_, ?_⟩,
        counts_quiet stats (congrArg StreamEnd.read hserver) rfl rfl⟩
      · exact hserver ▸ hc.holds
      · exact hserver ▸ hc.completed
  | net x op =>
      rw [step] at h
      split at h
      · rename_i link hnet
        cases h
        have hleaves := leaves_of_netMove (Link.net_moves hnet .server)
        exact ⟨⟨Link.flowing_net hc.flowing hnet, hleaves.holds hc.holds,
          hleaves.completed hc.completed⟩, counts_quiet stats hleaves.read rfl rfl⟩
      · cases h

/-- What the counters are of. -/
structure Server.Counted (s : Server) : Prop where
  connections : s.stats.connections = UInt64.ofNat s.conns.length
  received : s.stats.bytesReceived
    = UInt64.ofNat (s.conns.map fun c => (c.link .server).read.length).sum
  sent : s.stats.bytesSent = UInt64.ofNat (s.conns.map Conn.completed).sum
  errors : s.stats.sendErrors = UInt64.ofNat (s.conns.map fun c => c.phase.failed).sum

/-- Adding to one of several contributions, and to their counter. -/
theorem counted_set {f : Conn → Nat} {conns : List Conn} {i : Nat} {c c' : Conn} {x x' : UInt64}
    (hi : conns[i]? = some c) (hx : x = UInt64.ofNat (conns.map f).sum)
    (h : ∃ n, f c' = f c + n ∧ x' = x + UInt64.ofNat n) :
    x' = UInt64.ofNat ((conns.set i c').map f).sum := by
  obtain ⟨n, hn, hx'⟩ := h
  have hset := Tally.sum_map_set f (b := c') conns i hi
  have hsum : ((conns.set i c').map f).sum = (conns.map f).sum + n := by omega
  rw [hsum, UInt64.ofNat_add, ← hx]
  exact hx'

theorem Conn.echoing_start (rxCapacity txCapacity : Side → Nat) :
    (Conn.start rxCapacity txCapacity).Echoing :=
  ⟨Link.flowing_start _ _, ⟨⟨rfl, Or.inl rfl⟩, rfl⟩, rfl⟩

/-- **ONE STEP OF THE SERVER** keeps the promises of all handlers, and the
    statistics. -/
theorem Server.step_inv {s s' : Server} {op : ServerOp}
    (hs : (∀ c ∈ s.conns, c.Echoing) ∧ s.Counted) (h : s.step op = .ok s') :
    (∀ c ∈ s'.conns, c.Echoing) ∧ s'.Counted := by
  obtain ⟨hecho, hcount⟩ := hs
  cases op with
  | accept rxCapacity txCapacity =>
      obtain ⟨-, rfl⟩ := guard_eq_ok h
      refine ⟨?_, ?_⟩
      · intro c hc
        rcases List.mem_append.mp hc with hc | hc
        · exact hecho c hc
        · rw [List.mem_singleton.mp hc]
          exact Conn.echoing_start _ _
      · -- a connection on which nothing has happened adds nothing
        constructor
        · show s.stats.connections + 1 = _
          rw [hcount.connections, List.length_append, UInt64.ofNat_add]
          rfl
        · refine hcount.received.trans ?_
          rw [List.map_append, List.sum_append]
          rfl
        · refine hcount.sent.trans ?_
          rw [List.map_append, List.sum_append]
          rfl
        · refine hcount.errors.trans ?_
          rw [List.map_append, List.sum_append]
          rfl
  | acceptError =>
      obtain ⟨-, rfl⟩ := guard_eq_ok h
      exact ⟨hecho, hcount⟩
  | cancel =>
      cases h
      exact ⟨hecho, hcount.connections, hcount.received, hcount.sent, hcount.errors⟩
  | conn i op =>
      simp only [step] at h
      split at h
      · cases h
      · rename_i c hi
        split at h
        · rename_i c' stats' hstep
          cases h
          obtain ⟨hecho', hcounts⟩ := Conn.echoing_step (hecho c (List.mem_of_getElem? hi)) hstep
          refine ⟨?_, ?_⟩
          · intro d hd
            rcases List.mem_or_eq_of_mem_set hd with hd | rfl
            · exact hecho d hd
            · exact hecho'
          · constructor
            · show stats'.connections = _
              rw [hcounts.connections, hcount.connections, List.length_set]
            · exact counted_set hi hcount.received hcounts.received
            · exact counted_set hi hcount.sent hcounts.sent
            · exact counted_set hi hcount.errors hcounts.errors
        · cases h

theorem Server.inv_new : (∀ c ∈ Server.new.conns, c.Echoing) ∧ Server.new.Counted := by
  refine ⟨?_, rfl, rfl, rfl, rfl⟩
  intro c hc
  cases hc

/-- **WHAT A CLIENT READS IS ITS OWN ECHO**: in every run of the server, with any
    number of connections, a client has read a prefix of what it has written, and
    all of it once it is told that the stream has ended. -/
theorem echo_is_complete (ops : List ServerOp) (t : Server)
    (hrun : run Server.step .new ops = .ok t) (c : Conn) (hc : c ∈ t.conns) :
    (c.link .client).read <+: (c.link .client).written ∧
      ((c.link .client).ended = true → (c.link .client).read = (c.link .client).written) := by
  have hecho := (run_invariant (fun _ _ _ => Server.step_inv) Server.inv_new hrun).1 c hc
  have hforth := hecho.flowing .client
  have hback := hecho.flowing .server
  refine ⟨?_, fun hended => ?_⟩
  · exact hback.read_prefix.trans (hecho.holds.written_prefix.trans hforth.read_prefix)
  · -- the end of the stream is the server's FIN, which follows a complete echo
    obtain ⟨hfin, -⟩ := hback.ended hended
    obtain ⟨hended', heq⟩ := hecho.holds.of_finSent (hback.fin hfin).1
    calc (c.link .client).read = (c.link .server).written := hback.read_eq hended
      _ = (c.link .server).read := heq
      _ = (c.link .client).written := hforth.read_eq hended'

/-- Two bytes sent, echoed one at a time through a send buffer of one byte, and
    read back after the client has closed its half. -/
theorem two_bytes_echoed :
    ∃ ops t c, run Server.step .new ops = .ok t ∧ c ∈ t.conns ∧
      (c.link .client).ended = true ∧ (c.link .client).read = (c.link .client).written := by
  obtain ⟨t, hrun, c, hc, hended⟩ : ∃ t, run Server.step .new
      [.accept (fun _ => 8) (Function.update (fun _ => 8) .server 1),
        .conn 0 (.client (.send 1 [1, 2] 0)), .conn 0 (.client .close),
        .conn 0 (.net .client (.deliver 2)), .conn 0 (.net .client .fin),
        .conn 0 (.handle 2), .conn 0 (.handle 2), .conn 0 (.net .server (.deliver 1)),
        .conn 0 (.net .server (.acked 1)), .conn 0 (.handle 2), .conn 0 (.handle 2),
        .conn 0 (.net .server (.deliver 1)), .conn 0 (.net .server .fin),
        .conn 0 (.client (.recv 1 64)), .conn 0 (.client (.recv 1 64))] = .ok t ∧
      ∃ c, c ∈ t.conns ∧ (c.link .client).ended = true :=
    ⟨_, rfl, _, List.mem_singleton.mpr rfl, rfl⟩
  exact ⟨_, t, c, hrun, hc, hended, (echo_is_complete _ t hrun c hc).2 hended⟩

/-- The handlers whose clients closed have sent all that they read. -/
theorem Conn.Echoing.completed_eq {c : Conn} (hc : c.Echoing)
    (hdone : c.phase = .done .clientClosed) : c.completed = (c.link .server).read.length := by
  have hholds := hc.holds
  have hcompleted := hc.completed
  rw [hdone] at hholds hcompleted
  exact Eq.trans hcompleted (congrArg List.length hholds.2)

/-- **THE STATISTICS COUNT BYTES**: in every run the counters are, modulo 2^64, the
    number of connections, of bytes that handlers have read, of bytes in their
    completed sends, and of handlers whose send failed; a handler's completed
    sends are no more than what it has written.  When all handlers are done
    because their clients closed, as many bytes were sent as were received. -/
theorem stats_count_bytes (ops : List ServerOp) (t : Server)
    (hrun : run Server.step .new ops = .ok t) :
    t.stats =
      { connections := UInt64.ofNat t.conns.length
        bytesReceived := UInt64.ofNat (t.conns.map fun c => (c.link .server).read.length).sum
        bytesSent := UInt64.ofNat (t.conns.map Conn.completed).sum
        sendErrors := UInt64.ofNat (t.conns.map fun c => c.phase.failed).sum } ∧
      (∀ c ∈ t.conns, c.phase.Completed (c.link .server) c.completed) ∧
      ((∀ c ∈ t.conns, c.phase = .done .clientClosed) →
        t.stats.bytesSent = t.stats.bytesReceived) := by
  obtain ⟨hecho, hcount⟩ := run_invariant (fun _ _ _ => Server.step_inv) Server.inv_new hrun
  refine ⟨?_, fun c hc => (hecho c hc).completed, fun hdone => ?_⟩
  · rw [← hcount.connections, ← hcount.received, ← hcount.sent, ← hcount.errors]
  · have hsame : t.conns.map Conn.completed
        = t.conns.map fun c => (c.link .server).read.length :=
      List.map_congr_left fun c hc => (hecho c hc).completed_eq (hdone c hc)
    rw [hcount.sent, hcount.received, hsame]

/-- A byte received and sent, and a handler whose client has reset the connection
    in between. -/
theorem stats_after_reset :
    ∃ ops t, run Server.step .new ops = .ok t ∧
      t.stats = { connections := 2, bytesReceived := 2, bytesSent := 1, sendErrors := 1 } := by
  obtain ⟨t, hrun, hlen, hread, hsent, hfailed⟩ : ∃ t, run Server.step .new
      [.accept (fun _ => 8) (fun _ => 8), .accept (fun _ => 8) (fun _ => 8),
        .conn 0 (.client (.send 1 [1] 0)), .conn 1 (.client (.send 1 [2] 0)),
        .conn 0 (.net .client (.deliver 1)), .conn 1 (.net .client (.deliver 1)),
        .conn 0 (.handle 2), .conn 1 (.handle 3), .conn 1 (.net .server .reset),
        .conn 0 (.handle 2), .conn 1 (.handle 3)] = .ok t ∧
      t.conns.length = 2 ∧ (t.conns.map fun c => (c.link .server).read.length).sum = 2 ∧
      (t.conns.map Conn.completed).sum = 1 ∧ (t.conns.map fun c => c.phase.failed).sum = 1 :=
    ⟨_, rfl, rfl, rfl, rfl, rfl⟩
  refine ⟨_, t, hrun, ?_⟩
  rw [(stats_count_bytes _ t hrun).1, hlen, hread, hsent, hfailed]
  rfl

end AsyncEcho

end DpdkNet
