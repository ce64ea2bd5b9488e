import DpdkNet.Lib.Runs
import DpdkNet.Socket.Futures

/-! # Is a wakeup ever lost?

    A socket has one waker slot for its receive half and one for its send half,
    and registering a waker replaces what is there.  Nine futures share the two:
    `recv`, `read` and `accept` register in the receive slot, the others in the
    send slot.  As the methods of a `TcpStream` take a shared reference, several
    of them may wait on one socket at once, in different tasks.

    The machine below polls any futures in any tasks and lets the network do
    anything in between.  It keeps the list of the futures whose last poll
    returned `Pending` and whose task has not been woken since.  Each poll picks
    the right slot (`wakes_of_enables`): whatever lets a future continue wakes
    the slot it registers in.  What can go wrong is that another task's future
    takes the slot over. -/

namespace DpdkNet

open Tcp SocketSet Runs

/-! ## Slots -/

inductive Slot where
  | recv
  | send
  deriving DecidableEq, Repr

namespace Tcp.Socket

def slot (t : Socket) : Slot → Option Waker
  | .recv => t.recvWaker
  | .send => t.sendWaker

def register (t : Socket) (cx : Waker) : Slot → Socket
  | .recv => t.registerRecvWaker cx
  | .send => t.registerSendWaker cx

/-- The tasks that a change of state wakes. -/
def waiting (t : Socket) : List Waker := t.recvWaker.toList ++ t.sendWaker.toList

theorem slot_register_self (t : Socket) (cx : Waker) (sl : Slot) :
    (t.register cx sl).slot sl = some cx := by
  cases sl <;> rfl

theorem slot_register_ne (t : Socket) (cx : Waker) {sl sl' : Slot} (h : sl' ≠ sl) :
    (t.register cx sl).slot sl' = t.slot sl' := by
  cases sl <;> cases sl' <;> first | exact absurd rfl h | rfl

theorem state_register (t : Socket) (cx : Waker) (sl : Slot) :
    (t.register cx sl).state = t.state := by
  cases sl <;> rfl

theorem mem_waiting_of_slot {t : Socket} {cx : Waker} {sl : Slot} (h : t.slot sl = some cx) :
    cx ∈ t.waiting := by
  rw [waiting, List.mem_append]
  cases sl with
  | recv => exact Or.inl (Option.mem_toList.mpr h)
  | send => exact Or.inr (Option.mem_toList.mpr h)

end Tcp.Socket

/-! ## Futures -/

/-- A future of a stream, with what it has to remember between polls. -/
inductive StreamFuture where
  | send (data : List UInt8) (offset : Nat)
  | recv (n : Nat)
  | waitConnected
  | close
  | read (n : Nat)
  | write (buf : List UInt8)
  | flush
  | shutdown
  deriving DecidableEq, Repr

namespace StreamFuture

/-- Is it ready, and what the poll leaves of it, of the socket and of the
    buffers. -/
def poll (cx : Waker) (t : Tcp.Socket) (b : Buffers) :
    StreamFuture → Bool × StreamFuture × Tcp.Socket × Buffers
  | .send data offset =>
      let r := TcpSendFuture.poll cx data offset t b
      (r.1.isReady, .send data r.2.1, r.2.2)
  | .recv n =>
      let r := TcpRecvFuture.poll cx n t b
      (r.1.isReady, .recv n, r.2)
  | .waitConnected =>
      let r := WaitConnectedFuture.poll cx t
      (r.1.isReady, .waitConnected, r.2, b)
  | .close =>
      let r := CloseFuture.poll cx t
      (r.1.isReady, .close, r.2, b)
  | .read n =>
      let r := TokioTcpStream.pollRead cx n t b
      (r.1.isReady, .read n, r.2)
  | .write buf =>
      let r := TokioTcpStream.pollWrite cx buf t b
      (r.1.isReady, .write buf, r.2)
  | .flush =>
      let r := TokioTcpStream.pollFlush cx t b
      (r.1.isReady, .flush, r.2, b)
  | .shutdown =>
      let r := TokioTcpStream.pollShutdown cx t
      (r.1.isReady, .shutdown, r.2, b)

/-- The slot a future registers in. -/
def slot : StreamFuture → Slot
  | .recv _ | .read _ => .recv
  | _ => .send

/-- The future registers its waker and wakes nobody: it has to wait, and it is
    not a shutdown that closes the connection first. -/
def registers (t : Tcp.Socket) (b : Buffers) : StreamFuture → Prop
  | .send data offset =>
      t.state.maySend = true ∧ (data.drop offset = [] ∨ b.window < (data.drop offset).length)
  | .recv n | .read n => t.state.receiving = true ∧ b.rxBuffer = [] ∧ n ≠ 0
  | .waitConnected => t.state ≠ .established ∧ t.state.terminal = false
  | .close => t.state.terminal = false
  | .write buf => t.state.maySend = true ∧ buf ≠ [] ∧ b.window = 0
  | .flush => b.sendQueue ≠ 0
  | .shutdown =>
      t.state = .finWait1 ∨ t.state = .finWait2 ∨ t.state = .closing ∨ t.state = .lastAck

end StreamFuture

theorem Poll.isReady_eq_false {α : Type} (p : Poll α) : p.isReady = false ↔ p = .pending := by
  cases p with
  | ready a => simp [isReady]
  | pending => simp [isReady]

namespace StreamFuture

variable (cx : Waker) (t : Tcp.Socket) (b : Buffers)

/-- Except for a shutdown, registering is all that a poll can do to a socket. -/
theorem registers_iff {f : StreamFuture} (hf : f ≠ .shutdown) :
    f.registers t b ↔ (f.poll cx t b).1 = false := by
  cases f with
  | shutdown => exact absurd rfl hf
  | send data offset =>
      simp only [registers, poll, Poll.isReady_eq_false, TcpSendFuture.pending_iff]
  | recv n => simp only [registers, poll, Poll.isReady_eq_false, TcpRecvFuture.pending_iff]
  | waitConnected =>
      simp only [registers, poll, Poll.isReady_eq_false, WaitConnectedFuture.pending_iff]
  | close => simp only [registers, poll, Poll.isReady_eq_false, CloseFuture.pending_iff]
  | read n =>
      simp only [registers, poll, Poll.isReady_eq_false, TokioTcpStream.pollRead_pending_iff]
  | write buf =>
      simp only [registers, poll, Poll.isReady_eq_false, TokioTcpStream.pollWrite_pending_iff]
  | flush =>
      simp only [registers, poll, Poll.isReady_eq_false, TokioTcpStream.pollFlush_pending_iff]

theorem socket_poll {f : StreamFuture} (hf : f ≠ .shutdown) :
    (f.poll cx t b).2.2.1 = if (f.poll cx t b).1 then t else t.register cx f.slot := by
  cases f with
  | shutdown => exact absurd rfl hf
  | send data offset =>
      rcases hs : b.sendSlice t.state (data.drop offset) with ⟨_ | n, b'⟩
      · simp only [poll, TcpSendFuture.poll, hs]
        rfl
      · cases n with
        | zero =>
            simp only [poll, TcpSendFuture.poll, hs]
            rfl
        | succ n =>
            by_cases hall : data.length ≤ offset + (n + 1)
            · simp only [poll, TcpSendFuture.poll, hs, if_pos hall]
              rfl
            · simp only [poll, TcpSendFuture.poll, hs, if_neg hall]
              rfl
  | recv n =>
      rcases hr : b.recvSlice t.state n with ⟨(_ | _) | (_ | _), b'⟩
      · simp only [poll, TcpRecvFuture.poll, hr]
        rfl
      · simp only [poll, TcpRecvFuture.poll, hr]
        rfl
      · by_cases hn : n = 0
        · simp only [poll, TcpRecvFuture.poll, hr, if_pos hn]
          rfl
        · simp only [poll, TcpRecvFuture.poll, hr, if_neg hn]
          rfl
      · simp only [poll, TcpRecvFuture.poll, hr]
        rfl
  | waitConnected =>
      cases hst : t.state <;> simp only [poll, WaitConnectedFuture.poll, hst] <;> rfl
  | close => cases hst : t.state <;> simp only [poll, CloseFuture.poll, hst] <;> rfl
  | read n =>
      by_cases hn : n = 0
      · simp only [poll, TokioTcpStream.pollRead, if_pos hn]
        rfl
      · rcases hr : b.recvSlice t.state n with ⟨(_ | _) | (_ | _), b'⟩ <;>
          simp only [poll, TokioTcpStream.pollRead, if_neg hn, hr] <;> rfl
  | write buf =>
      rcases hs : b.sendSlice t.state buf with ⟨_ | n, b'⟩
      · simp only [poll, TokioTcpStream.pollWrite, hs]
        rfl
      · cases n with
        | zero =>
            by_cases hnil : buf = []
            · simp only [poll, TokioTcpStream.pollWrite, hs, if_pos hnil]
              rfl
            · simp only [poll, TokioTcpStream.pollWrite, hs, if_neg hnil]
              rfl
        | succ n =>
            simp only [poll, TokioTcpStream.pollWrite, hs]
            rfl
  | flush =>
      by_cases hq : b.sendQueue = 0
      · simp only [poll, TokioTcpStream.pollFlush, if_pos hq]
        rfl
      · simp only [poll, TokioTcpStream.pollFlush, if_neg hq]
        rfl

/-- **WHAT A POLL DOES TO THE SLOTS**: it leaves the socket alone, or it registers
    in the future's slot and goes to sleep, or it closes the connection, which
    wakes both slots, and may register after that. -/
theorem poll_cases (f : StreamFuture) :
    (¬ f.registers t b ∧ (f.poll cx t b).1 = true ∧ (f.poll cx t b).2.2.1 = t) ∨
    (f.registers t b ∧ (f.poll cx t b).1 = false ∧
      (f.poll cx t b).2.2.1 = t.register cx f.slot) ∨
    (¬ f.registers t b ∧ (f.poll cx t b).2.2.1.state ≠ t.state ∧
      ((f.poll cx t b).1 = false → (f.poll cx t b).2.2.1.slot f.slot = some cx)) := by
  by_cases hf : f = .shutdown
  · subst hf
    simp only [poll, TokioTcpStream.pollShutdown, registers, slot, Socket.register]
    cases hst : t.state <;> simp [hst, Socket.close, Socket.setState, Poll.isReady, Socket.slot,
      Socket.registerSendWaker]
  · have hreg := registers_iff cx t b hf
    have hsock := socket_poll cx t b hf
    cases hready : (f.poll cx t b).1 with
    | true =>
        rw [hready] at hreg hsock
        exact Or.inl ⟨fun h => Bool.noConfusion (hreg.mp h), rfl, hsock⟩
    | false =>
        rw [hready] at hreg hsock
        exact Or.inr (Or.inl ⟨hreg.mpr rfl, rfl, hsock⟩)

/-- A future stays what it is. -/
theorem slot_poll (f : StreamFuture) : (f.poll cx t b).2.1.slot = f.slot := by
  cases f <;> rfl

end StreamFuture

/-! ## Tasks -/

inductive Future where
  | stream (h : SocketHandle) (f : StreamFuture)
  | accept (l : TcpListener)

namespace Future

/-- The slots that the future waits in. -/
def watches : Future → SocketHandle → Slot → Prop
  | .stream h f => fun k sl => k = h ∧ sl = f.slot
  | .accept l => fun k sl => k ∈ l.handles ∧ sl = .recv

end Future

/-- A future whose last poll, by `task`, returned `Pending`, and whose task has
    not been woken since. -/
structure Wait where
  id : Nat
  task : Waker
  future : Future

/-- The sockets with their buffers, and who waits. -/
structure Tasks where
  reactor : ReactorInner
  buffers : SocketHandle → Buffers
  waits : List Wait

/-- What the network and the timers can do to a socket. -/
inductive NetEvent where
  /-- the state changes, possibly with the peer's FIN -/
  | state (h : SocketHandle) (st : State) (fin : Bool)
  | data (h : SocketHandle) (bytes : List UInt8)
  /-- `n` bytes of the send buffer are acknowledged -/
  | space (h : SocketHandle) (n : Nat)

inductive TaskOp where
  | poll (id : Nat) (task : Waker) (f : Future)
  /-- The future is dropped. -/
  | cancel (id : Nat)
  | net (e : NetEvent)
  /-- `TcpStream::close` and `TcpStream::abort`, called by anyone. -/
  | close (h : SocketHandle)
  | abort (h : SocketHandle)
  | connect (verdict : Except ConnectError Unit)

namespace Tasks

/-- The tasks that an event wakes. -/
def wakes (s : Tasks) : NetEvent → List Waker
  | .state h _ _ =>
      match s.reactor.sockets.getTcp h with
      | .ok t => t.waiting
      | .error _ => []
  | .data h _ =>
      match s.reactor.sockets.getTcp h with
      | .ok t => t.recvWaker.toList
      | .error _ => []
  | .space h _ =>
      match s.reactor.sockets.getTcp h with
      | .ok t => t.sendWaker.toList
      | .error _ => []

/-- Write to a socket and its buffers. -/
def setSocket (s : Tasks) (h : SocketHandle) (t : Tcp.Socket) (b : Buffers) : Tasks :=
  { s with
    reactor := { s.reactor with sockets := s.reactor.sockets.setTcp h t }
    buffers := Function.update s.buffers h b }

/-- The sockets after an event; waking a slot empties it. -/
def occur (s : Tasks) : NetEvent → Tasks
  | .state h st fin =>
      match s.reactor.sockets.getTcp h with
      | .ok t =>
          s.setSocket h (t.setState st)
            { s.buffers h with rxFinReceived := (s.buffers h).rxFinReceived || fin }
      | .error _ => s
  | .data h bytes =>
      match s.reactor.sockets.getTcp h with
      | .ok t =>
          s.setSocket h { t with recvWaker := none }
            { s.buffers h with rxBuffer := (s.buffers h).rxBuffer ++ bytes }
      | .error _ => s
  | .space h n =>
      match s.reactor.sockets.getTcp h with
      | .ok t =>
          s.setSocket h { t with sendWaker := none }
            { s.buffers h with txBuffer := (s.buffers h).txBuffer.drop n }
      | .error _ => s

/-- The futures of the woken tasks wait no more. -/
def wake (s : Tasks) (woken : List Waker) : Tasks :=
  { s with waits := s.waits.filter (·.task ∉ woken) }

def forget (s : Tasks) (id : Nat) : Tasks := { s with waits := s.waits.filter (·.id ≠ id) }

def wait (s : Tasks) (w : Wait) : Tasks := { s with waits := s.waits ++ [w] }

def step (A : Slots) (s : Tasks) : TaskOp → Except SocketPanic Tasks
  | .poll id task (.stream h f) =>
      match s.reactor.sockets.getTcp h with
      | .error p => .error p
      | .ok t =>
          let r := f.poll task t (s.buffers h)
          let woken := if r.2.2.1.state = t.state then [] else t.waiting
          let s := ((s.forget id).wake woken).setSocket h r.2.2.1 r.2.2.2
          .ok (if r.1 then s else s.wait ⟨id, task, .stream h r.2.1⟩)
  | .poll id task (.accept l) =>
      match AcceptFuture.poll A task l s.reactor with
      | .error p => .error p
      | .ok (.pending, l, reactor) =>
          .ok ({ s.forget id with reactor }.wait ⟨id, task, .accept l⟩)
      | .ok (.ready _, _, reactor) => .ok { s.forget id with reactor }
  | .cancel id => .ok (s.forget id)
  | .net e => .ok ((s.wake (s.wakes e)).occur e)
  | .close h =>
      match s.reactor.sockets.getTcp h with
      | .error p => .error p
      | .ok t =>
          let woken := if t.close.state = t.state then [] else t.waiting
          .ok ((s.wake woken).setSocket h t.close (s.buffers h))
  | .abort h =>
      match s.reactor.sockets.getTcp h with
      | .error p => .error p
      | .ok t => .ok ((s.wake t.waiting).setSocket h t.abort (s.buffers h))
  | .connect verdict => .ok { s with reactor := (TcpStream.connect A verdict s.reactor).2 }

/-! ## What is asked for -/

/-- The waker in a slot. -/
def slot (s : Tasks) (h : SocketHandle) (sl : Slot) : Option Waker :=
  match s.reactor.sockets.getTcp h with
  | .ok t => t.slot sl
  | .error _ => none

/-- Polling the future again would get it no further. -/
def Stuck (A : Slots) (s : Tasks) (cx : Waker) : Future → Prop
  | .stream h f => ∃ t, s.reactor.sockets.getTcp h = .ok t ∧
      (f.poll cx t (s.buffers h)).1 = false ∧ (f.poll cx t (s.buffers h)).2.1 = f
  | .accept l => ∃ l' r', AcceptFuture.poll A cx l s.reactor = .ok (.pending, l', r')

/-- The event lets a future that is stuck continue. -/
def Enables (A : Slots) (s : Tasks) (e : NetEvent) (w : Wait) : Prop :=
  s.Stuck A w.task w.future ∧ ¬ (s.occur e).Stuck A w.task w.future

/-- Everybody who waits has a waker in the slots of the future, and whatever
    lets the future continue wakes the task. -/
def Served (A : Slots) (s : Tasks) : Prop :=
  ∀ w ∈ s.waits, (∀ h sl, w.future.watches h sl → s.slot h sl = some w.task) ∧
    ∀ e, s.Enables A e w → w.task ∈ s.wakes e

/-- An accept future has to wait: none of its sockets is Established, and not
    all are dead. -/
def acceptWaits (ss : SocketSet) (hs : List SocketHandle) : Prop :=
  (∀ h ∈ hs, ∃ t, ss.getTcp h = .ok t ∧ t.state ≠ .established) ∧
    ∃ h ∈ hs, ∃ t, ss.getTcp h = .ok t ∧ t.state.terminal = false

/-- The future registers without waking anybody. -/
def Registers (s : Tasks) : Future → Prop
  | .stream h f => ∃ t, s.reactor.sockets.getTcp h = .ok t ∧ f.registers t (s.buffers h)
  | .accept l => acceptWaits s.reactor.sockets l.handles

/-- The condition: a future that registers finds no other task's future waiting
    in its slots. -/
def NoTakeover (s : Tasks) : TaskOp → Prop
  | .poll id task f => s.Registers f →
      ∀ w ∈ s.waits, w.id ≠ id → (∃ h sl, f.watches h sl ∧ w.future.watches h sl) → w.task = task
  | _ => True

end Tasks

/-! ## What a stuck future depends on -/

theorem Tcp.Socket.state_close_congr {t t' : Socket} (h : t'.state = t.state) :
    t'.close.state = t.close.state := by
  cases hst : t.state <;> rw [hst] at h <;> simp [close, h, hst, setState]

theorem Tcp.Socket.close_of_same_state {t : Socket} (h : t.close.state = t.state) :
    t.close = t := by
  cases hst : t.state <;> simp [close, hst, setState] at h ⊢

namespace StreamFuture

/-- A stuck future, read off the socket: a send is stuck when there is no room at
    all, the others when they have to wait. -/
theorem stuck_iff (cx : Waker) (t : Tcp.Socket) (b : Buffers) (f : StreamFuture) :
    ((f.poll cx t b).1 = false ∧ (f.poll cx t b).2.1 = f) ↔
      match f with
      | .send data offset => t.state.maySend = true ∧ (data.drop offset = [] ∨ b.window = 0)
      | .shutdown => t.close.state.terminal = false
      | f => f.registers t b := by
  cases f with
  | send data offset =>
      by_cases hsend : t.state.maySend = true
      · have hnil : data.drop offset = [] ↔ (data.drop offset).length = 0 :=
          List.length_eq_zero_iff.symm
        simp only [poll, TcpSendFuture.poll, Buffers.sendSlice, hsend, if_true, true_and]
        cases hsent : min (data.drop offset).length b.window with
        | zero =>
            refine iff_of_true ⟨rfl, rfl⟩ ?_
            rw [hnil]
            omega
        | succ n =>
            refine iff_of_false ?_ ?_
            · by_cases hall : data.length ≤ offset + (n + 1)
              · simp only [if_pos hall]
                rintro ⟨h, -⟩
                cases h
              · simp only [if_neg hall]
                rintro ⟨-, h⟩
                injection h with _ h
                omega
            · rw [hnil]
              omega
      · simp [poll, TcpSendFuture.poll, Buffers.sendSlice, hsend, Poll.isReady]
  | shutdown =>
      simp only [poll, Poll.isReady_eq_false, TokioTcpStream.pollShutdown_pending_iff, and_true]
  | recv n => exact (and_iff_left rfl).trans (registers_iff cx t b (by simp)).symm
  | waitConnected => exact (and_iff_left rfl).trans (registers_iff cx t b (by simp)).symm
  | close => exact (and_iff_left rfl).trans (registers_iff cx t b (by simp)).symm
  | read n => exact (and_iff_left rfl).trans (registers_iff cx t b (by simp)).symm
  | write buf => exact (and_iff_left rfl).trans (registers_iff cx t b (by simp)).symm
  | flush => exact (and_iff_left rfl).trans (registers_iff cx t b (by simp)).symm

/-- The send side does not look at what is received. -/
theorem stuck_of_data {cx : Waker} {t t' : Tcp.Socket} {b b' : Buffers} {f : StreamFuture}
    (hf : f.slot = .send) (hst : t'.state = t.state) (htx : b'.txBuffer = b.txBuffer)
    (hcap : b'.txCapacity = b.txCapacity)
    (h : (f.poll cx t b).1 = false ∧ (f.poll cx t b).2.1 = f) :
    (f.poll cx t' b').1 = false ∧ (f.poll cx t' b').2.1 = f := by
  have hwin : b'.window = b.window := by rw [Buffers.window, Buffers.window, htx, hcap]
  have hq : b'.sendQueue = b.sendQueue := by rw [Buffers.sendQueue, Buffers.sendQueue, htx]
  rw [stuck_iff] at h ⊢
  cases f with
  | recv n => cases hf
  | read n => cases hf
  | shutdown =>
      simp only [Tcp.Socket.state_close_congr hst]
      exact h
  | _ =>
      simp only [registers, hst, hwin, hq] at h ⊢
      exact h

/-- The receive side does not look at what is sent. -/
theorem stuck_of_space {cx : Waker} {t t' : Tcp.Socket} {b b' : Buffers} {f : StreamFuture}
    (hf : f.slot = .recv) (hst : t'.state = t.state) (hrx : b'.rxBuffer = b.rxBuffer)
    (h : (f.poll cx t b).1 = false ∧ (f.poll cx t b).2.1 = f) :
    (f.poll cx t' b').1 = false ∧ (f.poll cx t' b').2.1 = f := by
  rw [stuck_iff] at h ⊢
  cases f with
  | recv n =>
      simp only [registers, hst, hrx] at h ⊢
      exact h
  | read n =>
      simp only [registers, hst, hrx] at h ⊢
      exact h
  | _ => cases hf

end StreamFuture

namespace AcceptFuture

theorem findEstablished_eq_none (ss : SocketSet) :
    ∀ (hs : List SocketHandle) (i : Nat), findEstablished ss hs i = .ok none ↔
      ∀ h ∈ hs, ∃ t, ss.getTcp h = .ok t ∧ t.state ≠ .established := by
  intro hs
  induction hs with
  | nil => intro i; exact iff_of_true rfl (List.forall_mem_nil _)
  | cons h hs ih =>
      intro i
      rw [List.forall_mem_cons]
      cases hg : ss.getTcp h with
      | error p => simp [findEstablished, hg]
      | ok t =>
          by_cases he : t.state = .established
          · simp [findEstablished, hg, he]
          · simp [findEstablished, hg, he, ih (i + 1)]

/-- Handles whose sockets have been looked at are handles of TCP sockets. -/
theorem allTcp_of_findEstablished {ss : SocketSet} {hs : List SocketHandle}
    (h : ∀ h ∈ hs, ∃ t, ss.getTcp h = .ok t ∧ t.state ≠ .established) : ss.AllTcp hs := by
  intro k hk
  obtain ⟨t, ht, -⟩ := h k hk
  exact ⟨_, kind_of_getTcp ht⟩

/-- The accept future waits exactly if no socket is Established and not all are
    dead. -/
theorem pending_iff (A : Slots) (cx : Waker) (l : TcpListener) (r : ReactorInner) :
    (∃ l' r', poll A cx l r = .ok (.pending, l', r')) ↔
      Tasks.acceptWaits r.sockets l.handles := by
  constructor
  · rintro ⟨l', r', hpoll⟩
    rw [poll] at hpoll
    split at hpoll
    · cases hpoll
    · split at hpoll
      · cases hpoll
      · split at hpoll
        · cases hpoll
        · cases hpoll
    · rename_i hfind
      have hlook := (findEstablished_eq_none r.sockets l.handles 0).mp hfind
      refine ⟨hlook, ?_⟩
      obtain ⟨b, hb, hdead⟩ := allDead_ok r.sockets l.handles (allTcp_of_findEstablished hlook)
      by_contra hno
      have hb' : b = true := by
        rw [hdead]
        intro h hm
        obtain ⟨t, ht, -⟩ := hlook h hm
        have hterm : t.state.terminal = true := by
          by_contra hterm
          exact hno ⟨h, hm, t, ht, Bool.eq_false_of_not_eq_true hterm⟩
        rw [kind_of_getTcp ht]
        cases hst : t.state <;> rw [hst] at hterm <;> simp [State.terminal] at hterm ⊢
      rw [hb, hb'] at hpoll
      cases hpoll
  · rintro ⟨hlook, h₀, hm₀, t₀, ht₀, hterm₀⟩
    have hall := allTcp_of_findEstablished hlook
    obtain ⟨b, hb, hdead⟩ := allDead_ok r.sockets l.handles hall
    have hb' : b = false := by
      rw [← Bool.not_eq_true, hdead]
      intro h
      have hkind := h h₀ hm₀
      rw [kind_of_getTcp ht₀] at hkind
      rcases hkind with hkind | hkind
      · injection hkind with hkind
        injection hkind with hkind
        rw [hkind] at hterm₀
        cases hterm₀
      · injection hkind with hkind
        injection hkind with hkind
        rw [hkind] at hterm₀
        cases hterm₀
    obtain ⟨ss', hreg, -⟩ := registerAll_ok cx l.handles r.sockets hall
    refine ⟨l, { r with sockets := ss' }, ?_⟩
    simp only [poll, (findEstablished_eq_none r.sockets l.handles 0).mpr hlook, hb, hb', hreg]

end AcceptFuture

/-! ## Reading the sockets -/

theorem SocketSet.getTcp_setTcp (ss : SocketSet) (h : SocketHandle) (t : Tcp.Socket) :
    (ss.setTcp h t).getTcp h = .ok t := by
  rw [getTcp, setTcp, AList.lookup_insert]

theorem SocketSet.getTcp_setTcp_ne (ss : SocketSet) {h k : SocketHandle} (t : Tcp.Socket)
    (hk : k ≠ h) : (ss.setTcp h t).getTcp k = ss.getTcp k := by
  rw [getTcp, getTcp, setTcp, AList.lookup_insert_ne hk]

theorem SocketSet.getTcp_add (A : Slots) {ss : SocketSet} {k : SocketHandle} {t : Tcp.Socket}
    (s : Socket) (hk : ss.getTcp k = .ok t) : (ss.add A s).2.getTcp k = .ok t := by
  have hlive : k ∈ ss.live.keys := kind_isSome.mp (by rw [kind_of_getTcp hk]; rfl)
  have hne : k ≠ A.pick ss.added ss.live := by
    rintro rfl
    exact fresh_notMem A ss s hlive
  have hlook : (ss.add A s).2.live.lookup k = ss.live.lookup k := AList.lookup_insert_ne hne
  rw [← hk, getTcp, getTcp, hlook]

/-- Registering on the sockets of a listener replaces their receive wakers and
    nothing else. -/
theorem AcceptFuture.registerAll_spec (cx : Waker) :
    ∀ (hs : List SocketHandle) (ss ss' : SocketSet), registerAll cx hs ss = .ok ss' →
      ∀ k, (k ∈ hs → ∃ t, ss.getTcp k = .ok t ∧ ss'.getTcp k = .ok (t.register cx .recv)) ∧
        (k ∉ hs → ss'.getTcp k = ss.getTcp k) := by
  intro hs
  induction hs with
  | nil =>
      intro ss ss' h k
      cases h
      exact ⟨fun hm => absurd hm List.not_mem_nil, fun _ => rfl⟩
  | cons h hs ih =>
      intro ss ss' hreg k
      cases hg : ss.getTcp h with
      | error p =>
          simp only [registerAll, hg] at hreg
          cases hreg
      | ok t =>
          simp only [registerAll, hg] at hreg
          obtain ⟨hin, hout⟩ := ih _ _ hreg k
          by_cases hk : k = h
          · subst hk
            refine ⟨fun _ => ⟨t, hg, ?_⟩, fun hno => absurd List.mem_cons_self hno⟩
            by_cases hm : k ∈ hs
            · obtain ⟨t', ht', hafter⟩ := hin hm
              rw [SocketSet.getTcp_setTcp] at ht'
              cases ht'
              rw [hafter]
              rfl
            · rw [hout hm, SocketSet.getTcp_setTcp]
              rfl
          · rw [SocketSet.getTcp_setTcp_ne _ _ hk] at hin hout
            refine ⟨fun hm => hin ((List.mem_cons.mp hm).resolve_left hk), fun hno => ?_⟩
            exact hout (fun hm => hno (List.mem_cons_of_mem _ hm))

namespace Tasks

variable {A : Slots} {s s' : Tasks}

theorem slot_of_getTcp {h : SocketHandle} {t : Tcp.Socket}
    (ht : s.reactor.sockets.getTcp h = .ok t) (sl : Slot) : s.slot h sl = t.slot sl := by
  rw [slot, ht]

/-- A registered waker is in a socket. -/
theorem getTcp_of_slot {h : SocketHandle} {sl : Slot} {cx : Waker}
    (h' : s.slot h sl = some cx) :
    ∃ t, s.reactor.sockets.getTcp h = .ok t ∧ t.slot sl = some cx := by
  rw [slot] at h'
  split at h'
  · exact ⟨_, ‹_›, h'⟩
  · cases h'

theorem getTcp_setSocket (s : Tasks) (h : SocketHandle) (t : Tcp.Socket) (b : Buffers) :
    (s.setSocket h t b).reactor.sockets.getTcp h = .ok t := SocketSet.getTcp_setTcp _ _ _

theorem getTcp_setSocket_ne (s : Tasks) {h k : SocketHandle} (t : Tcp.Socket) (b : Buffers)
    (hk : k ≠ h) :
    (s.setSocket h t b).reactor.sockets.getTcp k = s.reactor.sockets.getTcp k :=
  SocketSet.getTcp_setTcp_ne _ _ hk

theorem slot_setSocket (s : Tasks) (h : SocketHandle) (t : Tcp.Socket) (b : Buffers)
    (sl : Slot) : (s.setSocket h t b).slot h sl = t.slot sl :=
  slot_of_getTcp (getTcp_setSocket s h t b) sl

theorem slot_setSocket_ne (s : Tasks) {h k : SocketHandle} (t : Tcp.Socket) (b : Buffers)
    (hk : k ≠ h) (sl : Slot) : (s.setSocket h t b).slot k sl = s.slot k sl := by
  rw [slot, slot, getTcp_setSocket_ne s t b hk]

theorem slot_wait (s : Tasks) (w : Wait) (h : SocketHandle) (sl : Slot) :
    (s.wait w).slot h sl = s.slot h sl := rfl

/-! ## The right slot -/

/-- What an event does to the sockets: nothing, or it writes to the one it is
    about. -/
theorem occur_cases (s : Tasks) (e : NetEvent) :
    s.occur e = s ∨ ∃ h t, s.reactor.sockets.getTcp h = .ok t ∧
      ((∃ st fin, e = .state h st fin ∧ s.wakes e = t.waiting ∧
        s.occur e = s.setSocket h (t.setState st)
          { s.buffers h with rxFinReceived := (s.buffers h).rxFinReceived || fin }) ∨
      (∃ bytes, e = .data h bytes ∧ s.wakes e = t.recvWaker.toList ∧
        s.occur e = s.setSocket h { t with recvWaker := none }
          { s.buffers h with rxBuffer := (s.buffers h).rxBuffer ++ bytes }) ∨
      (∃ n, e = .space h n ∧ s.wakes e = t.sendWaker.toList ∧
        s.occur e = s.setSocket h { t with sendWaker := none }
          { s.buffers h with txBuffer := (s.buffers h).txBuffer.drop n })) := by
  cases e with
  | state h st fin =>
      cases ht : s.reactor.sockets.getTcp h with
      | error p => exact Or.inl (by simp only [occur, ht])
      | ok t =>
          exact Or.inr ⟨h, t, ht, Or.inl ⟨st, fin, rfl, by simp only [wakes, ht],
            by simp only [occur, ht]⟩⟩
  | data h bytes =>
      cases ht : s.reactor.sockets.getTcp h with
      | error p => exact Or.inl (by simp only [occur, ht])
      | ok t =>
          exact Or.inr ⟨h, t, ht, Or.inr (Or.inl ⟨bytes, rfl, by simp only [wakes, ht],
            by simp only [occur, ht]⟩)⟩
  | space h n =>
      cases ht : s.reactor.sockets.getTcp h with
      | error p => exact Or.inl (by simp only [occur, ht])
      | ok t =>
          exact Or.inr ⟨h, t, ht, Or.inr (Or.inr ⟨n, rfl, by simp only [wakes, ht],
            by simp only [occur, ht]⟩)⟩

/-- A write that a stuck stream future cannot see leaves it stuck. -/
theorem stuck_stream_setSocket {cx : Waker} {h k : SocketHandle} {f : StreamFuture}
    {t : Tcp.Socket} {b : Buffers} (hstuck : s.Stuck A cx (.stream k f))
    (hself : k = h → ∀ t₀, s.reactor.sockets.getTcp h = .ok t₀ →
      ((f.poll cx t₀ (s.buffers h)).1 = false ∧ (f.poll cx t₀ (s.buffers h)).2.1 = f) →
      (f.poll cx t b).1 = false ∧ (f.poll cx t b).2.1 = f) :
    (s.setSocket h t b).Stuck A cx (.stream k f) := by
  obtain ⟨t₀, ht₀, hpoll⟩ := hstuck
  by_cases hk : k = h
  · subst hk
    refine ⟨t, getTcp_setSocket s k t b, ?_⟩
    simp only [setSocket, Function.update_self]
    exact hself rfl t₀ ht₀ hpoll
  · refine ⟨t₀, (getTcp_setSocket_ne s t b hk).trans ht₀, ?_⟩
    simp only [setSocket, Function.update_of_ne hk]
    exact hpoll

/-- A write that keeps the states of a listener's sockets leaves its accept
    future stuck. -/
theorem stuck_accept_setSocket {cx : Waker} {h : SocketHandle} {l : TcpListener}
    {t t₀ : Tcp.Socket} {b : Buffers} (hstuck : s.Stuck A cx (.accept l))
    (ht₀ : s.reactor.sockets.getTcp h = .ok t₀)
    (hst : h ∈ l.handles → t.state = t₀.state) :
    (s.setSocket h t b).Stuck A cx (.accept l) := by
  obtain ⟨hno, k, hk, u, hu, hterm⟩ := (AcceptFuture.pending_iff A cx l s.reactor).mp hstuck
  -- the states of the listener's sockets are what they were
  have hsame : ∀ m ∈ l.handles, ∀ v, s.reactor.sockets.getTcp m = .ok v →
      ∃ v', (s.setSocket h t b).reactor.sockets.getTcp m = .ok v' ∧ v'.state = v.state := by
    intro m hm v hv
    by_cases hmh : m = h
    · subst hmh
      rw [ht₀] at hv
      cases hv
      exact ⟨t, getTcp_setSocket s m t b, hst hm⟩
    · exact ⟨v, (getTcp_setSocket_ne s t b hmh).trans hv, rfl⟩
  refine (AcceptFuture.pending_iff A cx l _).mpr ⟨?_, ?_⟩
  · intro m hm
    obtain ⟨v, hv, hne⟩ := hno m hm
    obtain ⟨v', hv', hstate⟩ := hsame m hm v hv
    exact ⟨v', hv', by rw [hstate]; exact hne⟩
  · obtain ⟨v', hv', hstate⟩ := hsame k hk u hu
    exact ⟨k, hk, v', hv', by rw [hstate]; exact hterm⟩

/-- **THE RIGHT SLOT**: whatever lets a future continue wakes the slot it
    registers in. -/
theorem wakes_of_enables {w : Wait} {e : NetEvent}
    (hreg : ∀ h sl, w.future.watches h sl → s.slot h sl = some w.task)
    (hen : s.Enables A e w) : w.task ∈ s.wakes e := by
  obtain ⟨hstuck, hfree⟩ := hen
  rcases s.occur_cases e with hsame | ⟨h, t, ht, hcase⟩
  · rw [hsame] at hfree
    exact absurd hstuck hfree
  have hslot : ∀ sl, w.future.watches h sl → t.slot sl = some w.task := by
    intro sl hsl
    rw [← slot_of_getTcp ht sl]
    exact hreg h sl hsl
  rcases hcase with ⟨st, fin, rfl, hw, hocc⟩ | ⟨bytes, rfl, hw, hocc⟩ | ⟨n, rfl, hw, hocc⟩
  · -- a change of state wakes both slots
    by_contra hno
    rw [hw] at hno
    have hout : ∀ sl, ¬ w.future.watches h sl :=
      fun sl hsl => hno (Socket.mem_waiting_of_slot (hslot sl hsl))
    refine hfree ?_
    rw [hocc]
    cases hf : w.future with
    | stream k f =>
        rw [hf] at hstuck hout
        exact stuck_stream_setSocket hstuck (fun hk => absurd ⟨hk.symm, rfl⟩ (hout f.slot))
    | accept l =>
        rw [hf] at hstuck hout
        exact stuck_accept_setSocket hstuck ht (fun hm => absurd ⟨hm, rfl⟩ (hout .recv))
  · -- data does not concern the send side
    by_contra hno
    rw [hw] at hno
    have hout : ¬ w.future.watches h .recv :=
      fun hsl => hno (Option.mem_toList.mpr (hslot .recv hsl))
    refine hfree ?_
    rw [hocc]
    cases hf : w.future with
    | stream k f =>
        rw [hf] at hstuck hout
        refine stuck_stream_setSocket hstuck (fun hk t₀ ht₀ hpoll => ?_)
        rw [ht] at ht₀
        cases ht₀
        have hsend : f.slot = .send := by
          cases hsl : f.slot with
          | recv => exact absurd ⟨hk.symm, hsl.symm⟩ hout
          | send => rfl
        exact StreamFuture.stuck_of_data (t := t) (b := s.buffers h) hsend rfl rfl rfl hpoll
    | accept l =>
        rw [hf] at hstuck
        exact stuck_accept_setSocket hstuck ht (fun _ => rfl)
  · -- room does not concern the receive side
    by_contra hno
    rw [hw] at hno
    have hout : ¬ w.future.watches h .send :=
      fun hsl => hno (Option.mem_toList.mpr (hslot .send hsl))
    refine hfree ?_
    rw [hocc]
    cases hf : w.future with
    | stream k f =>
        rw [hf] at hstuck hout
        refine stuck_stream_setSocket hstuck (fun hk t₀ ht₀ hpoll => ?_)
        rw [ht] at ht₀
        cases ht₀
        have hrecv : f.slot = .recv := by
          cases hsl : f.slot with
          | recv => rfl
          | send => exact absurd ⟨hk.symm, hsl.symm⟩ hout
        exact StreamFuture.stuck_of_space (t := t) (b := s.buffers h) hrecv rfl rfl hpoll
    | accept l =>
        rw [hf] at hstuck
        exact stuck_accept_setSocket hstuck ht (fun _ => rfl)

/-! ## Keeping the slot -/

/-- Everybody who waits is registered. -/
def Registered (s : Tasks) : Prop :=
  ∀ w ∈ s.waits, ∀ h sl, w.future.watches h sl → s.slot h sl = some w.task

theorem served_iff : s.Served A ↔ s.Registered :=
  ⟨fun h w hw => (h w hw).1, fun h w hw => ⟨h w hw, fun _ hen => wakes_of_enables (h w hw) hen⟩⟩

/-- Writing to one socket keeps everybody registered who waits elsewhere, or in a
    slot whose content stays. -/
theorem Registered.setSocket {h : SocketHandle} {t t' : Tcp.Socket} {b : Buffers}
    (hs : s.Registered) (ht : s.reactor.sockets.getTcp h = .ok t)
    (hkeep : ∀ w ∈ s.waits, ∀ sl, w.future.watches h sl → t'.slot sl = t.slot sl) :
    (s.setSocket h t' b).Registered := by
  intro w hw k sl hwatch
  by_cases hk : k = h
  · subst hk
    rw [slot_setSocket, hkeep w hw sl hwatch, ← slot_of_getTcp ht]
    exact hs w hw k sl hwatch
  · rw [slot_setSocket_ne s t' b hk]
    exact hs w hw k sl hwatch

theorem Registered.sub {ws : List Wait} (hs : s.Registered) (hsub : ∀ w ∈ ws, w ∈ s.waits) :
    ({ s with waits := ws } : Tasks).Registered :=
  fun w hw h sl hwatch => hs w (hsub w hw) h sl hwatch

theorem Registered.forget (hs : s.Registered) (id : Nat) : (s.forget id).Registered :=
  hs.sub (fun _ hw => (List.mem_filter.mp hw).1)

theorem Registered.wake (hs : s.Registered) (woken : List Waker) : (s.wake woken).Registered :=
  hs.sub (fun _ hw => (List.mem_filter.mp hw).1)

/-- Nobody is left waiting in a slot that has been woken. -/
theorem Registered.not_watches_of_woken {h : SocketHandle} {t : Tcp.Socket} {sl : Slot}
    {woken : List Waker} {w : Wait} (hs : s.Registered)
    (ht : s.reactor.sockets.getTcp h = .ok t) (hwoken : ∀ cx, t.slot sl = some cx → cx ∈ woken)
    (hw : w ∈ (s.wake woken).waits) : ¬ w.future.watches h sl := by
  intro hwatch
  obtain ⟨hw, hnot⟩ := List.mem_filter.mp hw
  have hslot := hs w hw h sl hwatch
  rw [slot_of_getTcp ht] at hslot
  exact of_decide_eq_true hnot (hwoken w.task hslot)

/-- After waking both slots, the socket may become anything. -/
theorem Registered.setSocket_of_waiting {h : SocketHandle} {t : Tcp.Socket} (hs : s.Registered)
    (ht : s.reactor.sockets.getTcp h = .ok t) (t' : Tcp.Socket) (b : Buffers) :
    ((s.wake t.waiting).setSocket h t' b).Registered :=
  (hs.wake t.waiting).setSocket ht (fun _ hw _ hwatch =>
    absurd hwatch (hs.not_watches_of_woken ht (fun _ hcx => Socket.mem_waiting_of_slot hcx) hw))

theorem Registered.wait (hs : s.Registered) {w : Wait}
    (hw : ∀ h sl, w.future.watches h sl → s.slot h sl = some w.task) :
    (s.wait w).Registered := by
  intro v hv h sl hwatch
  rcases List.mem_append.mp hv with hv | hv
  · exact hs v hv h sl hwatch
  · rw [List.mem_singleton.mp hv] at hwatch ⊢
    exact hw h sl hwatch

/-- New sockets disturb nobody. -/
theorem Registered.add (hs : s.Registered) (A : Slots) (x : Socket) :
    ({ s with reactor := { s.reactor with sockets := (s.reactor.sockets.add A x).2 } } :
      Tasks).Registered := by
  intro w hw h sl hwatch
  obtain ⟨t, ht, hslot⟩ := getTcp_of_slot (hs w hw h sl hwatch)
  rw [slot, SocketSet.getTcp_add A x ht]
  exact hslot

theorem registered_net (hs : s.Registered) (e : NetEvent) :
    ((s.wake (s.wakes e)).occur e).Registered := by
  rcases (s.wake (s.wakes e)).occur_cases e with hsame | ⟨h, t, ht, hcase⟩
  · rw [hsame]
    exact hs.wake _
  replace ht : s.reactor.sockets.getTcp h = .ok t := ht
  rcases hcase with ⟨st, fin, rfl, hw, hocc⟩ | ⟨bytes, rfl, hw, hocc⟩ | ⟨n, rfl, hw, hocc⟩
  · replace hw : s.wakes (.state h st fin) = t.waiting := hw
    rw [hocc, hw]
    exact hs.setSocket_of_waiting ht _ _
  · replace hw : s.wakes (.data h bytes) = t.recvWaker.toList := hw
    rw [hocc, hw]
    refine (hs.wake _).setSocket ht (fun w hww sl hwatch => ?_)
    cases sl with
    | recv =>
        exact absurd hwatch
          (hs.not_watches_of_woken ht (fun _ hcx => Option.mem_toList.mpr hcx) hww)
    | send => rfl
  · replace hw : s.wakes (.space h n) = t.sendWaker.toList := hw
    rw [hocc, hw]
    refine (hs.wake _).setSocket ht (fun w hww sl hwatch => ?_)
    cases sl with
    | recv => rfl
    | send =>
        exact absurd hwatch
          (hs.not_watches_of_woken ht (fun _ hcx => Option.mem_toList.mpr hcx) hww)

theorem mem_waits_forget_wake_nil {id : Nat} {w : Wait} (hw : w ∈ s.waits) (hid : w.id ≠ id) :
    w ∈ ((s.forget id).wake []).waits := by
  refine List.mem_filter.mpr ⟨List.mem_filter.mpr ⟨hw, decide_eq_true hid⟩, ?_⟩
  exact decide_eq_true List.not_mem_nil

/-- Polling a future of a stream keeps everybody registered exactly if it takes
    nobody's slot. -/
theorem registered_poll_stream (hs : s.Registered) {id : Nat} {task : Waker} {h : SocketHandle}
    {f : StreamFuture} (hstep : step A s (.poll id task (.stream h f)) = .ok s') :
    s'.Registered ↔ s.NoTakeover (.poll id task (.stream h f)) := by
  simp only [step] at hstep
  split at hstep
  · cases hstep
  · rename_i t ht
    have hbase : ∀ woken, ((s.forget id).wake woken).Registered :=
      fun woken => (hs.forget id).wake woken
    have hregs : s.Registers (.stream h f) → f.registers t (s.buffers h) := by
      rintro ⟨t₀, ht₀, hreg⟩
      rw [ht] at ht₀
      cases ht₀
      exact hreg
    rcases f.poll_cases task t (s.buffers h) with
      ⟨hno, hready, hsock⟩ | ⟨hreg, hready, hsock⟩ | ⟨hno, hchange, hslot⟩
    · -- ready, and the socket is as it was
      rw [hready, hsock, if_pos rfl, if_pos rfl] at hstep
      cases hstep
      refine iff_of_true ?_ (fun hr => absurd (hregs hr) hno)
      exact (hbase []).setSocket ht (fun _ _ _ _ => rfl)
    · -- pending: the future's slot is overwritten
      rw [hready, hsock, Socket.state_register, if_pos rfl, if_neg Bool.false_ne_true] at hstep
      cases hstep
      constructor
      · rintro hreg' - w hw hid ⟨k, sl, ⟨rfl, rfl⟩, hwatch⟩
        have hslot := hreg' w (List.mem_append_left _ (mem_waits_forget_wake_nil hw hid)) k f.slot
          hwatch
        rw [slot_wait, slot_setSocket, Socket.slot_register_self] at hslot
        exact (Option.some.inj hslot).symm
      · intro hfree
        refine ((hbase []).setSocket ht (fun w hw sl hwatch => ?_)).wait ?_
        · by_cases hsl : sl = f.slot
          · subst hsl
            obtain ⟨hw, hid⟩ := List.mem_filter.mp (List.mem_filter.mp hw).1
            have htask := hfree ⟨t, ht, hreg⟩ w hw (of_decide_eq_true hid)
              ⟨h, f.slot, ⟨rfl, rfl⟩, hwatch⟩
            have hold := hs w hw h f.slot hwatch
            rw [slot_of_getTcp ht, htask] at hold
            rw [Socket.slot_register_self, hold]
          · exact Socket.slot_register_ne t task hsl
        · rintro k sl ⟨rfl, rfl⟩
          rw [slot_setSocket, StreamFuture.slot_poll]
          exact Socket.slot_register_self t task f.slot
    · -- the poll closes the connection: everybody in its slots is woken
      rw [if_neg hchange] at hstep
      cases hstep
      refine iff_of_true ?_ (fun hr => absurd (hregs hr) hno)
      have hclosed := (hs.forget id).setSocket_of_waiting ht
        (f.poll task t (s.buffers h)).2.2.1 (f.poll task t (s.buffers h)).2.2.2
      cases hready : (f.poll task t (s.buffers h)).1 with
      | true =>
          rw [if_pos rfl]
          exact hclosed
      | false =>
          rw [if_neg Bool.false_ne_true]
          refine hclosed.wait ?_
          rintro k sl ⟨rfl, rfl⟩
          rw [slot_setSocket, StreamFuture.slot_poll]
          exact hslot hready

/-- What an accept future does when it does not panic. -/
theorem accept_cases {A : Slots} {cx : Waker} {l l' : TcpListener} {r r' : ReactorInner}
    {res : Poll (Except ListenError TcpStream)}
    (h : AcceptFuture.poll A cx l r = .ok (res, l', r')) :
    (res = .pending ∧ l' = l ∧ ∃ ss', AcceptFuture.registerAll cx l.handles r.sockets = .ok ss' ∧
      r' = { r with sockets := ss' }) ∨
    ((∃ x, res = .ready x) ∧
      (r' = r ∨ ∃ x, r' = { r with sockets := (r.sockets.add A x).2 })) := by
  rw [AcceptFuture.poll] at h
  split at h
  · cases h
  · split at h
    · cases h
    · rw [TcpListener.createListeningSocket, Socket.listen] at h
      by_cases hp : l.port = 0
      · simp only [if_pos hp] at h
        cases h
        exact Or.inr ⟨⟨_, rfl⟩, Or.inl rfl⟩
      · simp only [if_neg hp] at h
        cases h
        exact Or.inr ⟨⟨_, rfl⟩, Or.inr ⟨_, rfl⟩⟩
  · split at h
    · cases h
    · cases h
      exact Or.inr ⟨⟨_, rfl⟩, Or.inl rfl⟩
    · split at h
      · rename_i ss' hreg
        cases h
        exact Or.inl ⟨rfl, rfl, ss', hreg, rfl⟩
      · cases h

/-- Polling an accept future keeps everybody registered exactly if it takes
    nobody's slot. -/
theorem registered_poll_accept (hs : s.Registered) {id : Nat} {task : Waker} {l : TcpListener}
    (hstep : step A s (.poll id task (.accept l)) = .ok s') :
    s'.Registered ↔ s.NoTakeover (.poll id task (.accept l)) := by
  have hregs : s.Registers (.accept l) ↔
      ∃ l' r', AcceptFuture.poll A task l s.reactor = .ok (.pending, l', r') :=
    (AcceptFuture.pending_iff A task l s.reactor).symm
  simp only [step] at hstep
  split at hstep
  · cases hstep
  · rename_i l' r' hpoll
    cases hstep
    obtain ⟨-, rfl, ss', hall, rfl⟩ | ⟨⟨x, hx⟩, -⟩ := accept_cases hpoll
    · have hspec := AcceptFuture.registerAll_spec task l'.handles s.reactor.sockets ss' hall
      -- the receive slots of the listener's sockets hold the new waker
      have hin : ∀ k ∈ l'.handles, ∀ t, s.reactor.sockets.getTcp k = .ok t →
          ss'.getTcp k = .ok (t.register task .recv) := by
        intro k hk t ht
        obtain ⟨t₀, ht₀, hafter⟩ := (hspec k).1 hk
        rw [ht] at ht₀
        cases ht₀
        exact hafter
      constructor
      · rintro hreg' - w hw hid ⟨k, sl, ⟨hk, rfl⟩, hwatch⟩
        obtain ⟨t, ht, -⟩ := (hspec k).1 hk
        have hslot := hreg' w (List.mem_append_left _
          (List.mem_filter.mpr ⟨hw, decide_eq_true hid⟩)) k .recv hwatch
        rw [slot_of_getTcp (hin k hk t ht), Socket.slot_register_self] at hslot
        exact (Option.some.inj hslot).symm
      · intro hfree
        have hwaits := hregs.mpr ⟨_, _, hpoll⟩
        refine Registered.wait ?_ ?_
        · intro w hw k sl hwatch
          obtain ⟨hw, hid⟩ := List.mem_filter.mp hw
          obtain ⟨t, ht, hslot⟩ := getTcp_of_slot (hs w hw k sl hwatch)
          by_cases hk : k ∈ l'.handles
          · rw [slot_of_getTcp (hin k hk t ht)]
            cases sl with
            | recv =>
                rw [Socket.slot_register_self, hfree hwaits w hw (of_decide_eq_true hid)
                  ⟨k, .recv, ⟨hk, rfl⟩, hwatch⟩]
            | send =>
                rw [Socket.slot_register_ne t task (by simp)]
                exact hslot
          · rw [slot_of_getTcp (((hspec k).2 hk).trans ht)]
            exact hslot
        · rintro k sl ⟨hk, rfl⟩
          obtain ⟨t, ht, -⟩ := (hspec k).1 hk
          rw [slot_of_getTcp (hin k hk t ht)]
          exact Socket.slot_register_self t task .recv
    · cases hx
  · rename_i x l' r' hpoll
    cases hstep
    refine iff_of_true ?_ ?_
    · obtain ⟨hx, -⟩ | ⟨-, rfl | ⟨y, rfl⟩⟩ := accept_cases hpoll
      · cases hx
      · exact hs.forget id
      · exact (hs.forget id).add A y
    · intro hr
      obtain ⟨l'', r'', hpend⟩ := hregs.mp hr
      rw [hpoll] at hpend
      cases hpend

/-- **ONE STEP** keeps everybody registered exactly if it takes nobody's slot. -/
theorem registered_step (hs : s.Registered) {op : TaskOp} (hstep : step A s op = .ok s') :
    s'.Registered ↔ s.NoTakeover op := by
  cases op with
  | poll id task f =>
      cases f with
      | stream h f => exact registered_poll_stream hs hstep
      | accept l => exact registered_poll_accept hs hstep
  | cancel id =>
      cases hstep
      exact iff_of_true (hs.forget id) trivial
  | net e =>
      cases hstep
      exact iff_of_true (registered_net hs e) trivial
  | close h =>
      simp only [step] at hstep
      split at hstep
      · cases hstep
      · rename_i t ht
        cases hstep
        refine iff_of_true ?_ trivial
        by_cases hsame : t.close.state = t.state
        · rw [if_pos hsame, Socket.close_of_same_state hsame]
          exact (hs.wake []).setSocket ht (fun _ _ _ _ => rfl)
        · rw [if_neg hsame]
          exact hs.setSocket_of_waiting ht _ _
  | abort h =>
      simp only [step] at hstep
      split at hstep
      · cases hstep
      · rename_i t ht
        cases hstep
        exact iff_of_true (hs.setSocket_of_waiting ht _ _) trivial
  | connect verdict =>
      cases verdict with
      | error e =>
          cases hstep
          exact iff_of_true hs trivial
      | ok u =>
          cases hstep
          exact iff_of_true (hs.add A _) trivial

theorem noTakeover_of_error {op : TaskOp} {p : SocketPanic} (h : step A s op = .error p) :
    s.NoTakeover op := by
  cases op with
  | poll id task f =>
      intro hr
      exfalso
      cases f with
      | stream k f =>
          obtain ⟨t, ht, -⟩ := hr
          simp only [step, ht] at h
          cases h
      | accept l =>
          obtain ⟨l', r', hpoll⟩ := (AcceptFuture.pending_iff A task l s.reactor).mpr hr
          simp only [step, hpoll] at h
          cases h
  | _ => trivial

end Tasks

/-- **WHEN NO WAKEUP IS LOST**: from any sockets with nobody waiting, everybody
    who waits is served throughout a run exactly if no future that has to wait
    is polled while another task's future waits in its slot. -/
theorem wakeups_kept_iff (A : Slots) (reactor : ReactorInner) (buffers : SocketHandle → Buffers)
    (ops : List TaskOp) :
    (∀ pre, pre <+: ops → ∀ t, run (Tasks.step A) ⟨reactor, buffers, []⟩ pre = .ok t →
        t.Served A) ↔
      Along (Tasks.step A) Tasks.NoTakeover ⟨reactor, buffers, []⟩ ops := by
  refine always_iff_along (I := Tasks.Served A) ?_ ?_ ops _ (List.forall_mem_nil _)
  · intro s op s' hs hstep
    rw [Tasks.served_iff] at hs ⊢
    exact Tasks.registered_step hs hstep
  · intro s op p _ herr
    exact Tasks.noTakeover_of_error herr

/-- Two tasks wait for the same connection.  The second takes the slot, and when
    the SYN|ACK arrives the first is not woken: it goes on waiting, although its
    poll would be ready. -/
theorem wakeup_lost_to_second_task :
    (∃ t, run (Tasks.step Slots.first) ⟨.new, fun _ => ⟨[], false, [], 64⟩, []⟩
        [.connect (.ok ()), .poll 1 1 (.stream 0 .waitConnected),
          .poll 2 2 (.stream 0 .waitConnected)] = .ok t ∧ ¬ t.Served Slots.first) ∧
    ∃ t, run (Tasks.step Slots.first) ⟨.new, fun _ => ⟨[], false, [], 64⟩, []⟩
        [.connect (.ok ()), .poll 1 1 (.stream 0 .waitConnected),
          .poll 2 2 (.stream 0 .waitConnected), .net (.state 0 .established false)] = .ok t ∧
      t.waits = [⟨1, 1, .stream 0 .waitConnected⟩] ∧
      ¬ t.Stuck Slots.first 1 (.stream 0 .waitConnected) := by
  refine ⟨⟨_, rfl, ?_⟩, ⟨_, rfl, rfl, ?_⟩⟩
  · intro h
    have hslot := (h ⟨1, 1, .stream 0 .waitConnected⟩ List.mem_cons_self).1 0 .send ⟨rfl, rfl⟩
    cases hslot
  · rintro ⟨t, ht, hpending, -⟩
    cases ht
    cases hpending

end DpdkNet
