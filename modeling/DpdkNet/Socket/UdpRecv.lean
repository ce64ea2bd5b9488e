import DpdkNet.Socket.UdpSend

/-! # Receiving datagrams

    `UdpRecvFuture` of `socket/udp.rs`, as it is polled by any number of tasks
    while datagrams arrive.  smoltcp takes a datagram out of the receive buffer
    before it looks whether the slice is long enough, so that one that is too
    long is gone; it drops what arrives while the buffer is full; and it wakes
    the one task whose waker was registered last.

    What the tasks get are the datagrams in the order of their arrival, each
    whole and each once.  A task that waits on a socket that gets closed is
    woken, and then waits again, for ever: the future takes a closed socket for
    one on which nothing has arrived yet. -/

namespace DpdkNet

open Tcp Runs

namespace Udp

inductive RecvError where
  | exhausted
  | truncated
  deriving DecidableEq, Repr

/-- What the receive side relies on besides: a new buffer and one that has been
    reset are empty. -/
structure RxPacketBuffer (β : Type) extends PacketBuffer β where
  reset : β → β
  queued_new : ∀ n size, queued (new n size) = []
  queued_reset : ∀ b, queued (reset b) = []

/-- The receive side of a socket; one that is closed has port 0. -/
structure RxSocket (β : Type) where
  port : UInt16
  rxBuffer : β
  recvWaker : Option Waker

variable {β : Type}

namespace RxSocket

/-- Take a datagram and copy it into the slice: the result, what is then in the
    slice, and the socket. -/
def recvSlice (C : RxPacketBuffer β) (s : RxSocket β) (data : List UInt8) :
    Except RecvError (Nat × IpEndpoint) × List UInt8 × RxSocket β :=
  match C.dequeue s.rxBuffer with
  | none => (.error .exhausted, data, s)
  | some (d, b) =>
      if data.length < d.payload.length then (.error .truncated, data, { s with rxBuffer := b })
      else
        (.ok (d.payload.length, d.endpoint), d.payload ++ data.drop d.payload.length,
          { s with rxBuffer := b })

def registerRecvWaker (s : RxSocket β) (cx : Waker) : RxSocket β := { s with recvWaker := some cx }

end RxSocket

end Udp

open Udp

/-- Receive a datagram, or wait for one. -/
def UdpRecvFuture.poll {β : Type} (C : RxPacketBuffer β) (cx : Waker) (buf : List UInt8)
    (s : RxSocket β) :
    Poll (Except Udp.RecvError (Nat × IpEndpoint)) × List UInt8 × RxSocket β :=
  match s.recvSlice C buf with
  | (.ok r, buf, s) => (.ready (.ok r), buf, s)
  | (.error .exhausted, buf, s) => (.pending, buf, s.registerRecvWaker cx)
  | (.error e, buf, s) => (.ready (.error e), buf, s)

namespace Udp

variable {β : Type}

/-! ## Tasks and the network -/

/-- What a poll took out of the buffer: the bytes that the task then has, or the
    size of the slice that was too short. -/
inductive Taken where
  | delivered (bytes : List UInt8) (endpoint : IpEndpoint)
  | truncated (room : Nat)
  deriving DecidableEq, Repr

/-- What a poll has taken, by its result. -/
def taken (room : Nat) (buf : List UInt8) :
    Poll (Except RecvError (Nat × IpEndpoint)) → List Taken
  | .ready (.ok (len, endpoint)) => [.delivered (buf.take len) endpoint]
  | .ready (.error .truncated) => [.truncated room]
  | _ => []

/-- A socket and its tasks.  A task sleeps if its last poll was pending and it has
    not been woken since.  What the buffer accepted, what was taken out and what
    a close threw away is written down. -/
structure Receiving (β : Type) where
  socket : RxSocket β
  asleep : Waker → Bool
  accepted : List Datagram
  taken : List Taken
  discarded : List Datagram

inductive RecvOp where
  | poll (cx : Waker) (buf : List UInt8)
  /-- the future of a task is dropped; its waker stays registered -/
  | cancel (cx : Waker)
  | arrive (d : Datagram)
  | close

namespace Receiving

def new (s : RxSocket β) : Receiving β := ⟨s, fun _ => false, [], [], []⟩

/-- Wake the task that is registered. -/
def wake (s : Receiving β) : Receiving β :=
  { s with
    socket := { s.socket with recvWaker := none }
    asleep := fun cx => s.asleep cx && !(s.socket.recvWaker == some cx) }

def poll (C : RxPacketBuffer β) (s : Receiving β) (cx : Waker) (buf : List UInt8) : Receiving β :=
  let r := UdpRecvFuture.poll C cx buf s.socket
  { s with
    socket := r.2.2
    asleep := Function.update s.asleep cx (r.1 == .pending)
    taken := s.taken ++ Udp.taken buf.length r.2.1 r.1 }

/-- A datagram for the port of the socket; nothing is for port 0. -/
def arrive (C : RxPacketBuffer β) (s : Receiving β) (d : Datagram) : Receiving β :=
  if s.socket.port = 0 then s
  else
    match C.enqueue s.socket.rxBuffer d with
    | some b =>
        { s with
          socket := { s.socket with rxBuffer := b }
          accepted := s.accepted ++ [d] }.wake
    -- the buffer is full: the datagram is dropped, and the task is woken
    | none => s.wake

/-- `UdpSocket::close` -/
def close (C : RxPacketBuffer β) (s : Receiving β) : Receiving β :=
  { s with
    socket := ⟨0, C.reset s.socket.rxBuffer, s.socket.recvWaker⟩
    discarded := C.queued s.socket.rxBuffer ++ s.discarded }.wake

def step (C : RxPacketBuffer β) (s : Receiving β) : RecvOp → Except Empty (Receiving β)
  | .poll cx buf => .ok (s.poll C cx buf)
  | .cancel cx => .ok { s with asleep := Function.update s.asleep cx false }
  | .arrive d => .ok (s.arrive C d)
  | .close => .ok (s.close C)

end Receiving

section Runs

variable (C : RxPacketBuffer β)

/-! ## What a poll does -/

/-- **ONE POLL**: it waits on an empty buffer; else it takes the oldest datagram,
    and returns it whole or says that it was too long. -/
theorem recv_poll_cases (cx : Waker) (buf : List UInt8) (s : RxSocket β) :
    (C.queued s.rxBuffer = [] ∧
      UdpRecvFuture.poll C cx buf s = (.pending, buf, s.registerRecvWaker cx)) ∨
    (∃ d b, C.queued s.rxBuffer = d :: C.queued b ∧ buf.length < d.payload.length ∧
      UdpRecvFuture.poll C cx buf s
        = (.ready (.error .truncated), buf, { s with rxBuffer := b })) ∨
    (∃ d b, C.queued s.rxBuffer = d :: C.queued b ∧
      UdpRecvFuture.poll C cx buf s
        = (.ready (.ok (d.payload.length, d.endpoint)), d.payload ++ buf.drop d.payload.length,
            { s with rxBuffer := b })) := by
  rw [UdpRecvFuture.poll, RxSocket.recvSlice]
  cases h : C.dequeue s.rxBuffer with
  | none => exact Or.inl ⟨(C.dequeue_eq_none _).mp h, rfl⟩
  | some p =>
      obtain ⟨d, b⟩ := p
      obtain ⟨hq, -, -⟩ := C.dequeue_some h
      by_cases hlen : buf.length < d.payload.length
      · simp only [if_pos hlen]
        exact Or.inr (Or.inl ⟨d, b, hq, hlen, rfl⟩)
      · simp only [if_neg hlen]
        exact Or.inr (Or.inr ⟨d, b, hq, rfl⟩)

/-! ## Every datagram once -/

/-- A datagram and what became of it. -/
def Matches (d : Datagram) : Taken → Prop
  | .delivered bytes endpoint => bytes = d.payload ∧ endpoint = d.endpoint
  | .truncated room => room < d.payload.length

/-- What was accepted has been taken out, in order, or is queued, or was queued
    when the socket was closed. -/
structure Accounted (s : Receiving β) : Prop where
  split : ∃ ds, List.Forall₂ Matches ds s.taken ∧
    s.accepted = ds ++ (C.queued s.socket.rxBuffer ++ s.discarded)
  /-- nothing is thrown away while the socket is open -/
  kept : s.socket.port ≠ 0 → s.discarded = []

variable {C}

theorem Accounted.wake {s : Receiving β} (h : Accounted C s) : Accounted C s.wake := ⟨h.split, h.kept⟩

theorem Accounted.poll {s : Receiving β} (h : Accounted C s) (cx : Waker) (buf : List UInt8) :
    Accounted C (s.poll C cx buf) := by
  obtain ⟨⟨ds, hds, hacc⟩, hkept⟩ := h
  rcases recv_poll_cases C cx buf s.socket with ⟨hq, hp⟩ | ⟨d, b, hq, hlen, hp⟩ | ⟨d, b, hq, hp⟩
  · simp only [Receiving.poll, hp, taken, List.append_nil]
    exact ⟨⟨ds, hds, hacc⟩, hkept⟩
  · simp only [Receiving.poll, hp, taken]
    refine ⟨⟨ds ++ [d], List.rel_append hds (.cons hlen .nil), ?_⟩, hkept⟩
    show s.accepted = _
    rw [hacc, hq, List.append_assoc, List.cons_append, List.singleton_append]
  · have hwhole : Matches d
        (.delivered ((d.payload ++ buf.drop d.payload.length).take d.payload.length) d.endpoint) :=
      ⟨List.take_left, rfl⟩
    simp only [Receiving.poll, hp, taken]
    refine ⟨⟨ds ++ [d], List.rel_append hds (.cons hwhole .nil), ?_⟩, hkept⟩
    show s.accepted = _
    rw [hacc, hq, List.append_assoc, List.cons_append, List.singleton_append]

theorem Accounted.arrive {s : Receiving β} (h : Accounted C s) (d : Datagram) :
    Accounted C (s.arrive C d) := by
  rw [Receiving.arrive]
  by_cases hport : s.socket.port = 0
  · rw [if_pos hport]
    exact h
  · rw [if_neg hport]
    cases henq : C.enqueue s.socket.rxBuffer d with
    | none => exact h.wake
    | some b =>
        obtain ⟨ds, hds, hacc⟩ := h.split
        have hnone := h.kept hport
        obtain ⟨hq, -, -⟩ := C.enqueue_some henq
        refine Accounted.wake ⟨⟨ds, hds, ?_⟩, fun _ => hnone⟩
        show s.accepted ++ [d] = ds ++ (C.queued b ++ s.discarded)
        rw [hacc, hq, hnone, List.append_nil, List.append_nil, List.append_assoc]

theorem Accounted.close {s : Receiving β} (h : Accounted C s) : Accounted C (s.close C) := by
  obtain ⟨ds, hds, hacc⟩ := h.split
  refine Accounted.wake ⟨⟨ds, hds, ?_⟩, fun hport => absurd rfl hport⟩
  show s.accepted = ds ++ (C.queued (C.reset s.socket.rxBuffer) ++ (_ ++ s.discarded))
  rw [hacc, C.queued_reset, List.nil_append]

/-- **ONE STEP** -/
theorem Accounted.step {s s' : Receiving β} {op : RecvOp} (h : Accounted C s)
    (hstep : s.step C op = .ok s') : Accounted C s' := by
  cases op with
  | poll cx buf =>
      cases hstep
      exact h.poll cx buf
  | cancel cx =>
      cases hstep
      exact ⟨h.split, h.kept⟩
  | arrive d =>
      cases hstep
      exact h.arrive d
  | close =>
      cases hstep
      exact h.close

end Runs

/-! ## Two datagrams -/

def sender : IpEndpoint := ⟨⟨10, 0, 0, 1⟩, 9⟩

section Runs

variable {C : RxPacketBuffer β}

/-! ## Closed sockets -/

/-- Closed, with nothing left to receive. -/
def Shut (C : RxPacketBuffer β) (s : Receiving β) : Prop :=
  s.socket.port = 0 ∧ C.queued s.socket.rxBuffer = []

theorem Shut.poll {s : Receiving β} (h : Shut C s) (cx : Waker) (buf : List UInt8) :
    UdpRecvFuture.poll C cx buf s.socket = (.pending, buf, s.socket.registerRecvWaker cx) := by
  rcases recv_poll_cases C cx buf s.socket with ⟨-, hp⟩ | ⟨d, b, hq, -⟩ | ⟨d, b, hq, -⟩
  · exact hp
  · rw [h.2] at hq
    cases hq
  · rw [h.2] at hq
    cases hq

/-- It stays so: nothing arrives any more. -/
theorem Shut.step {s s' : Receiving β} {op : RecvOp} (h : Shut C s)
    (hstep : s.step C op = .ok s') : Shut C s' := by
  cases op with
  | poll cx buf =>
      cases hstep
      simp only [Receiving.poll, h.poll]
      exact h
  | cancel cx =>
      cases hstep
      exact h
  | arrive d =>
      cases hstep
      rw [Receiving.arrive, if_pos h.1]
      exact h
  | close =>
      cases hstep
      exact ⟨rfl, C.queued_reset _⟩

/-- Every task that sleeps is the one that will be woken, and there is nothing it
    could receive. -/
def Attended (C : RxPacketBuffer β) (s : Receiving β) : Prop :=
  ∀ cx, s.asleep cx = true →
    s.socket.recvWaker = some cx ∧ C.queued s.socket.rxBuffer = []

/-- No task begins to wait while another one waits. -/
def Alone (s : Receiving β) : RecvOp → Prop
  | .poll cx _ => ∀ cx', s.asleep cx' = true → cx' = cx
  | _ => True

/-- Nobody sleeps after a wake. -/
theorem Attended.asleep_wake {s : Receiving β} (h : Attended C s) (cx : Waker) :
    s.wake.asleep cx = false := by
  show (s.asleep cx && !(s.socket.recvWaker == some cx)) = false
  by_cases hcx : s.asleep cx = true
  · rw [(h cx hcx).1, beq_self_eq_true, Bool.not_true, Bool.and_false]
  · rw [Bool.not_eq_true] at hcx
    rw [hcx, Bool.false_and]

theorem Attended.of_awake {s : Receiving β} (h : ∀ cx, s.asleep cx = false) : Attended C s := by
  intro cx hcx
  rw [h cx] at hcx
  cases hcx

theorem attended_poll {s : Receiving β} {cx : Waker} {buf : List UInt8}
    (halone : Alone s (.poll cx buf)) : Attended C (s.poll C cx buf) := by
  -- the other tasks are awake, and stay so
  have hothers : ∀ b : Bool, ∀ cx', cx' ≠ cx → Function.update s.asleep cx b cx' = false := by
    intro b cx' hne
    rw [Function.update_of_ne hne, ← Bool.not_eq_true]
    exact fun hasleep => hne (halone cx' hasleep)
  rcases recv_poll_cases C cx buf s.socket with ⟨hq, hp⟩ | ⟨d, b, hq, hlen, hp⟩ | ⟨d, b, hq, hp⟩
  · intro cx' hcx'
    simp only [Receiving.poll, hp] at hcx' ⊢
    by_cases heq : cx' = cx
    · subst heq
      exact ⟨rfl, hq⟩
    · rw [hothers _ cx' heq] at hcx'
      cases hcx'
  · refine Attended.of_awake fun cx' => ?_
    simp only [Receiving.poll, hp]
    by_cases heq : cx' = cx
    · subst heq
      rw [Function.update_self]
      rfl
    · exact hothers _ cx' heq
  · refine Attended.of_awake fun cx' => ?_
    simp only [Receiving.poll, hp]
    by_cases heq : cx' = cx
    · subst heq
      rw [Function.update_self]
      rfl
    · exact hothers _ cx' heq

theorem Attended.step {s s' : Receiving β} {op : RecvOp} (h : Attended C s) (halone : Alone s op)
    (hstep : s.step C op = .ok s') : Attended C s' := by
  cases op with
  | poll cx buf =>
      cases hstep
      exact attended_poll halone
  | cancel cx =>
      cases hstep
      intro cx' hcx'
      simp only at hcx'
      by_cases heq : cx' = cx
      · subst heq
        rw [Function.update_self] at hcx'
        cases hcx'
      · rw [Function.update_of_ne heq] at hcx'
        exact h cx' hcx'
  | arrive d =>
      cases hstep
      rw [Receiving.arrive]
      by_cases hport : s.socket.port = 0
      · rw [if_pos hport]
        exact h
      · rw [if_neg hport]
        cases C.enqueue s.socket.rxBuffer d with
        | none => exact Attended.of_awake h.asleep_wake
        | some b => exact Attended.of_awake h.asleep_wake
  | close =>
      cases hstep
      exact Attended.of_awake h.asleep_wake

end Runs

end Udp

end DpdkNet
