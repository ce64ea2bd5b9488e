import DpdkNet.Lib.Runs
import DpdkNet.Device.ArpCache
import DpdkNet.Socket.Futures

/-! # Sending datagrams

    `UdpSendFuture` of `socket/udp.rs`.  smoltcp keeps the datagrams of a socket in
    a `PacketBuffer`: a ring of metadata slots and a ring of payload bytes, in which
    a datagram needs one contiguous piece.  It refuses a datagram with one and the
    same error whether the buffer is full for the moment or the datagram can never
    fit.  The future waits in both cases. -/

namespace DpdkNet

open Tcp Runs

namespace Udp

structure IpEndpoint where
  addr : Ipv4Addr
  port : UInt16
  deriving DecidableEq, Repr

/-- smoltcp sends to an address that is not `0.0.0.0` and a port that is not 0. -/
def IpEndpoint.addressable (e : IpEndpoint) : Bool := e.addr ≠ ⟨0, 0, 0, 0⟩ ∧ e.port ≠ 0

structure Datagram where
  payload : List UInt8
  endpoint : IpEndpoint
  deriving DecidableEq, Repr

inductive SendError where
  | unaddressable
  | bufferFull
  deriving DecidableEq, Repr

/-- smoltcp's `PacketBuffer`, and what is relied on: when it refuses a datagram,
    that the datagrams leave it one by one, and that an empty one has all its slots
    and all its space. -/
structure PacketBuffer (β : Type) where
  new : Nat → Nat → β
  slots : β → Nat
  capacity : β → Nat
  queued : β → List Datagram
  slotsUsed : β → Nat
  contiguous : β → Nat
  enqueue : β → Datagram → Option β
  dequeue : β → Option (Datagram × β)
  slots_new : ∀ n size, slots (new n size) = n
  capacity_new : ∀ n size, capacity (new n size) = size
  slotsUsed_le : ∀ b, slotsUsed b ≤ slots b
  enqueue_eq_none : ∀ b d, enqueue b d = none ↔
    capacity b < d.payload.length ∨ slotsUsed b = slots b ∨ contiguous b < d.payload.length
  enqueue_some : ∀ {b d b'}, enqueue b d = some b' →
    queued b' = queued b ++ [d] ∧ slots b' = slots b ∧ capacity b' = capacity b
  dequeue_eq_none : ∀ b, dequeue b = none ↔ queued b = []
  dequeue_some : ∀ {b d b'}, dequeue b = some (d, b') →
    queued b = d :: queued b' ∧ slots b' = slots b ∧ capacity b' = capacity b
  empty : ∀ b, queued b = [] → slotsUsed b = 0 ∧ contiguous b = capacity b

variable {β : Type}

/-- The transmit side of a socket; one that is closed has port 0. -/
structure Socket (β : Type) where
  port : UInt16
  txBuffer : β
  sendWaker : Option Waker

namespace Socket

/-- Queue a datagram. -/
def sendSlice (C : PacketBuffer β) (s : Socket β) (data : List UInt8) (endpoint : IpEndpoint) :
    Except SendError Unit × Socket β :=
  if s.port = 0 then (.error .unaddressable, s)
  else if endpoint.addressable then
    match C.enqueue s.txBuffer ⟨data, endpoint⟩ with
    | some b => (.ok (), { s with txBuffer := b })
    | none => (.error .bufferFull, s)
  else (.error .unaddressable, s)

def registerSendWaker (s : Socket β) (cx : Waker) : Socket β := { s with sendWaker := some cx }

/-- The interface sends the oldest datagram and wakes who waits. -/
def dispatch (C : PacketBuffer β) (s : Socket β) : Socket β :=
  match C.dequeue s.txBuffer with
  | some (_, b) => { s with txBuffer := b, sendWaker := none }
  | none => s

/-- All datagrams that are queued, sent. -/
def drained (C : PacketBuffer β) : Nat → Socket β → Socket β
  | 0, s => s
  | n + 1, s => drained C n (s.dispatch C)

end Socket

/-- `tx_buffer_packets * max_packet_size`, in `usize`. -/
def payloadSize (packets maxPacketSize : Nat) : Nat := packets * maxPacketSize % 2 ^ 64

/-- The socket of a `UdpSocket`. -/
def bind (C : PacketBuffer β) (port : UInt16) (txBufferPackets maxPacketSize : Nat) :
    Except UdpBindError (Socket β) :=
  if port = 0 then .error .unaddressable
  else .ok ⟨port, C.new txBufferPackets (payloadSize txBufferPackets maxPacketSize), none⟩

end Udp

open Udp

/-- Send a datagram, or wait for room. -/
def UdpSendFuture.poll {β : Type} (C : PacketBuffer β) (cx : Waker) (data : List UInt8)
    (endpoint : IpEndpoint) (s : Udp.Socket β) :
    Poll (Except Udp.SendError Nat) × Udp.Socket β :=
  match s.sendSlice C data endpoint with
  | (.ok (), s) => (.ready (.ok data.length), s)
  | (.error .bufferFull, s) => (.pending, s.registerSendWaker cx)
  | (.error e, s) => (.ready (.error e), s)

namespace Udp

variable {β : Type} (C : PacketBuffer β)

/-! ## Runs of a socket -/

inductive UdpOp where
  | poll (cx : Waker) (data : List UInt8) (endpoint : IpEndpoint)
  | dispatch
  | close

def step (s : Socket β) : UdpOp → Except Empty (Socket β)
  | .poll cx data endpoint => .ok (UdpSendFuture.poll C cx data endpoint s).2
  | .dispatch => .ok (s.dispatch C)
  | .close => .ok { s with port := 0 }

/-- The size of the transmit buffer: metadata slots and payload bytes. -/
def Socket.size (s : Socket β) : Nat × Nat := (C.slots s.txBuffer, C.capacity s.txBuffer)

/-- A datagram of `len` bytes fits a buffer of some size when it is empty. -/
def Fits (size : Nat × Nat) (len : Nat) : Prop := len ≤ size.2 ∧ 0 < size.1

/-! ## What a poll does -/

theorem pending_iff (cx : Waker) (data : List UInt8) (endpoint : IpEndpoint) (s : Socket β) :
    (UdpSendFuture.poll C cx data endpoint s).1 = .pending ↔
      s.port ≠ 0 ∧ endpoint.addressable = true ∧ C.enqueue s.txBuffer ⟨data, endpoint⟩ = none := by
  rw [UdpSendFuture.poll, Socket.sendSlice]
  by_cases hport : s.port = 0
  · simp [hport]
  · by_cases haddr : endpoint.addressable = true
    · cases C.enqueue s.txBuffer ⟨data, endpoint⟩ with
      | none => simp [hport, haddr]
      | some b => simp [hport, haddr]
    · simp [hport, haddr]

/-- A buffer whose datagrams lie one behind the other from its start. -/
structure Fifo where
  slots : Nat
  capacity : Nat
  queue : List Datagram
  queue_le : queue.length ≤ slots

namespace Fifo

def bytes (f : Fifo) : Nat := (f.queue.map fun d => d.payload.length).sum

def enqueue (f : Fifo) (d : Datagram) : Option Fifo :=
  if h : f.capacity < d.payload.length ∨ f.queue.length = f.slots ∨
      f.capacity - f.bytes < d.payload.length then none
  else some
    { f with
      queue := f.queue ++ [d]
      queue_le := by
        have := f.queue_le
        rw [List.length_append, List.length_singleton]
        omega }

def dequeue (f : Fifo) : Option (Datagram × Fifo) :=
  match hq : f.queue with
  | [] => none
  | d :: queue => some (d,
      { f with
        queue
        queue_le := by
          have := f.queue_le
          rw [hq, List.length_cons] at this
          omega })

end Fifo

end Udp

end DpdkNet
