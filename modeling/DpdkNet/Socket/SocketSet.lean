import Mathlib

/-! # smoltcp's sockets, as far as the crate uses them

    The TCP state machine's states, the calls that change one from the outside
    (`listen`, `connect`, `close`, `abort`), and the `SocketSet` the reactor
    keeps its sockets in.

    A `SocketSet` hands out a handle for each socket added and recycles handles
    of removed ones; which free handle it picks is up to it (`Slots`, which may
    pick differently every time).  Looking up a handle that is not in use, or
    that refers to a socket of another type, panics. -/

namespace DpdkNet

/-- The task to wake. -/
abbrev Waker := Nat

namespace Tcp

/-- `smoltcp::socket::tcp::State` -/
inductive State where
  | closed
  | listen
  | synSent
  | synReceived
  | established
  | finWait1
  | finWait2
  | closeWait
  | closing
  | lastAck
  | timeWait
  deriving DecidableEq, Repr

inductive ListenError where
  | invalidState
  | unaddressable
  deriving DecidableEq, Repr

inductive ConnectError where
  | invalidState
  | unaddressable
  deriving DecidableEq, Repr

/-- A TCP socket: its state and its two waker slots. -/
structure Socket where
  state : State
  recvWaker : Option Waker
  sendWaker : Option Waker
  deriving DecidableEq, Repr

namespace Socket

def new : Socket := ⟨.closed, none, none⟩

/-- Every change of state wakes the waiting tasks, which empties the slots. -/
def setState (_ : Socket) (st : State) : Socket := ⟨st, none, none⟩

/-- Listen on a port; on the closed socket it is called on, only port 0 is
    refused. -/
def listen (s : Socket) (port : UInt16) : Except ListenError Socket :=
  if port = 0 then .error .unaddressable
  else .ok (s.setState .listen)

/-- Start a connection; whether the interface can reach the peer is not up to
    the socket, so the verdict is an argument. -/
def connect (s : Socket) (verdict : Except ConnectError Unit) : Except ConnectError Socket :=
  match verdict with
  | .ok () => .ok (s.setState .synSent)
  | .error e => .error e

/-- Close the transmit half of the connection. -/
def close (s : Socket) : Socket :=
  match s.state with
  | .listen | .synSent => s.setState .closed
  | .synReceived | .established => s.setState .finWait1
  | .closeWait => s.setState .lastAck
  | _ => s

/-- Abort the connection. -/
def abort (s : Socket) : Socket := s.setState .closed

def registerRecvWaker (s : Socket) (cx : Waker) : Socket := { s with recvWaker := some cx }

end Socket

end Tcp

inductive UdpBindError where
  | invalidState
  | unaddressable
  deriving DecidableEq, Repr

inductive Socket where
  | tcp (s : Tcp.Socket)
  | udp
  deriving DecidableEq, Repr

/-! ## The socket set -/

abbrev SocketHandle := Nat

/-- The sockets in use, and how many were ever added. -/
structure SocketSet where
  live : AList (fun _ : SocketHandle => Socket)
  added : Nat

/-- How the set picks a slot for a new socket: any slot not in use. -/
structure Slots where
  pick : Nat → AList (fun _ : SocketHandle => Socket) → SocketHandle
  pick_free : ∀ n m, pick n m ∉ m

/-- Scan for a free slot from `i` on; past the last slot in use there is one. -/
def firstFree (ks : List SocketHandle) : Nat → SocketHandle → SocketHandle
  | 0, _ => ks.foldr max 0 + 1
  | fuel + 1, i => if i ∈ ks then firstFree ks fuel (i + 1) else i

theorem le_foldr_max : ∀ (ks : List SocketHandle), ∀ k ∈ ks, k ≤ ks.foldr max 0 := by
  intro ks
  induction ks with
  | nil => intro k hk; cases hk
  | cons a ks ih =>
      intro k hk
      rcases List.mem_cons.mp hk with rfl | hk
      · exact Nat.le_max_left _ _
      · exact Nat.le_trans (ih k hk) (Nat.le_max_right _ _)

theorem firstFree_notMem (ks : List SocketHandle) :
    ∀ (fuel : Nat) (i : SocketHandle), firstFree ks fuel i ∉ ks := by
  intro fuel
  induction fuel with
  | zero =>
      intro i hm
      exact absurd (le_foldr_max ks _ hm) (Nat.not_succ_le_self _)
  | succ fuel ih =>
      intro i
      rw [firstFree]
      by_cases hi : i ∈ ks
      · rw [if_pos hi]; exact ih (i + 1)
      · rw [if_neg hi]; exact hi

/-- The first free slot, as smoltcp picks it. -/
def Slots.first : Slots where
  pick _ m := firstFree m.keys (m.keys.length + 1) 0
  pick_free _ m h := firstFree_notMem m.keys _ 0 (AList.mem_keys.mp h)

/-- The panics of the two lookups and of indexing a vector. -/
inductive SocketPanic where
  | invalidHandle (h : SocketHandle)
  | wrongType (h : SocketHandle)
  | indexOutOfBounds
  deriving DecidableEq, Repr

namespace SocketSet

def new : SocketSet := ⟨∅, 0⟩

def add (A : Slots) (ss : SocketSet) (s : Socket) : SocketHandle × SocketSet :=
  (A.pick ss.added ss.live, ⟨ss.live.insert (A.pick ss.added ss.live) s, ss.added + 1⟩)

def getTcp (ss : SocketSet) (h : SocketHandle) : Except SocketPanic Tcp.Socket :=
  match ss.live.lookup h with
  | some (.tcp t) => .ok t
  | some .udp => .error (.wrongType h)
  | none => .error (.invalidHandle h)

def getUdp (ss : SocketSet) (h : SocketHandle) : Except SocketPanic Unit :=
  match ss.live.lookup h with
  | some .udp => .ok ()
  | some (.tcp _) => .error (.wrongType h)
  | none => .error (.invalidHandle h)

/-- Write through the reference `get_mut` returned. -/
def setTcp (ss : SocketSet) (h : SocketHandle) (t : Tcp.Socket) : SocketSet :=
  { ss with live := ss.live.insert h (.tcp t) }

def remove (ss : SocketSet) (h : SocketHandle) : Except SocketPanic SocketSet :=
  if h ∈ ss.live then .ok { ss with live := ss.live.erase h }
  else .error (.invalidHandle h)

/-! ## Reading the set

    `kind` is what the proofs look at: whether a handle is in use and, if it is a
    TCP socket, its state. -/

inductive Kind where
  | tcp (st : Tcp.State)
  | udp
  deriving DecidableEq, Repr

end SocketSet

def Socket.kind : Socket → SocketSet.Kind
  | .tcp t => .tcp t.state
  | .udp => .udp

namespace SocketSet

variable {ss : SocketSet} {h k : SocketHandle}

def kind (ss : SocketSet) (h : SocketHandle) : Option Kind := (ss.live.lookup h).map Socket.kind

theorem kind_isSome : (ss.kind h).isSome = true ↔ h ∈ ss.live.keys := by
  rw [kind, Option.isSome_map, AList.lookup_isSome, AList.mem_keys]

theorem getTcp_of_kind {st : Tcp.State} (hk : ss.kind h = some (.tcp st)) :
    ∃ t, ss.getTcp h = .ok t ∧ t.state = st := by
  rw [kind] at hk
  rw [getTcp]
  cases hl : ss.live.lookup h with
  | none => rw [hl] at hk; cases hk
  | some s =>
      rw [hl] at hk
      cases s with
      | udp => cases hk
      | tcp t =>
          refine ⟨t, rfl, ?_⟩
          have hst : some (Kind.tcp t.state) = some (Kind.tcp st) := hk
          injection hst with hst
          injection hst

theorem kind_of_getTcp {t : Tcp.Socket} (hg : ss.getTcp h = .ok t) :
    ss.kind h = some (.tcp t.state) := by
  rw [getTcp] at hg
  split at hg
  · rename_i hl
    cases hg
    rw [kind, hl]
    rfl
  · cases hg
  · cases hg

theorem getUdp_of_kind (hk : ss.kind h = some .udp) : ss.getUdp h = .ok () := by
  rw [kind] at hk
  rw [getUdp]
  cases hl : ss.live.lookup h with
  | none => rw [hl] at hk; cases hk
  | some s =>
      rw [hl] at hk
      cases s with
      | udp => rfl
      | tcp t => cases hk

theorem fresh_notMem (A : Slots) (ss : SocketSet) (s : Socket) :
    (ss.add A s).1 ∉ ss.live.keys :=
  fun hm => A.pick_free ss.added ss.live (AList.mem_keys.mpr hm)

theorem keys_add (A : Slots) (ss : SocketSet) (s : Socket) :
    (ss.add A s).2.live.keys = (ss.add A s).1 :: ss.live.keys := by
  have hfree : A.pick ss.added ss.live ∉ ss.live.keys := fresh_notMem A ss s
  show (ss.live.insert (A.pick ss.added ss.live) s).keys = _
  rw [AList.keys_insert, List.erase_of_not_mem hfree]
  rfl

theorem kind_add (A : Slots) (ss : SocketSet) (s : Socket) :
    (ss.add A s).2.kind (ss.add A s).1 = some s.kind := by
  show ((ss.live.insert _ s).lookup (A.pick ss.added ss.live)).map Socket.kind = _
  rw [AList.lookup_insert]
  rfl

/-- Adding a socket changes nothing for the handles in use. -/
theorem kind_add_of_isSome (A : Slots) (s : Socket) (hk : (ss.kind h).isSome = true) :
    (ss.add A s).2.kind h = ss.kind h := by
  have hne : h ≠ A.pick ss.added ss.live := by
    rintro rfl
    exact fresh_notMem A ss s (kind_isSome.mp hk)
  show ((ss.live.insert _ s).lookup h).map Socket.kind = _
  rw [AList.lookup_insert_ne hne]
  rfl

theorem kind_setTcp (t : Tcp.Socket) : (ss.setTcp h t).kind h = some (.tcp t.state) := by
  show ((ss.live.insert h (.tcp t)).lookup h).map Socket.kind = _
  rw [AList.lookup_insert]
  rfl

theorem kind_setTcp_ne (t : Tcp.Socket) (hne : k ≠ h) : (ss.setTcp h t).kind k = ss.kind k := by
  show ((ss.live.insert h (.tcp t)).lookup k).map Socket.kind = _
  rw [AList.lookup_insert_ne hne]
  rfl

theorem keys_setTcp (t : Tcp.Socket) (hm : h ∈ ss.live.keys) :
    (ss.setTcp h t).live.keys.Perm ss.live.keys := by
  show (ss.live.insert h (.tcp t)).keys.Perm _
  rw [AList.keys_insert]
  exact (List.perm_cons_erase hm).symm

theorem remove_of_mem (hm : h ∈ ss.live.keys) :
    ss.remove h = .ok { ss with live := ss.live.erase h } :=
  if_pos (AList.mem_keys.mpr hm)

theorem kind_erase_ne (hne : k ≠ h) :
    SocketSet.kind { ss with live := ss.live.erase h } k = ss.kind k := by
  show ((ss.live.erase h).lookup k).map Socket.kind = _
  rw [AList.lookup_erase_ne hne]
  rfl

end SocketSet

end DpdkNet
