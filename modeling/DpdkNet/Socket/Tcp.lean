import DpdkNet.Socket.SocketSet

/-! # Streams, listeners and the reactor's share of them

    `socket/tcp.rs`, the life cycle of `socket/udp.rs`, and `cleanup_orphaned` of
    `runtime/reactor.rs`.  A stream, a listener or a UDP socket is the handles it
    holds; the sockets themselves are in the reactor.  A function that looks up
    a handle returns `Except SocketPanic`, so that a panic is a result like any
    other.  Buffer sizes only size the sockets' buffers and are left out. -/

namespace DpdkNet

open Tcp

/-- The shared state of the reactor: the sockets, and those no longer owned by
    a stream that are still closing. -/
structure ReactorInner where
  sockets : SocketSet
  orphanedClosing : List SocketHandle

def ReactorInner.new : ReactorInner := ⟨.new, []⟩

structure TcpStream where
  handle : SocketHandle
  deriving DecidableEq, Repr

/-- The pool of listening sockets and the port they listen on. -/
structure TcpListener where
  handles : List SocketHandle
  port : UInt16
  deriving DecidableEq, Repr

structure UdpSocket where
  handle : SocketHandle
  deriving DecidableEq, Repr

/-- `std::task::Poll` -/
inductive Poll (α : Type) where
  | ready (a : α)
  | pending
  deriving DecidableEq, Repr

namespace TcpStream

/-- Open a connection: the socket is connected before it is added. -/
def connect (A : Slots) (verdict : Except ConnectError Unit) (r : ReactorInner) :
    Except ConnectError TcpStream × ReactorInner :=
  match Socket.new.connect verdict with
  | .error e => (.error e, r)
  | .ok socket =>
      let added := r.sockets.add A (.tcp socket)
      (.ok ⟨added.1⟩, { r with sockets := added.2 })

/-- The current socket state. -/
def state (stream : TcpStream) (r : ReactorInner) : Except SocketPanic State :=
  match r.sockets.getTcp stream.handle with
  | .ok socket => .ok socket.state
  | .error p => .error p

/-- Close the stream gracefully. -/
def close (stream : TcpStream) (r : ReactorInner) : Except SocketPanic ReactorInner :=
  match r.sockets.getTcp stream.handle with
  | .ok socket => .ok { r with sockets := r.sockets.setTcp stream.handle socket.close }
  | .error p => .error p

/-- Abort the connection immediately. -/
def abort (stream : TcpStream) (r : ReactorInner) : Except SocketPanic ReactorInner :=
  match r.sockets.getTcp stream.handle with
  | .ok socket => .ok { r with sockets := r.sockets.setTcp stream.handle socket.abort }
  | .error p => .error p

/-- `Drop`: a closed socket is removed, a closing one becomes an orphan, any
    other is aborted first. -/
def drop (stream : TcpStream) (r : ReactorInner) : Except SocketPanic ReactorInner :=
  match r.sockets.getTcp stream.handle with
  | .error p => .error p
  | .ok socket =>
      match socket.state with
      | .closed | .timeWait =>
          match r.sockets.remove stream.handle with
          | .ok sockets => .ok { r with sockets }
          | .error p => .error p
      | .finWait1 | .finWait2 | .closing | .lastAck =>
          .ok { r with orphanedClosing := r.orphanedClosing ++ [stream.handle] }
      | _ =>
          .ok { r with
            sockets := r.sockets.setTcp stream.handle socket.abort
            orphanedClosing := r.orphanedClosing ++ [stream.handle] }

end TcpStream

namespace TcpListener

/-- Create a new listening socket and add it to the reactor. -/
def createListeningSocket (A : Slots) (port : UInt16) (r : ReactorInner) :
    Except ListenError SocketHandle × ReactorInner :=
  match Socket.new.listen port with
  | .error e => (.error e, r)
  | .ok socket =>
      let added := r.sockets.add A (.tcp socket)
      (.ok added.1, { r with sockets := added.2 })

/-- The loop of `bind_with_backlog`; a failure leaves what was added before. -/
def createAll (A : Slots) (port : UInt16) :
    Nat → List SocketHandle → ReactorInner → Except ListenError (List SocketHandle) × ReactorInner
  | 0, handles, r => (.ok handles, r)
  | n + 1, handles, r =>
      match createListeningSocket A port r with
      | (.ok h, r) => createAll A port n (handles ++ [h]) r
      | (.error e, r) => (.error e, r)

/-- Bind with a backlog of at least one socket. -/
def bindWithBacklog (A : Slots) (port : UInt16) (backlog : Nat) (r : ReactorInner) :
    Except ListenError TcpListener × ReactorInner :=
  match createAll A port (max backlog 1) [] r with
  | (.ok handles, r) => (.ok ⟨handles, port⟩, r)
  | (.error e, r) => (.error e, r)

def bind (A : Slots) (port : UInt16) (r : ReactorInner) :
    Except ListenError TcpListener × ReactorInner :=
  bindWithBacklog A port 2 r

/-- The states of the internal sockets. -/
def states (r : ReactorInner) : List SocketHandle → Except SocketPanic (List State)
  | [] => .ok []
  | h :: hs =>
      match r.sockets.getTcp h with
      | .error p => .error p
      | .ok socket =>
          match states r hs with
          | .ok sts => .ok (socket.state :: sts)
          | .error p => .error p

/-- `Drop`: every socket is aborted, if it is not closed, and removed. -/
def dropAll : List SocketHandle → SocketSet → Except SocketPanic SocketSet
  | [], ss => .ok ss
  | h :: hs, ss =>
      match ss.getTcp h with
      | .error p => .error p
      | .ok socket =>
          let ss := if socket.state ≠ .closed then ss.setTcp h socket.abort else ss
          match ss.remove h with
          | .ok ss => dropAll hs ss
          | .error p => .error p

def drop (l : TcpListener) (r : ReactorInner) : Except SocketPanic ReactorInner :=
  match dropAll l.handles r.sockets with
  | .ok sockets => .ok { r with sockets }
  | .error p => .error p

end TcpListener

namespace AcceptFuture

/-- Index of the first established socket. -/
def findEstablished (ss : SocketSet) : List SocketHandle → Nat → Except SocketPanic (Option Nat)
  | [], _ => .ok none
  | h :: hs, i =>
      match ss.getTcp h with
      | .error p => .error p
      | .ok socket =>
          if socket.state = .established then .ok (some i) else findEstablished ss hs (i + 1)

/-- Are all sockets dead? -/
def allDead (ss : SocketSet) : List SocketHandle → Except SocketPanic Bool
  | [] => .ok true
  | h :: hs =>
      match ss.getTcp h with
      | .error p => .error p
      | .ok socket =>
          if socket.state = .closed ∨ socket.state = .timeWait then allDead ss hs
          else .ok false

/-- Register the receive waker on every socket. -/
def registerAll (cx : Waker) : List SocketHandle → SocketSet → Except SocketPanic SocketSet
  | [], ss => .ok ss
  | h :: hs, ss =>
      match ss.getTcp h with
      | .error p => .error p
      | .ok socket => registerAll cx hs (ss.setTcp h (socket.registerRecvWaker cx))

/-- Take an established socket and put a new listening one in its place, or
    fail if all are dead, or wait. -/
def poll (A : Slots) (cx : Waker) (l : TcpListener) (r : ReactorInner) :
    Except SocketPanic (Poll (Except ListenError TcpStream) × TcpListener × ReactorInner) :=
  match findEstablished r.sockets l.handles 0 with
  | .error p => .error p
  | .ok (some idx) =>
      match l.handles[idx]? with
      | none => .error .indexOutOfBounds
      | some connectedHandle =>
          match TcpListener.createListeningSocket A l.port r with
          | (.error e, r) => .ok (.ready (.error e), l, r)
          | (.ok newHandle, r) =>
              .ok (.ready (.ok ⟨connectedHandle⟩),
                { l with handles := l.handles.set idx newHandle }, r)
  | .ok none =>
      match allDead r.sockets l.handles with
      | .error p => .error p
      | .ok true => .ok (.ready (.error .unaddressable), l, r)
      | .ok false =>
          match registerAll cx l.handles r.sockets with
          | .ok sockets => .ok (.pending, l, { r with sockets })
          | .error p => .error p

end AcceptFuture

namespace UdpSocket

/-- Bind a UDP socket; the socket is bound before it is added, and whether that
    works is an argument. -/
def bind (A : Slots) (verdict : Except UdpBindError Unit) (r : ReactorInner) :
    Except UdpBindError UdpSocket × ReactorInner :=
  match verdict with
  | .error e => (.error e, r)
  | .ok () =>
      let added := r.sockets.add A .udp
      (.ok ⟨added.1⟩, { r with sockets := added.2 })

/-- Any other call on the socket looks it up first. -/
def lookup (u : UdpSocket) (r : ReactorInner) : Except SocketPanic Unit :=
  r.sockets.getUdp u.handle

/-- `Drop`: closed and removed. -/
def drop (u : UdpSocket) (r : ReactorInner) : Except SocketPanic ReactorInner :=
  match r.sockets.getUdp u.handle with
  | .error p => .error p
  | .ok () =>
      match r.sockets.remove u.handle with
      | .ok sockets => .ok { r with sockets }
      | .error p => .error p

end UdpSocket

namespace ReactorInner

/-- The `retain` of `cleanup_orphaned`: the handles kept, and the sockets left. -/
def retainOrphans : List SocketHandle → SocketSet →
    Except SocketPanic (List SocketHandle × SocketSet)
  | [], ss => .ok ([], ss)
  | h :: hs, ss =>
      match ss.getTcp h with
      | .error p => .error p
      | .ok socket =>
          match socket.state with
          | .closed | .timeWait =>
              match ss.remove h with
              | .ok ss => retainOrphans hs ss
              | .error p => .error p
          | _ =>
              match retainOrphans hs ss with
              | .ok (kept, ss) => .ok (h :: kept, ss)
              | .error p => .error p

/-- Remove the orphans that have completed their close. -/
def cleanupOrphaned (r : ReactorInner) : Except SocketPanic ReactorInner :=
  match retainOrphans r.orphanedClosing r.sockets with
  | .ok (kept, sockets) => .ok ⟨sockets, kept⟩
  | .error p => .error p

end ReactorInner

/-! ## What the loops do

    `Minus gone` relates a set to one from which the sockets `gone` have been
    removed and in which the others kept their kind. -/

namespace SocketSet

/-- Every handle of the list is a TCP socket. -/
def AllTcp (ss : SocketSet) (hs : List SocketHandle) : Prop :=
  ∀ h ∈ hs, ∃ st, ss.kind h = some (.tcp st)

structure Minus (ss ss' : SocketSet) (gone : List SocketHandle) : Prop where
  keys : (gone ++ ss'.live.keys).Perm ss.live.keys
  kind : ∀ h, h ∉ gone → ss'.kind h = ss.kind h

namespace Minus

variable {ss ss' ss'' : SocketSet} {h : SocketHandle}

theorem refl (ss : SocketSet) : Minus ss ss [] := ⟨List.Perm.refl _, fun _ _ => rfl⟩

theorem trans {gone gone' : List SocketHandle} (h1 : Minus ss ss' gone)
    (h2 : Minus ss' ss'' gone') : Minus ss ss'' (gone ++ gone') := by
  refine ⟨?_, fun k hk => ?_⟩
  · rw [List.append_assoc]
    exact (h2.keys.append_left gone).trans h1.keys
  · rw [List.mem_append, not_or] at hk
    exact (h2.kind k hk.2).trans (h1.kind k hk.1)

theorem erase (hm : h ∈ ss.live.keys) : Minus ss { ss with live := ss.live.erase h } [h] := by
  refine ⟨?_, fun k hk => kind_erase_ne (fun heq => hk (List.mem_singleton.mpr heq))⟩
  show (h :: (ss.live.erase h).keys).Perm _
  rw [AList.keys_erase]
  exact (List.perm_cons_erase hm).symm

/-- Writing to a socket that is then removed. -/
theorem setTcp_erase (t : Tcp.Socket) (hm : h ∈ ss.live.keys) :
    Minus ss { ss.setTcp h t with live := (ss.setTcp h t).live.erase h } [h] := by
  have hperm := keys_setTcp t hm
  have he : Minus (ss.setTcp h t) _ [h] := erase (hperm.mem_iff.mpr hm)
  refine ⟨he.keys.trans hperm, fun k hk => ?_⟩
  have hne : k ≠ h := fun heq => hk (List.mem_singleton.mpr heq)
  exact (he.kind k hk).trans (kind_setTcp_ne t hne)

theorem allTcp {gone hs : List SocketHandle} (hmin : Minus ss ss' gone) (hall : ss.AllTcp hs)
    (hdisj : ∀ h ∈ hs, h ∉ gone) : ss'.AllTcp hs := by
  intro k hk
  obtain ⟨st, hst⟩ := hall k hk
  exact ⟨st, (hmin.kind k (hdisj k hk)).trans hst⟩

end Minus

theorem AllTcp.mem_keys {ss : SocketSet} {hs : List SocketHandle} (hall : ss.AllTcp hs)
    {h : SocketHandle} (hm : h ∈ hs) : h ∈ ss.live.keys := by
  obtain ⟨st, hst⟩ := hall h hm
  exact kind_isSome.mp (by rw [hst]; rfl)

end SocketSet

open SocketSet

theorem TcpListener.createListeningSocket_ok (A : Slots) {port : UInt16} (hp : port ≠ 0)
    (r : ReactorInner) :
    createListeningSocket A port r =
      (.ok (r.sockets.add A (.tcp (Socket.new.setState .listen))).1,
        { r with sockets := (r.sockets.add A (.tcp (Socket.new.setState .listen))).2 }) := by
  rw [createListeningSocket, Socket.listen, if_neg hp]

/-- The bind loop adds `n` sockets in state Listen, all at fresh handles. -/
theorem TcpListener.createAll_ok (A : Slots) {port : UInt16} (hp : port ≠ 0) :
    ∀ (n : Nat) (handles : List SocketHandle) (r : ReactorInner),
      ∃ new ss', createAll A port n handles r
          = (.ok (handles ++ new), { r with sockets := ss' }) ∧
        new.length = n ∧
        (new ++ r.sockets.live.keys).Perm ss'.live.keys ∧
        (∀ h ∈ new, ss'.kind h = some (.tcp .listen)) ∧
        (∀ h, (r.sockets.kind h).isSome = true → ss'.kind h = r.sockets.kind h) := by
  intro n
  induction n with
  | zero =>
      intro handles r
      exact ⟨[], r.sockets, by rw [createAll, List.append_nil], rfl, List.Perm.refl _, nofun,
        fun _ _ => rfl⟩
  | succ n ih =>
      intro handles r
      let s : Socket := .tcp (Socket.new.setState .listen)
      obtain ⟨new, ss', heq, hlen, hperm, hnew, hold⟩ :=
        ih (handles ++ [(r.sockets.add A s).1]) { r with sockets := (r.sockets.add A s).2 }
      refine ⟨(r.sockets.add A s).1 :: new, ss', ?_, ?_, ?_, ?_, ?_⟩
      · rw [createAll, createListeningSocket_ok A hp]
        simp only []
        rw [heq, List.append_assoc]
        rfl
      · rw [List.length_cons, hlen]
      · have hkeys : (new ++ (r.sockets.add A s).2.live.keys).Perm ss'.live.keys := hperm
        rw [keys_add] at hkeys
        exact List.perm_middle.symm.trans hkeys
      · intro h hm
        rcases List.mem_cons.mp hm with rfl | hm
        · have hk : (r.sockets.add A s).2.kind (r.sockets.add A s).1 = some (.tcp .listen) :=
            kind_add A r.sockets s
          exact (hold _ (by rw [hk]; rfl)).trans hk
        · exact hnew h hm
      · intro h hs
        have hk := kind_add_of_isSome A s hs
        exact (hold h (by rw [hk]; exact hs)).trans hk

/-- Dropping a listener removes exactly its sockets. -/
theorem TcpListener.dropAll_ok :
    ∀ (hs : List SocketHandle) (ss : SocketSet), hs.Nodup → ss.AllTcp hs →
      ∃ ss', dropAll hs ss = .ok ss' ∧ Minus ss ss' hs := by
  intro hs
  induction hs with
  | nil => intro ss _ _; exact ⟨ss, rfl, Minus.refl ss⟩
  | cons h hs ih =>
      intro ss hnd hall
      obtain ⟨st, hst⟩ := hall h List.mem_cons_self
      obtain ⟨t, ht, -⟩ := getTcp_of_kind hst
      have hm : h ∈ ss.live.keys := hall.mem_keys List.mem_cons_self
      rw [List.nodup_cons] at hnd
      -- the first socket goes, aborted before or not
      obtain ⟨ss₁, hrem, hmin⟩ : ∃ ss₁,
          (if t.state ≠ .closed then ss.setTcp h t.abort else ss).remove h = .ok ss₁ ∧
            Minus ss ss₁ [h] := by
        by_cases hc : t.state ≠ .closed
        · rw [if_pos hc, remove_of_mem ((keys_setTcp t.abort hm).mem_iff.mpr hm)]
          exact ⟨_, rfl, Minus.setTcp_erase t.abort hm⟩
        · rw [if_neg hc, remove_of_mem hm]
          exact ⟨_, rfl, Minus.erase hm⟩
      have hall₁ : ss₁.AllTcp hs := by
        refine hmin.allTcp (fun k hk => hall k (List.mem_cons_of_mem _ hk)) (fun k hk hkh => ?_)
        rw [List.mem_singleton] at hkh
        exact hnd.1 (hkh ▸ hk)
      obtain ⟨ss', heq, hmin'⟩ := ih ss₁ hnd.2 hall₁
      refine ⟨ss', ?_, hmin.trans hmin'⟩
      simp only [dropAll, ht, hrem]
      exact heq

/-- The orphan sweep removes the orphans that are closed and keeps the others. -/
theorem ReactorInner.retainOrphans_ok :
    ∀ (hs : List SocketHandle) (ss : SocketSet), hs.Nodup → ss.AllTcp hs →
      ∃ kept gone ss', retainOrphans hs ss = .ok (kept, ss') ∧ (gone ++ kept).Perm hs ∧
        Minus ss ss' gone := by
  intro hs
  induction hs with
  | nil => intro ss _ _; exact ⟨[], [], ss, rfl, List.Perm.refl _, Minus.refl ss⟩
  | cons h hs ih =>
      intro ss hnd hall
      obtain ⟨st, hst⟩ := hall h List.mem_cons_self
      obtain ⟨t, ht, -⟩ := getTcp_of_kind hst
      have hm : h ∈ ss.live.keys := hall.mem_keys List.mem_cons_self
      have htail : ss.AllTcp hs := fun k hk => hall k (List.mem_cons_of_mem _ hk)
      rw [List.nodup_cons] at hnd
      by_cases hc : t.state = .closed ∨ t.state = .timeWait
      · have hmin := Minus.erase hm
        have hall₁ := hmin.allTcp htail (fun k hk hkh => by
          rw [List.mem_singleton] at hkh
          exact hnd.1 (hkh ▸ hk))
        obtain ⟨kept, gone, ss', heq, hperm, hmin'⟩ := ih _ hnd.2 hall₁
        refine ⟨kept, h :: gone, ss', ?_, hperm.cons h, hmin.trans hmin'⟩
        rcases hc with hc | hc
        · simp only [retainOrphans, ht, hc, remove_of_mem hm]
          exact heq
        · simp only [retainOrphans, ht, hc, remove_of_mem hm]
          exact heq
      · rw [not_or] at hc
        obtain ⟨kept, gone, ss', heq, hperm, hmin'⟩ := ih ss hnd.2 htail
        refine ⟨h :: kept, gone, ss', ?_, List.perm_middle.trans (hperm.cons h), hmin'⟩
        simp only [retainOrphans, ht]
        split
        · exact absurd ‹_› hc.1
        · exact absurd ‹_› hc.2
        · rw [heq]

namespace AcceptFuture

theorem findEstablished_ok (ss : SocketSet) :
    ∀ (hs : List SocketHandle) (i : Nat), ss.AllTcp hs →
      (∃ k h, findEstablished ss hs i = .ok (some (i + k)) ∧ hs[k]? = some h ∧
        ss.kind h = some (.tcp .established)) ∨
      (findEstablished ss hs i = .ok none ∧
        ∀ h ∈ hs, ss.kind h ≠ some (.tcp .established)) := by
  intro hs
  induction hs with
  | nil => intro i _; exact Or.inr ⟨rfl, nofun⟩
  | cons h hs ih =>
      intro i hall
      obtain ⟨st, hst⟩ := hall h List.mem_cons_self
      obtain ⟨t, ht, rfl⟩ := getTcp_of_kind hst
      by_cases he : t.state = .established
      · refine Or.inl ⟨0, h, ?_, rfl, by rw [hst, he]⟩
        simp only [findEstablished, ht, if_pos he, Nat.add_zero]
      · have hstep : findEstablished ss (h :: hs) i = findEstablished ss hs (i + 1) := by
          simp only [findEstablished, ht, if_neg he]
        rw [hstep]
        rcases ih (i + 1) (fun k hk => hall k (List.mem_cons_of_mem _ hk)) with
          ⟨k, h', h1, h2, h3⟩ | ⟨h1, h2⟩
        · exact Or.inl ⟨k + 1, h', by rw [h1, Nat.add_right_comm, Nat.add_assoc], h2, h3⟩
        · refine Or.inr ⟨h1, fun k hk => ?_⟩
          rcases List.mem_cons.mp hk with rfl | hk
          · rw [hst]
            intro heq
            injection heq with heq
            injection heq with heq
            exact he heq
          · exact h2 k hk

theorem allDead_ok (ss : SocketSet) :
    ∀ (hs : List SocketHandle), ss.AllTcp hs →
      ∃ b, allDead ss hs = .ok b ∧ (b = true ↔
        ∀ h ∈ hs, ss.kind h = some (.tcp .closed) ∨ ss.kind h = some (.tcp .timeWait)) := by
  intro hs
  induction hs with
  | nil => intro _; exact ⟨true, rfl, iff_of_true rfl (List.forall_mem_nil _)⟩
  | cons h hs ih =>
      intro hall
      obtain ⟨st, hst⟩ := hall h List.mem_cons_self
      obtain ⟨t, ht, rfl⟩ := getTcp_of_kind hst
      have hdead : (ss.kind h = some (.tcp .closed) ∨ ss.kind h = some (.tcp .timeWait)) ↔
          (t.state = .closed ∨ t.state = .timeWait) := by
        rw [hst]
        simp
      by_cases hc : t.state = .closed ∨ t.state = .timeWait
      · obtain ⟨b, hb, hiff⟩ := ih (fun k hk => hall k (List.mem_cons_of_mem _ hk))
        refine ⟨b, ?_, ?_⟩
        · simp only [allDead, ht, if_pos hc]
          exact hb
        · rw [hiff, List.forall_mem_cons]
          exact ⟨fun h' => ⟨hdead.mpr hc, h'⟩, fun h' => h'.2⟩
      · refine ⟨false, ?_, iff_of_false Bool.false_ne_true ?_⟩
        · simp only [allDead, ht, if_neg hc]
        · intro h'
          exact hc (hdead.mp (h' h List.mem_cons_self))

/-- Registering wakers changes no state and no handle. -/
theorem registerAll_ok (cx : Waker) :
    ∀ (hs : List SocketHandle) (ss : SocketSet), ss.AllTcp hs →
      ∃ ss', registerAll cx hs ss = .ok ss' ∧ Minus ss ss' [] := by
  intro hs
  induction hs with
  | nil => intro ss _; exact ⟨ss, rfl, Minus.refl ss⟩
  | cons h hs ih =>
      intro ss hall
      obtain ⟨st, hst⟩ := hall h List.mem_cons_self
      obtain ⟨t, ht, rfl⟩ := getTcp_of_kind hst
      have hm : h ∈ ss.live.keys := hall.mem_keys List.mem_cons_self
      have hmin : Minus ss (ss.setTcp h (t.registerRecvWaker cx)) [] := by
        refine ⟨keys_setTcp _ hm, fun k _ => ?_⟩
        by_cases hk : k = h
        · subst hk
          rw [kind_setTcp, hst]
          rfl
        · exact kind_setTcp_ne _ hk
      obtain ⟨ss', heq, hmin'⟩ := ih _
        (hmin.allTcp (fun k hk => hall k (List.mem_cons_of_mem _ hk)) (fun _ _ => List.not_mem_nil))
      refine ⟨ss', ?_, hmin.trans hmin'⟩
      simp only [registerAll, ht]
      exact heq

/-- **ACCEPT**: on a listener whose handles are TCP sockets and whose port is
    not 0, a poll hands out an established socket and replaces it, or reports
    that all are dead, or registers its wakers and waits. -/
theorem poll_cases (A : Slots) (cx : Waker) {l : TcpListener} {r : ReactorInner}
    (hall : r.sockets.AllTcp l.handles) (hp : l.port ≠ 0) :
    (∃ idx h, l.handles[idx]? = some h ∧ r.sockets.kind h = some (.tcp .established) ∧
      poll A cx l r = .ok (.ready (.ok ⟨h⟩),
        { l with
          handles := l.handles.set idx (r.sockets.add A (.tcp (Socket.new.setState .listen))).1 },
        { r with sockets := (r.sockets.add A (.tcp (Socket.new.setState .listen))).2 })) ∨
    ((∀ h ∈ l.handles,
        r.sockets.kind h = some (.tcp .closed) ∨ r.sockets.kind h = some (.tcp .timeWait)) ∧
      poll A cx l r = .ok (.ready (.error .unaddressable), l, r)) ∨
    ((∀ h ∈ l.handles, r.sockets.kind h ≠ some (.tcp .established)) ∧
      ∃ ss', Minus r.sockets ss' [] ∧
        poll A cx l r = .ok (.pending, l, { r with sockets := ss' })) := by
  rcases findEstablished_ok r.sockets l.handles 0 hall with ⟨k, h, hf, hk, hst⟩ | ⟨hf, hno⟩
  · rw [Nat.zero_add] at hf
    refine Or.inl ⟨k, h, hk, hst, ?_⟩
    simp only [poll, hf, hk, TcpListener.createListeningSocket_ok A hp]
  · obtain ⟨b, hb, hdead⟩ := allDead_ok r.sockets l.handles hall
    cases b with
    | true =>
        refine Or.inr (Or.inl ⟨hdead.mp rfl, ?_⟩)
        simp only [poll, hf, hb]
    | false =>
        obtain ⟨ss', hreg, hmin⟩ := registerAll_ok cx l.handles r.sockets hall
        refine Or.inr (Or.inr ⟨hno, ss', hmin, ?_⟩)
        simp only [poll, hf, hb, hreg]

end AcceptFuture

end DpdkNet
