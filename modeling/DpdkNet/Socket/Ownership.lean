import DpdkNet.Lib.Runs
import DpdkNet.Socket.Tcp

/-! # Every socket has exactly one owner

    A program with one reactor: the streams, listeners and UDP sockets alive in
    it, and every call on them, interleaved with the network (any TCP socket may
    go to any state at any time) and with the reactor's sweep.

    The handles of the four kinds of owner, put side by side, are a permutation
    of the handles in use (`Owned.keys`).  As the handles in use are distinct,
    so are the owners: nobody holds a handle twice, nobody holds one that is not
    in use, and none in use is forgotten. -/

namespace DpdkNet

open Tcp SocketSet Runs

/-! ## The program -/

/-- A listener, with the backlog it was asked to have. -/
structure OpenListener where
  listener : TcpListener
  backlog : Nat

structure Program where
  reactor : ReactorInner
  streams : List TcpStream
  listeners : List OpenListener
  udps : List UdpSocket

def Program.start : Program := ⟨.new, [], [], []⟩

inductive SockOp where
  | connect (verdict : Except ConnectError Unit)
  | bindWithBacklog (port : UInt16) (backlog : Nat)
  /-- Poll the accept future of the `i`-th listener. -/
  | accept (i : Nat) (cx : Waker)
  /-- Any call on the `i`-th stream that only looks at its socket. -/
  | streamState (i : Nat)
  | closeStream (i : Nat)
  | abortStream (i : Nat)
  | dropStream (i : Nat)
  | listenerStates (i : Nat)
  | dropListener (i : Nat)
  | udpBind (verdict : Except UdpBindError Unit)
  | udpLookup (i : Nat)
  | dropUdp (i : Nat)
  /-- The network, or a timer, moves the TCP socket at `h` to a state. -/
  | network (h : SocketHandle) (st : State)
  | cleanupOrphaned

/-- Why a run stops: a panic, or an operation on something that is not there
    (which no program can write down). -/
inductive SockHalt where
  | panicked (p : SocketPanic)
  | absent

/-- The stream that a poll hands out. -/
def Poll.stream : Poll (Except ListenError TcpStream) → List TcpStream
  | .ready (.ok stream) => [stream]
  | _ => []

def Program.step (A : Slots) (p : Program) : SockOp → Except SockHalt Program
  | .connect verdict =>
      match TcpStream.connect A verdict p.reactor with
      | (.ok stream, reactor) => .ok { p with reactor, streams := p.streams ++ [stream] }
      | (.error _, reactor) => .ok { p with reactor }
  | .bindWithBacklog port backlog =>
      match TcpListener.bindWithBacklog A port backlog p.reactor with
      | (.ok listener, reactor) =>
          .ok { p with reactor, listeners := p.listeners ++ [⟨listener, backlog⟩] }
      | (.error _, reactor) => .ok { p with reactor }
  | .accept i cx =>
      match p.listeners[i]? with
      | none => .error .absent
      | some l =>
          match AcceptFuture.poll A cx l.listener p.reactor with
          | .error e => .error (.panicked e)
          | .ok (res, listener, reactor) =>
              .ok { p with
                reactor
                streams := p.streams ++ res.stream
                listeners := p.listeners.set i { l with listener } }
  | .streamState i =>
      match p.streams[i]? with
      | none => .error .absent
      | some stream =>
          match stream.state p.reactor with
          | .error e => .error (.panicked e)
          | .ok _ => .ok p
  | .closeStream i =>
      match p.streams[i]? with
      | none => .error .absent
      | some stream =>
          match stream.close p.reactor with
          | .error e => .error (.panicked e)
          | .ok reactor => .ok { p with reactor }
  | .abortStream i =>
      match p.streams[i]? with
      | none => .error .absent
      | some stream =>
          match stream.abort p.reactor with
          | .error e => .error (.panicked e)
          | .ok reactor => .ok { p with reactor }
  | .dropStream i =>
      match p.streams[i]? with
      | none => .error .absent
      | some stream =>
          match stream.drop p.reactor with
          | .error e => .error (.panicked e)
          | .ok reactor => .ok { p with reactor, streams := p.streams.eraseIdx i }
  | .listenerStates i =>
      match p.listeners[i]? with
      | none => .error .absent
      | some l =>
          match TcpListener.states p.reactor l.listener.handles with
          | .error e => .error (.panicked e)
          | .ok _ => .ok p
  | .dropListener i =>
      match p.listeners[i]? with
      | none => .error .absent
      | some l =>
          match l.listener.drop p.reactor with
          | .error e => .error (.panicked e)
          | .ok reactor => .ok { p with reactor, listeners := p.listeners.eraseIdx i }
  | .udpBind verdict =>
      match UdpSocket.bind A verdict p.reactor with
      | (.ok udp, reactor) => .ok { p with reactor, udps := p.udps ++ [udp] }
      | (.error _, reactor) => .ok { p with reactor }
  | .udpLookup i =>
      match p.udps[i]? with
      | none => .error .absent
      | some udp =>
          match udp.lookup p.reactor with
          | .error e => .error (.panicked e)
          | .ok () => .ok p
  | .dropUdp i =>
      match p.udps[i]? with
      | none => .error .absent
      | some udp =>
          match udp.drop p.reactor with
          | .error e => .error (.panicked e)
          | .ok reactor => .ok { p with reactor, udps := p.udps.eraseIdx i }
  | .network h st =>
      match p.reactor.sockets.getTcp h with
      | .error _ => .error .absent
      | .ok t =>
          .ok { p with
            reactor := { p.reactor with sockets := p.reactor.sockets.setTcp h (t.setState st) } }
  | .cleanupOrphaned =>
      match p.reactor.cleanupOrphaned with
      | .error e => .error (.panicked e)
      | .ok reactor => .ok { p with reactor }

/-! ## Owners -/

namespace Program

/-- The handles held by streams, listeners and the orphan list. -/
def tcpOwners (p : Program) : List SocketHandle :=
  p.streams.map TcpStream.handle ++ p.listeners.flatMap (fun l => l.listener.handles)
    ++ p.reactor.orphanedClosing

/-- All handles held. -/
def owners (p : Program) : List SocketHandle := p.tcpOwners ++ p.udps.map UdpSocket.handle

end Program

/-- The invariant. -/
structure Owned (p : Program) : Prop where
  keys : p.owners.Perm p.reactor.sockets.live.keys
  tcp : p.reactor.sockets.AllTcp p.tcpOwners
  udp : ∀ h ∈ p.udps.map UdpSocket.handle, p.reactor.sockets.kind h = some .udp
  backlog : ∀ l ∈ p.listeners,
    l.listener.handles.length = max l.backlog 1 ∧ l.listener.port ≠ 0

theorem Owned.nodup {p : Program} (hp : Owned p) : p.owners.Nodup :=
  hp.keys.nodup_iff.mpr p.reactor.sockets.live.keys_nodup

theorem Owned.isSome {p : Program} (hp : Owned p) {h : SocketHandle} (hm : h ∈ p.owners) :
    (p.reactor.sockets.kind h).isSome = true :=
  kind_isSome.mpr (hp.keys.mem_iff.mp hm)

theorem mem_owners_of_tcp {p : Program} {h : SocketHandle} (hm : h ∈ p.tcpOwners) :
    h ∈ p.owners := List.mem_append_left _ hm

theorem mem_owners_of_udp {p : Program} {h : SocketHandle}
    (hm : h ∈ p.udps.map UdpSocket.handle) : h ∈ p.owners := List.mem_append_right _ hm

/-! Three ways for the sockets and their owners to change together. -/

/-- **NEW SOCKETS**: each of them gets an owner, and nobody else changes. -/
theorem Owned.grow {p p' : Program} (hp : Owned p) (new : List SocketHandle)
    (hkeys : (new ++ p.reactor.sockets.live.keys).Perm p'.reactor.sockets.live.keys)
    (hkind : ∀ h, (p.reactor.sockets.kind h).isSome = true →
      p'.reactor.sockets.kind h = p.reactor.sockets.kind h)
    (howners : p'.owners.Perm (new ++ p.owners))
    (htcp : ∀ h ∈ p'.tcpOwners, h ∈ p.tcpOwners ∨
      ∃ st, p'.reactor.sockets.kind h = some (.tcp st))
    (hudp : ∀ h ∈ p'.udps.map UdpSocket.handle, h ∈ p.udps.map UdpSocket.handle ∨
      p'.reactor.sockets.kind h = some .udp)
    (hbacklog : ∀ l ∈ p'.listeners,
      l.listener.handles.length = max l.backlog 1 ∧ l.listener.port ≠ 0) : Owned p' := by
  refine ⟨(howners.trans (hp.keys.append_left new)).trans hkeys, ?_, ?_, hbacklog⟩
  · intro h hm
    rcases htcp h hm with hold | hnew
    · obtain ⟨st, hst⟩ := hp.tcp h hold
      exact ⟨st, (hkind h (hp.isSome (mem_owners_of_tcp hold))).trans hst⟩
    · exact hnew
  · intro h hm
    rcases hudp h hm with hold | hnew
    · exact (hkind h (hp.isSome (mem_owners_of_udp hold))).trans (hp.udp h hold)
    · exact hnew

/-- **SOCKETS REMOVED** together with their owners. -/
theorem Owned.shrink {p p' : Program} (hp : Owned p) (gone : List SocketHandle)
    (hmin : Minus p.reactor.sockets p'.reactor.sockets gone)
    (howners : (gone ++ p'.owners).Perm p.owners)
    (htcp : p'.tcpOwners ⊆ p.tcpOwners)
    (hudp : p'.udps ⊆ p.udps) (hlisten : p'.listeners ⊆ p.listeners) : Owned p' := by
  -- as the owners are distinct, nobody left owns what is gone
  have hleft : ∀ h ∈ p'.owners, h ∉ gone := by
    have hnd : (gone ++ p'.owners).Nodup := howners.nodup_iff.mpr hp.nodup
    intro h hm hg
    exact (List.nodup_append.mp hnd).2.2 h hg h hm rfl
  refine ⟨?_, ?_, ?_, fun l hl => hp.backlog l (hlisten hl)⟩
  · exact (List.perm_append_left_iff gone).mp
      ((howners.trans hp.keys).trans hmin.keys.symm)
  · exact hmin.allTcp (fun h hm => hp.tcp h (htcp hm))
      (fun h hm => hleft h (mem_owners_of_tcp hm))
  · intro h hm
    obtain ⟨u, hu, rfl⟩ := List.mem_map.mp hm
    rw [hmin.kind _ (hleft _ (mem_owners_of_udp hm))]
    exact hp.udp _ (List.mem_map_of_mem (hudp hu))

/-- **STATES CHANGED**: the handles and the types stay. -/
structure SocketSet.Retyped (ss ss' : SocketSet) : Prop where
  keys : ss'.live.keys.Perm ss.live.keys
  tcp : ∀ hs, ss.AllTcp hs → ss'.AllTcp hs
  udp : ∀ h, ss.kind h = some .udp → ss'.kind h = some .udp

theorem SocketSet.Retyped.refl (ss : SocketSet) : Retyped ss ss :=
  ⟨List.Perm.refl _, fun _ h => h, fun _ h => h⟩

theorem SocketSet.Retyped.setTcp {ss : SocketSet} {h : SocketHandle} {st : State}
    (hk : ss.kind h = some (.tcp st)) (t : Tcp.Socket) : Retyped ss (ss.setTcp h t) := by
  refine ⟨keys_setTcp t (kind_isSome.mp (by rw [hk]; rfl)), fun hs hall m hm => ?_,
    fun m hm => ?_⟩
  · by_cases hmh : m = h
    · subst hmh
      exact ⟨_, kind_setTcp t⟩
    · obtain ⟨st', hst'⟩ := hall m hm
      exact ⟨st', (kind_setTcp_ne t hmh).trans hst'⟩
  · have hmh : m ≠ h := by
      rintro rfl
      rw [hk] at hm
      cases hm
    exact (kind_setTcp_ne t hmh).trans hm

theorem Owned.retype {p p' : Program} (hp : Owned p)
    (hss : Retyped p.reactor.sockets p'.reactor.sockets) (howners : p'.owners.Perm p.owners)
    (htcp : p'.tcpOwners ⊆ p.tcpOwners) (hudp : p'.udps = p.udps)
    (hlisten : p'.listeners = p.listeners) : Owned p' := by
  refine ⟨(howners.trans hp.keys).trans hss.keys.symm, ?_, ?_, ?_⟩
  · exact hss.tcp _ (fun h hm => hp.tcp h (htcp hm))
  · rw [hudp]
    exact fun h hm => hss.udp h (hp.udp h hm)
  · rw [hlisten]
    exact hp.backlog

/-! ## Counting owners

    All rearrangements of owners are checked by counting each handle. -/

theorem perm_eraseIdx {α : Type} {xs : List α} {i : Nat} {x : α} (h : xs[i]? = some x) :
    ([x] ++ xs.eraseIdx i).Perm xs := by
  obtain ⟨hi, rfl⟩ := List.getElem?_eq_some_iff.mp h
  exact List.getElem_cons_eraseIdx_perm hi

theorem perm_set {α : Type} {xs : List α} {i : Nat} {x : α} (h : xs[i]? = some x) (y : α) :
    (xs.set i y).Perm ([y] ++ xs.eraseIdx i) := by
  obtain ⟨hi, rfl⟩ := List.getElem?_eq_some_iff.mp h
  exact List.set_perm_cons_eraseIdx hi y

theorem count_streams {p : Program} {i : Nat} {stream : TcpStream}
    (h : p.streams[i]? = some stream) (k : SocketHandle) :
    (p.streams.map TcpStream.handle).count k =
      [stream.handle].count k + ((p.streams.eraseIdx i).map TcpStream.handle).count k := by
  rw [← ((perm_eraseIdx h).map TcpStream.handle).count_eq k, List.map_append, List.count_append]
  rfl

theorem count_udps {p : Program} {i : Nat} {udp : UdpSocket}
    (h : p.udps[i]? = some udp) (k : SocketHandle) :
    (p.udps.map UdpSocket.handle).count k =
      [udp.handle].count k + ((p.udps.eraseIdx i).map UdpSocket.handle).count k := by
  rw [← ((perm_eraseIdx h).map UdpSocket.handle).count_eq k, List.map_append, List.count_append]
  rfl

theorem count_listeners {p : Program} {i : Nat} {l : OpenListener}
    (h : p.listeners[i]? = some l) (k : SocketHandle) :
    (p.listeners.flatMap (fun l => l.listener.handles)).count k =
      l.listener.handles.count k
        + ((p.listeners.eraseIdx i).flatMap (fun l => l.listener.handles)).count k := by
  rw [← ((perm_eraseIdx h).flatMap_right (fun l => l.listener.handles)).count_eq k,
    List.flatMap_append, List.count_append, List.flatMap_singleton]

theorem count_listeners_set {p : Program} {i : Nat} {l : OpenListener}
    (h : p.listeners[i]? = some l) (l' : OpenListener) (k : SocketHandle) :
    ((p.listeners.set i l').flatMap (fun l => l.listener.handles)).count k =
      l'.listener.handles.count k
        + ((p.listeners.eraseIdx i).flatMap (fun l => l.listener.handles)).count k := by
  rw [((perm_set h l').flatMap_right (fun l => l.listener.handles)).count_eq k,
    List.flatMap_append, List.count_append, List.flatMap_singleton]

namespace Owned

variable {p : Program} {h : SocketHandle}

theorem stream_mem {i : Nat} {stream : TcpStream} (hi : p.streams[i]? = some stream) :
    stream.handle ∈ p.tcpOwners :=
  List.mem_append_left _ (List.mem_append_left _
    (List.mem_map_of_mem (List.mem_of_getElem? hi)))

theorem listener_mem {i : Nat} {l : OpenListener} (hi : p.listeners[i]? = some l)
    (hm : h ∈ l.listener.handles) : h ∈ p.tcpOwners :=
  List.mem_append_left _ (List.mem_append_right _
    (List.mem_flatMap.mpr ⟨l, List.mem_of_getElem? hi, hm⟩))

/-- The sublist of the owners that one listener holds. -/
theorem listener_nodup (hp : Owned p) {i : Nat} {l : OpenListener}
    (hi : p.listeners[i]? = some l) : l.listener.handles.Nodup := by
  rw [List.nodup_iff_count_le_one]
  intro k
  have hone := List.nodup_iff_count_le_one.mp hp.nodup k
  rw [Program.owners, Program.tcpOwners, List.count_append, List.count_append,
    List.count_append, count_listeners hi k] at hone
  omega

theorem orphans_nodup (hp : Owned p) : p.reactor.orphanedClosing.Nodup := by
  rw [List.nodup_iff_count_le_one]
  intro k
  have hone := List.nodup_iff_count_le_one.mp hp.nodup k
  rw [Program.owners, Program.tcpOwners, List.count_append, List.count_append,
    List.count_append] at hone
  omega

/-! ## One operation at a time

    `Safe` is what every operation must be: it goes through and keeps the
    invariant, unless it names something that is not there. -/

variable {A : Slots}

end Owned

def Program.Safe (A : Slots) (p : Program) (op : SockOp) : Prop :=
  p.step A op = .error .absent ∨ ∃ p', p.step A op = .ok p' ∧ Owned p'

namespace Owned

variable {A : Slots} {p : Program}

theorem safe_connect (hp : Owned p) (verdict : Except ConnectError Unit) :
    p.Safe A (.connect verdict) := by
  cases verdict with
  | error e => exact Or.inr ⟨p, rfl, hp⟩
  | ok u =>
      refine Or.inr ⟨_, rfl,
        hp.grow [(p.reactor.sockets.add A (.tcp (Socket.new.setState .synSent))).1]
          ?_ ?_ ?_ ?_ ?_ hp.backlog⟩
      · exact List.Perm.of_eq (keys_add A p.reactor.sockets (.tcp (Socket.new.setState .synSent))).symm
      · exact fun h hs => kind_add_of_isSome A (.tcp (Socket.new.setState .synSent)) hs
      · refine List.perm_iff_count.mpr fun k => ?_
        simp only [Program.owners, Program.tcpOwners, List.map_append, List.map_cons,
          List.map_nil, List.count_append]
        omega
      · intro h hm
        simp only [Program.tcpOwners, List.map_append, List.mem_append, List.map_cons,
          List.map_nil, List.mem_singleton] at hm
        rcases hm with ((hm | rfl) | hm) | hm
        · exact Or.inl (List.mem_append_left _ (List.mem_append_left _ hm))
        · exact Or.inr ⟨_, kind_add A p.reactor.sockets (.tcp (Socket.new.setState .synSent))⟩
        · exact Or.inl (List.mem_append_left _ (List.mem_append_right _ hm))
        · exact Or.inl (List.mem_append_right _ hm)
      · exact fun h hm => Or.inl hm

theorem safe_bindWithBacklog (hp : Owned p) (port : UInt16) (backlog : Nat) :
    p.Safe A (.bindWithBacklog port backlog) := by
  by_cases hport : port = 0
  · -- the first socket already fails to listen
    subst hport
    obtain ⟨n, hn⟩ : ∃ n, max backlog 1 = n + 1 :=
      ⟨max backlog 1 - 1, (Nat.sub_add_cancel (Nat.le_max_right _ _)).symm⟩
    refine Or.inr ⟨p, ?_, hp⟩
    simp only [Program.step, TcpListener.bindWithBacklog, hn]
    rfl
  · obtain ⟨new, ss', heq, hlen, hkeys, hnew, hold⟩ :=
      TcpListener.createAll_ok A hport (max backlog 1) [] p.reactor
    have hstep : p.step A (.bindWithBacklog port backlog) = .ok
        { p with
          reactor := { p.reactor with sockets := ss' }
          listeners := p.listeners ++ [⟨⟨new, port⟩, backlog⟩] } := by
      simp only [Program.step, TcpListener.bindWithBacklog, heq]
      rfl
    refine Or.inr ⟨_, hstep, hp.grow new hkeys hold ?_ ?_ ?_ ?_⟩
    · refine List.perm_iff_count.mpr fun k => ?_
      simp only [Program.owners, Program.tcpOwners, List.flatMap_append, List.flatMap_singleton,
        List.count_append]
      omega
    · intro h hm
      simp only [Program.tcpOwners, List.flatMap_append, List.flatMap_singleton,
        List.mem_append] at hm
      rcases hm with (hm | hm | hm) | hm
      · exact Or.inl (List.mem_append_left _ (List.mem_append_left _ hm))
      · exact Or.inl (List.mem_append_left _ (List.mem_append_right _ hm))
      · exact Or.inr ⟨_, hnew h hm⟩
      · exact Or.inl (List.mem_append_right _ hm)
    · exact fun h hm => Or.inl hm
    · intro l hl
      rcases List.mem_append.mp hl with hl | hl
      · exact hp.backlog l hl
      · rw [List.mem_singleton.mp hl]
        exact ⟨hlen, hport⟩

theorem safe_udpBind (hp : Owned p) (verdict : Except UdpBindError Unit) :
    p.Safe A (.udpBind verdict) := by
  cases verdict with
  | error e => exact Or.inr ⟨p, rfl, hp⟩
  | ok u =>
      refine Or.inr ⟨_, rfl, hp.grow [(p.reactor.sockets.add A .udp).1] ?_ ?_ ?_ ?_ ?_ hp.backlog⟩
      · exact List.Perm.of_eq (keys_add A p.reactor.sockets .udp).symm
      · exact fun h hs => kind_add_of_isSome A .udp hs
      · refine List.perm_iff_count.mpr fun k => ?_
        simp only [Program.owners, Program.tcpOwners, List.map_append, List.map_cons,
          List.map_nil, List.count_append]
        omega
      · exact fun h hm => Or.inl hm
      · intro h hm
        rw [List.map_append, List.mem_append] at hm
        rcases hm with hm | hm
        · exact Or.inl hm
        · rw [List.map_singleton, List.mem_singleton] at hm
          subst hm
          exact Or.inr (kind_add A p.reactor.sockets .udp)

theorem safe_accept (hp : Owned p) (i : Nat) (cx : Waker) : p.Safe A (.accept i cx) := by
  cases hi : p.listeners[i]? with
  | none => exact Or.inl (by simp only [Program.step, hi])
  | some l =>
      obtain ⟨hlen, hport⟩ := hp.backlog l (List.mem_of_getElem? hi)
      have hall : p.reactor.sockets.AllTcp l.listener.handles :=
        fun h hm => hp.tcp h (listener_mem hi hm)
      rcases AcceptFuture.poll_cases A cx hall hport with
        ⟨idx, h, hidx, -, hpoll⟩ | ⟨-, hpoll⟩ | ⟨-, ss', hmin, hpoll⟩
      · -- the stream takes the handle, the new socket takes the slot
        refine Or.inr ⟨_, by simp only [Program.step, hi, hpoll]; rfl,
          hp.grow [(p.reactor.sockets.add A (.tcp (Socket.new.setState .listen))).1] ?_ ?_ ?_ ?_ ?_ ?_⟩
        · exact List.Perm.of_eq (keys_add A p.reactor.sockets (.tcp (Socket.new.setState .listen))).symm
        · exact fun h hs => kind_add_of_isSome A (.tcp (Socket.new.setState .listen)) hs
        · refine List.perm_iff_count.mpr fun k => ?_
          have hset := count_listeners_set hi
            ⟨⟨l.listener.handles.set idx
                (p.reactor.sockets.add A (.tcp (Socket.new.setState .listen))).1,
              l.listener.port⟩, l.backlog⟩ k
          have hold := count_listeners hi k
          have hslot := (perm_set hidx
            (p.reactor.sockets.add A (.tcp (Socket.new.setState .listen))).1).count_eq k
          have hslot' := (perm_eraseIdx hidx).count_eq k
          rw [List.count_append] at hslot hslot'
          simp only [Program.owners, Program.tcpOwners, Poll.stream, List.map_append,
            List.map_cons, List.map_nil, List.count_append]
          simp only [] at hset
          omega
        · intro m hm
          simp only [Program.tcpOwners, Poll.stream, List.map_append, List.mem_append,
            List.map_cons, List.map_nil, List.mem_singleton] at hm
          rcases hm with ((hm | rfl) | hm) | hm
          · exact Or.inl (List.mem_append_left _ (List.mem_append_left _ hm))
          · exact Or.inl (listener_mem hi (List.mem_of_getElem? hidx))
          · obtain ⟨l', hl', hm⟩ := List.mem_flatMap.mp hm
            rcases List.mem_or_eq_of_mem_set hl' with hl' | rfl
            · exact Or.inl (List.mem_append_left _ (List.mem_append_right _
                (List.mem_flatMap.mpr ⟨l', hl', hm⟩)))
            · rcases List.mem_or_eq_of_mem_set hm with hm | rfl
              · exact Or.inl (listener_mem hi hm)
              · exact Or.inr ⟨_, kind_add A p.reactor.sockets (.tcp (Socket.new.setState .listen))⟩
          · exact Or.inl (List.mem_append_right _ hm)
        · exact fun h hm => Or.inl hm
        · intro l' hl'
          rcases List.mem_or_eq_of_mem_set hl' with hl' | rfl
          · exact hp.backlog l' hl'
          · exact ⟨List.length_set.trans hlen, hport⟩
      · have hsame : p.listeners.set i l = p.listeners := by
          obtain ⟨hlt, rfl⟩ := List.getElem?_eq_some_iff.mp hi
          exact List.set_getElem_self hlt
        refine Or.inr ⟨p, ?_, hp⟩
        simp only [Program.step, hi, hpoll, Poll.stream, List.append_nil, hsame]
      · have hsame : p.listeners.set i l = p.listeners := by
          obtain ⟨hlt, rfl⟩ := List.getElem?_eq_some_iff.mp hi
          exact List.set_getElem_self hlt
        refine Or.inr ⟨{ p with reactor := { p.reactor with sockets := ss' } }, ?_,
          hp.shrink [] hmin (List.Perm.refl _) (List.Subset.refl _) (List.Subset.refl _)
            (List.Subset.refl _)⟩
        simp only [Program.step, hi, hpoll, Poll.stream, List.append_nil, hsame]

theorem safe_streamState (hp : Owned p) (i : Nat) : p.Safe A (.streamState i) := by
  cases hi : p.streams[i]? with
  | none => exact Or.inl (by simp only [Program.step, hi])
  | some stream =>
      obtain ⟨st, hst⟩ := hp.tcp _ (stream_mem hi)
      obtain ⟨t, ht, -⟩ := getTcp_of_kind hst
      exact Or.inr ⟨p, by simp only [Program.step, hi, TcpStream.state, ht], hp⟩

/-- `close` and `abort` write to the stream's socket. -/
theorem owned_setTcp (hp : Owned p) {h : SocketHandle} {t : Tcp.Socket}
    (hg : p.reactor.sockets.getTcp h = .ok t) (t' : Tcp.Socket) :
    Owned { p with reactor := { p.reactor with sockets := p.reactor.sockets.setTcp h t' } } :=
  hp.retype (Retyped.setTcp (kind_of_getTcp hg) t') (List.Perm.refl _) (List.Subset.refl _)
    rfl rfl

theorem safe_closeStream (hp : Owned p) (i : Nat) : p.Safe A (.closeStream i) := by
  cases hi : p.streams[i]? with
  | none => exact Or.inl (by simp only [Program.step, hi])
  | some stream =>
      obtain ⟨st, hst⟩ := hp.tcp _ (stream_mem hi)
      obtain ⟨t, ht, -⟩ := getTcp_of_kind hst
      exact Or.inr ⟨_, by simp only [Program.step, hi, TcpStream.close, ht],
        hp.owned_setTcp ht t.close⟩

theorem safe_abortStream (hp : Owned p) (i : Nat) : p.Safe A (.abortStream i) := by
  cases hi : p.streams[i]? with
  | none => exact Or.inl (by simp only [Program.step, hi])
  | some stream =>
      obtain ⟨st, hst⟩ := hp.tcp _ (stream_mem hi)
      obtain ⟨t, ht, -⟩ := getTcp_of_kind hst
      exact Or.inr ⟨_, by simp only [Program.step, hi, TcpStream.abort, ht],
        hp.owned_setTcp ht t.abort⟩

theorem safe_network (hp : Owned p) (h : SocketHandle) (st : State) :
    p.Safe A (.network h st) := by
  cases hg : p.reactor.sockets.getTcp h with
  | error e => exact Or.inl (by simp only [Program.step, hg])
  | ok t =>
      exact Or.inr ⟨_, by simp only [Program.step, hg], hp.owned_setTcp hg (t.setState st)⟩

/-- A dropped stream's socket goes, or the orphan list takes it over. -/
theorem drop_cases {r : ReactorInner} {stream : TcpStream} {st : State}
    (hst : r.sockets.kind stream.handle = some (.tcp st)) :
    (∃ ss', stream.drop r = .ok { r with sockets := ss' } ∧
      Minus r.sockets ss' [stream.handle]) ∨
    (∃ ss', stream.drop r = .ok ⟨ss', r.orphanedClosing ++ [stream.handle]⟩ ∧
      Retyped r.sockets ss') := by
  obtain ⟨t, ht, rfl⟩ := getTcp_of_kind hst
  have hm : stream.handle ∈ r.sockets.live.keys := kind_isSome.mp (by rw [hst]; rfl)
  have hrem := remove_of_mem hm
  cases hs : t.state with
  | closed => exact Or.inl ⟨_, by simp only [TcpStream.drop, ht, hs, hrem], Minus.erase hm⟩
  | timeWait => exact Or.inl ⟨_, by simp only [TcpStream.drop, ht, hs, hrem], Minus.erase hm⟩
  | finWait1 => exact Or.inr ⟨_, by simp only [TcpStream.drop, ht, hs], Retyped.refl _⟩
  | finWait2 => exact Or.inr ⟨_, by simp only [TcpStream.drop, ht, hs], Retyped.refl _⟩
  | closing => exact Or.inr ⟨_, by simp only [TcpStream.drop, ht, hs], Retyped.refl _⟩
  | lastAck => exact Or.inr ⟨_, by simp only [TcpStream.drop, ht, hs], Retyped.refl _⟩
  | listen => exact Or.inr ⟨_, by simp only [TcpStream.drop, ht, hs], Retyped.setTcp hst t.abort⟩
  | synSent => exact Or.inr ⟨_, by simp only [TcpStream.drop, ht, hs], Retyped.setTcp hst t.abort⟩
  | synReceived => exact Or.inr ⟨_, by simp only [TcpStream.drop, ht, hs], Retyped.setTcp hst t.abort⟩
  | established => exact Or.inr ⟨_, by simp only [TcpStream.drop, ht, hs], Retyped.setTcp hst t.abort⟩
  | closeWait => exact Or.inr ⟨_, by simp only [TcpStream.drop, ht, hs], Retyped.setTcp hst t.abort⟩

theorem safe_dropStream (hp : Owned p) (i : Nat) : p.Safe A (.dropStream i) := by
  cases hi : p.streams[i]? with
  | none => exact Or.inl (by simp only [Program.step, hi])
  | some stream =>
      obtain ⟨st, hst⟩ := hp.tcp _ (stream_mem hi)
      have hrest : ((p.streams.eraseIdx i).map TcpStream.handle) ⊆
          p.streams.map TcpStream.handle :=
        List.map_subset _ (List.eraseIdx_sublist _ _).subset
      rcases drop_cases hst with ⟨ss', hdrop, hmin⟩ | ⟨ss', hdrop, hret⟩
      · have hstep : p.step A (.dropStream i) = .ok
            { p with
              reactor := { p.reactor with sockets := ss' }
              streams := p.streams.eraseIdx i } := by simp only [Program.step, hi, hdrop]
        refine Or.inr ⟨_, hstep,
          hp.shrink [stream.handle] hmin ?_ ?_ (List.Subset.refl _) (List.Subset.refl _)⟩
        · refine List.perm_iff_count.mpr fun k => ?_
          have hk := count_streams hi k
          simp only [Program.owners, Program.tcpOwners, List.count_append]
          omega
        · exact List.append_subset.mpr ⟨List.append_subset.mpr
            ⟨List.Subset.trans hrest (List.subset_append_of_subset_left _
              (List.subset_append_left _ _)),
              List.subset_append_of_subset_left _ (List.subset_append_right _ _)⟩,
            List.subset_append_right _ _⟩
      · have hstep : p.step A (.dropStream i) = .ok
            { p with
              reactor := ⟨ss', p.reactor.orphanedClosing ++ [stream.handle]⟩
              streams := p.streams.eraseIdx i } := by simp only [Program.step, hi, hdrop]
        refine Or.inr ⟨_, hstep, hp.retype hret ?_ ?_ rfl rfl⟩
        · refine List.perm_iff_count.mpr fun k => ?_
          have hk := count_streams hi k
          simp only [Program.owners, Program.tcpOwners, List.count_append]
          omega
        · intro h hm
          simp only [Program.tcpOwners, List.mem_append, List.mem_singleton] at hm
          rcases hm with (hm | hm) | hm | rfl
          · exact List.mem_append_left _ (List.mem_append_left _ (hrest hm))
          · exact List.mem_append_left _ (List.mem_append_right _ hm)
          · exact List.mem_append_right _ hm
          · exact stream_mem hi

theorem states_ok (r : ReactorInner) :
    ∀ hs : List SocketHandle, r.sockets.AllTcp hs → ∃ sts, TcpListener.states r hs = .ok sts := by
  intro hs
  induction hs with
  | nil => intro _; exact ⟨[], rfl⟩
  | cons h hs ih =>
      intro hall
      obtain ⟨st, hst⟩ := hall h List.mem_cons_self
      obtain ⟨t, ht, -⟩ := getTcp_of_kind hst
      obtain ⟨sts, hsts⟩ := ih (fun k hk => hall k (List.mem_cons_of_mem _ hk))
      exact ⟨t.state :: sts, by simp only [TcpListener.states, ht, hsts]⟩

theorem safe_listenerStates (hp : Owned p) (i : Nat) : p.Safe A (.listenerStates i) := by
  cases hi : p.listeners[i]? with
  | none => exact Or.inl (by simp only [Program.step, hi])
  | some l =>
      have hall : p.reactor.sockets.AllTcp l.listener.handles :=
        fun h hm => hp.tcp h (listener_mem hi hm)
      obtain ⟨sts, hsts⟩ := states_ok p.reactor l.listener.handles hall
      exact Or.inr ⟨p, by simp only [Program.step, hi, hsts], hp⟩

theorem safe_dropListener (hp : Owned p) (i : Nat) : p.Safe A (.dropListener i) := by
  cases hi : p.listeners[i]? with
  | none => exact Or.inl (by simp only [Program.step, hi])
  | some l =>
      have hall : p.reactor.sockets.AllTcp l.listener.handles :=
        fun h hm => hp.tcp h (listener_mem hi hm)
      obtain ⟨ss', hdrop, hmin⟩ :=
        TcpListener.dropAll_ok l.listener.handles p.reactor.sockets (hp.listener_nodup hi) hall
      have hstep : p.step A (.dropListener i) = .ok
          { p with
            reactor := { p.reactor with sockets := ss' }
            listeners := p.listeners.eraseIdx i } := by
        simp only [Program.step, hi, TcpListener.drop, hdrop]
      refine Or.inr ⟨_, hstep, hp.shrink l.listener.handles hmin ?_ ?_
        (List.Subset.refl _) (List.eraseIdx_sublist _ _).subset⟩
      · refine List.perm_iff_count.mpr fun k => ?_
        have hk := count_listeners hi k
        simp only [Program.owners, Program.tcpOwners, List.count_append]
        omega
      · intro h hm
        simp only [Program.tcpOwners, List.mem_append] at hm
        rcases hm with (hm | hm) | hm
        · exact List.mem_append_left _ (List.mem_append_left _ hm)
        · obtain ⟨l', hl', hm⟩ := List.mem_flatMap.mp hm
          exact List.mem_append_left _ (List.mem_append_right _
            (List.mem_flatMap.mpr ⟨l', (List.eraseIdx_sublist _ _).subset hl', hm⟩))
        · exact List.mem_append_right _ hm

theorem safe_udpLookup (hp : Owned p) (i : Nat) : p.Safe A (.udpLookup i) := by
  cases hi : p.udps[i]? with
  | none => exact Or.inl (by simp only [Program.step, hi])
  | some udp =>
      have hk := hp.udp udp.handle (List.mem_map_of_mem (List.mem_of_getElem? hi))
      exact Or.inr ⟨p, by simp only [Program.step, hi, UdpSocket.lookup, getUdp_of_kind hk], hp⟩

theorem safe_dropUdp (hp : Owned p) (i : Nat) : p.Safe A (.dropUdp i) := by
  cases hi : p.udps[i]? with
  | none => exact Or.inl (by simp only [Program.step, hi])
  | some udp =>
      have hk := hp.udp udp.handle (List.mem_map_of_mem (List.mem_of_getElem? hi))
      have hm : udp.handle ∈ p.reactor.sockets.live.keys := kind_isSome.mp (by rw [hk]; rfl)
      have hstep : p.step A (.dropUdp i) = .ok
          { p with
            reactor := { p.reactor with
              sockets := { p.reactor.sockets with
                live := p.reactor.sockets.live.erase udp.handle } }
            udps := p.udps.eraseIdx i } := by
        simp only [Program.step, hi, UdpSocket.drop, getUdp_of_kind hk, remove_of_mem hm]
      refine Or.inr ⟨_, hstep,
        hp.shrink [udp.handle] (Minus.erase hm) ?_ (List.Subset.refl _)
          (List.eraseIdx_sublist _ _).subset (List.Subset.refl _)⟩
      refine List.perm_iff_count.mpr fun k => ?_
      have hcount := count_udps hi k
      simp only [Program.owners, Program.tcpOwners, List.count_append]
      omega

theorem safe_cleanupOrphaned (hp : Owned p) : p.Safe A .cleanupOrphaned := by
  have hall : p.reactor.sockets.AllTcp p.reactor.orphanedClosing :=
    fun h hm => hp.tcp h (List.mem_append_right _ hm)
  obtain ⟨kept, gone, ss', heq, hperm, hmin⟩ :=
    ReactorInner.retainOrphans_ok p.reactor.orphanedClosing p.reactor.sockets hp.orphans_nodup hall
  have hstep : p.step A .cleanupOrphaned = .ok { p with reactor := ⟨ss', kept⟩ } := by
    simp only [Program.step, ReactorInner.cleanupOrphaned, heq]
  refine Or.inr ⟨_, hstep, hp.shrink gone hmin ?_ ?_ (List.Subset.refl _) (List.Subset.refl _)⟩
  · refine List.perm_iff_count.mpr fun k => ?_
    have hk := hperm.count_eq k
    rw [List.count_append] at hk
    simp only [Program.owners, Program.tcpOwners, List.count_append]
    omega
  · intro h hm
    simp only [Program.tcpOwners, List.mem_append] at hm
    rcases hm with (hm | hm) | hm
    · exact List.mem_append_left _ (List.mem_append_left _ hm)
    · exact List.mem_append_left _ (List.mem_append_right _ hm)
    · exact List.mem_append_right _ (hperm.mem_iff.mp (List.mem_append_right _ hm))

/-- **ONE STEP**: every operation goes through and keeps the invariant, unless it
    names something that is not there. -/
theorem safe (hp : Owned p) (op : SockOp) : p.Safe A op := by
  cases op with
  | connect verdict => exact hp.safe_connect verdict
  | bindWithBacklog port backlog => exact hp.safe_bindWithBacklog port backlog
  | accept i cx => exact hp.safe_accept i cx
  | streamState i => exact hp.safe_streamState i
  | closeStream i => exact hp.safe_closeStream i
  | abortStream i => exact hp.safe_abortStream i
  | dropStream i => exact hp.safe_dropStream i
  | listenerStates i => exact hp.safe_listenerStates i
  | dropListener i => exact hp.safe_dropListener i
  | udpBind verdict => exact hp.safe_udpBind verdict
  | udpLookup i => exact hp.safe_udpLookup i
  | dropUdp i => exact hp.safe_dropUdp i
  | network h st => exact hp.safe_network h st
  | cleanupOrphaned => exact hp.safe_cleanupOrphaned

end Owned

theorem owned_step {A : Slots} {p p' : Program} {op : SockOp} (hp : Owned p)
    (h : p.step A op = .ok p') : Owned p' := by
  rcases hp.safe (A := A) op with habs | ⟨q, hq, hown⟩
  · rw [habs] at h
    cases h
  · rw [hq] at h
    cases h
    exact hown

/-! ## Opening sockets -/

/-- The operations that may add sockets and do nothing else to the set. -/
def SockOp.opens : SockOp → Bool
  | .connect _ | .bindWithBacklog _ _ | .accept _ _ | .udpBind _ => true
  | _ => false

/-- `ss'` is `ss` with sockets added that have not met a peer. -/
structure SocketSet.Opened (ss ss' : SocketSet) : Prop where
  old : ∀ h, (ss.kind h).isSome = true → ss'.kind h = ss.kind h
  new : ∀ h k, ss'.kind h = some k →
    ss.kind h = some k ∨ k = .tcp .synSent ∨ k = .tcp .listen ∨ k = .udp

theorem SocketSet.Opened.refl (ss : SocketSet) : Opened ss ss :=
  ⟨fun _ _ => rfl, fun _ _ h => Or.inl h⟩

theorem SocketSet.Opened.add (A : Slots) (ss : SocketSet) {s : Socket}
    (hs : s.kind = .tcp .synSent ∨ s.kind = .tcp .listen ∨ s.kind = .udp) :
    Opened ss (ss.add A s).2 := by
  refine ⟨fun h hk => kind_add_of_isSome A s hk, ?_⟩
  intro h k hk
  by_cases hh : h = (ss.add A s).1
  · subst hh
    rw [kind_add] at hk
    cases hk
    exact Or.inr hs
  · refine Or.inl ?_
    have hsame : (ss.add A s).2.kind h = ss.kind h := by
      have hne : h ≠ A.pick ss.added ss.live := hh
      show ((ss.live.insert _ s).lookup h).map Socket.kind = _
      rw [AList.lookup_insert_ne hne]
      rfl
    rw [← hsame]
    exact hk

/-- **OPENING** leaves the sockets in use alone, and what it adds is new. -/
theorem Owned.opened {A : Slots} {p p' : Program} (hp : Owned p) {op : SockOp}
    (hop : op.opens = true) (hstep : p.step A op = .ok p') :
    Opened p.reactor.sockets p'.reactor.sockets := by
  cases op with
  | connect v =>
      cases v with
      | error e =>
          cases hstep
          exact Opened.refl _
      | ok u =>
          cases hstep
          exact Opened.add A _ (Or.inl rfl)
  | bindWithBacklog port n =>
      by_cases hport : port = 0
      · subst hport
        obtain ⟨m, hm⟩ : ∃ m, max n 1 = m + 1 :=
          ⟨max n 1 - 1, (Nat.sub_add_cancel (Nat.le_max_right _ _)).symm⟩
        simp only [Program.step, TcpListener.bindWithBacklog, hm] at hstep
        cases hstep
        exact Opened.refl _
      · obtain ⟨new, ss', heq, -, hkeys, hnew, hold⟩ :=
          TcpListener.createAll_ok A hport (max n 1) [] p.reactor
        simp only [Program.step, TcpListener.bindWithBacklog, heq] at hstep
        cases hstep
        refine ⟨hold, ?_⟩
        intro h k hk
        have hm : h ∈ ss'.live.keys := kind_isSome.mp (by rw [hk]; rfl)
        rcases List.mem_append.mp (hkeys.mem_iff.mpr hm) with hm | hm
        · have hlisten : some k = some (.tcp .listen) := hk.symm.trans (hnew h hm)
          cases hlisten
          exact Or.inr (Or.inr (Or.inl rfl))
        · exact Or.inl ((hold h (kind_isSome.mpr hm)).symm.trans hk)
  | accept i cx =>
      cases hi : p.listeners[i]? with
      | none =>
          simp only [Program.step, hi] at hstep
          cases hstep
      | some l =>
          rcases AcceptFuture.poll_cases A cx (fun k hk => hp.tcp k (Owned.listener_mem hi hk))
            (hp.backlog l (List.mem_of_getElem? hi)).2 with
            ⟨idx, k, -, -, hpoll⟩ | ⟨-, hpoll⟩ | ⟨-, ss', hmin, hpoll⟩
          · simp only [Program.step, hi, hpoll] at hstep
            cases hstep
            exact Opened.add A _ (Or.inr (Or.inl rfl))
          · simp only [Program.step, hi, hpoll] at hstep
            cases hstep
            exact Opened.refl _
          · simp only [Program.step, hi, hpoll] at hstep
            cases hstep
            have hkind := fun h => hmin.kind h List.not_mem_nil
            exact ⟨fun h _ => hkind h, fun h k hk => Or.inl ((hkind h).symm.trans hk)⟩
  | udpBind v =>
      cases v with
      | error e =>
          cases hstep
          exact Opened.refl _
      | ok u =>
          cases hstep
          exact Opened.add A _ (Or.inr (Or.inr rfl))
  | _ => cases hop

theorem Owned.kind_opened {A : Slots} {p p' : Program} {h : SocketHandle} (hp : Owned p)
    {op : SockOp} (hop : op.opens = true) (hstep : p.step A op = .ok p')
    (hk : (p.reactor.sockets.kind h).isSome = true) :
    p'.reactor.sockets.kind h = p.reactor.sockets.kind h :=
  (hp.opened hop hstep).old h hk

theorem owned_start : Owned Program.start := ⟨List.Perm.refl _, nofun, nofun, nofun⟩

/-- A run that stops does so because an operation named something absent. -/
theorem run_panics_never {A : Slots} {ops : List SockOp} {e : SockHalt}
    (h : run (Program.step A) Program.start ops = .error e) : e = .absent := by
  by_contra hne
  refine run_safe (I := Owned) (B := fun e => e ≠ .absent)
    (fun p op p' hp hs => owned_step hp hs) ?_ owned_start h hne
  intro p op e hp hs hbad
  rcases hp.safe (A := A) op with habs | ⟨q, hq, -⟩
  · rw [habs] at hs
    cases hs
    exact hbad rfl
  · rw [hq] at hs
    cases hs

/-- **EVERY SOCKET HAS EXACTLY ONE OWNER**: from the empty program, whatever is
    done in whatever order and whichever slots the set picks, no lookup and no
    removal ever panics, and at every moment the handles held are distinct, are
    exactly those in use, refer to sockets of the right type, and every listener
    has its backlog. -/
theorem every_socket_has_one_owner (A : Slots) (ops : List SockOp) :
    (∀ e, run (Program.step A) Program.start ops ≠ .error (.panicked e)) ∧
    ∀ p, run (Program.step A) Program.start ops = .ok p →
      p.owners.Nodup ∧
      (∀ h, h ∈ p.owners ↔ h ∈ p.reactor.sockets.live) ∧
      p.reactor.sockets.AllTcp p.tcpOwners ∧
      (∀ h ∈ p.udps.map UdpSocket.handle, p.reactor.sockets.kind h = some .udp) ∧
      ∀ l ∈ p.listeners, l.listener.handles.length = max l.backlog 1 := by
  refine ⟨fun e herr => ?_, fun p hrun => ?_⟩
  · cases run_panics_never herr
  have hp : Owned p :=
    run_invariant (I := Owned) (fun p op p' hp hs => owned_step hp hs) owned_start hrun
  refine ⟨hp.nodup, fun h => ?_, hp.tcp, hp.udp, fun l hl => (hp.backlog l hl).1⟩
  rw [AList.mem_keys]
  exact hp.keys.mem_iff

/-- A listener, a connection accepted and dropped before it is closed, the
    sweep, and a UDP socket that gets the recycled handle. -/
theorem owners_after_recycling :
    ∃ p, run (Program.step Slots.first) Program.start
        [.bindWithBacklog 80 1, .network 0 .established, .accept 0 7, .dropStream 0,
          .cleanupOrphaned, .udpBind (.ok ())] = .ok p ∧
      p.owners = [1, 0] ∧ p.owners.Nodup :=
  ⟨_, rfl, rfl, ((every_socket_has_one_owner Slots.first
    [.bindWithBacklog 80 1, .network 0 .established, .accept 0 7, .dropStream 0,
      .cleanupOrphaned, .udpBind (.ok ())]).2 _ rfl).1⟩

end DpdkNet
