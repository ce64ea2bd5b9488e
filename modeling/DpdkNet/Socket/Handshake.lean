import DpdkNet.Socket.Futures
import DpdkNet.Socket.Ownership

/-! # Is a completed handshake ever missed?

    Listeners and connecting streams under any sequence of packets, with polls
    of their accept and `wait_connected` futures in between.  A whole ingress
    batch may arrive between two polls, so a poll may find a socket several
    states further than the last one did.

    The machine records which sockets have reached Established and have not
    been reset since (`completed`).  Such a socket is Established or, if its
    peer has sent a FIN meanwhile, in CloseWait; both futures look for
    Established only. -/

namespace DpdkNet

open Tcp SocketSet Runs

/-- Poll `wait_connected` on a stream. -/
def TcpStream.pollWaitConnected (cx : Waker) (stream : TcpStream) (r : ReactorInner) :
    Except SocketPanic (Poll (Except Unit Unit) × ReactorInner) :=
  match r.sockets.getTcp stream.handle with
  | .ok t =>
      let polled := WaitConnectedFuture.poll cx t
      .ok (polled.1, { r with sockets := r.sockets.setTcp stream.handle polled.2 })
  | .error p => .error p

/-- The transitions that packets and timeouts cause while nobody closes the
    connection on our side. -/
def Tcp.State.packetMoves : State → State → Bool
  -- a SYN for a listening socket
  | .listen, .synReceived => true
  -- SYN|ACK, SYN, RST or timeout while connecting
  | .synSent, .established | .synSent, .synReceived | .synSent, .closed => true
  -- ACK, ACK with FIN, RST, timeout
  | .synReceived, .established | .synReceived, .closeWait | .synReceived, .listen
  | .synReceived, .closed => true
  -- FIN; RST or timeout
  | .established, .closeWait | .established, .closed => true
  | .closeWait, .closed => true
  | _, _ => false

structure Handshakes where
  program : Program
  completed : List SocketHandle

def Handshakes.start : Handshakes := ⟨.start, []⟩

inductive HandshakeOp where
  | connect (verdict : Except ConnectError Unit)
  | bindWithBacklog (port : UInt16) (backlog : Nat)
  /-- A packet or a timeout moves the socket at `h` to another state. -/
  | packet (h : SocketHandle) (st : State)
  /-- Poll the accept future of the `i`-th listener. -/
  | accept (i : Nat) (cx : Waker)
  /-- Poll the `wait_connected` future of the `i`-th stream. -/
  | waitConnected (i : Nat) (cx : Waker)

namespace Handshakes

/-- The record after a socket has moved to a state. -/
def record (completed : List SocketHandle) (h : SocketHandle) : State → List SocketHandle
  | .established => h :: completed
  | .closed | .listen => completed.filter (· ≠ h)
  | _ => completed

/-- An operation of the program that says nothing about handshakes. -/
def call (A : Slots) (s : Handshakes) (op : SockOp) : Except SockHalt Handshakes :=
  match s.program.step A op with
  | .ok program => .ok { s with program }
  | .error e => .error e

def step (A : Slots) (s : Handshakes) : HandshakeOp → Except SockHalt Handshakes
  | .connect verdict => s.call A (.connect verdict)
  | .bindWithBacklog port backlog => s.call A (.bindWithBacklog port backlog)
  | .accept i cx => s.call A (.accept i cx)
  | .packet h st =>
      match s.program.reactor.sockets.getTcp h with
      | .error _ => .error .absent
      | .ok t =>
          if t.state.packetMoves st then
            match s.program.step A (.network h st) with
            | .ok program => .ok ⟨program, record s.completed h st⟩
            | .error e => .error e
          else .error .absent
  | .waitConnected i cx =>
      match s.program.streams[i]? with
      | none => .error .absent
      | some stream =>
          match stream.pollWaitConnected cx s.program.reactor with
          | .ok (_, reactor) => .ok { s with program := { s.program with reactor } }
          | .error p => .error (.panicked p)

/-- What a poll must answer: if a handshake it waits for is completed, that it
    is. -/
def Answered (A : Slots) (s : Handshakes) : HandshakeOp → Prop
  | .accept i cx => ∀ l, s.program.listeners[i]? = some l →
      (∃ h ∈ l.listener.handles, h ∈ s.completed) →
      ∃ k l' r', AcceptFuture.poll A cx l.listener s.program.reactor
          = .ok (.ready (.ok ⟨k⟩), l', r') ∧ k ∈ s.completed
  | .waitConnected i cx => ∀ stream, s.program.streams[i]? = some stream →
      stream.handle ∈ s.completed →
      ∃ r', stream.pollWaitConnected cx s.program.reactor = .ok (.ready (.ok ()), r')
  | _ => True

/-- The condition: a listener is not polled while one of its completed
    connections is half closed and none is Established, and a stream is not
    polled once its peer has half closed. -/
def NotHalfClosed (s : Handshakes) : HandshakeOp → Prop
  | .accept i _ => ∀ l, s.program.listeners[i]? = some l →
      (∃ h ∈ l.listener.handles, h ∈ s.completed ∧
        s.program.reactor.sockets.kind h = some (.tcp .closeWait)) →
      ∃ k ∈ l.listener.handles, s.program.reactor.sockets.kind k = some (.tcp .established)
  | .waitConnected i _ => ∀ stream, s.program.streams[i]? = some stream →
      stream.handle ∈ s.completed →
      s.program.reactor.sockets.kind stream.handle ≠ some (.tcp .closeWait)
  | _ => True

/-! ## The record is right -/

structure Tracked (s : Handshakes) : Prop where
  owned : Owned s.program
  established : ∀ h, s.program.reactor.sockets.kind h = some (.tcp .established) → h ∈ s.completed
  completed : ∀ h ∈ s.completed,
    s.program.reactor.sockets.kind h = some (.tcp .established) ∨
      s.program.reactor.sockets.kind h = some (.tcp .closeWait)

theorem tracked_start : Tracked start := by
  refine ⟨owned_start, ?_, List.forall_mem_nil _⟩
  intro h hk
  cases hk

theorem Tracked.call {A : Slots} {s s' : Handshakes} (hs : Tracked s) {op : SockOp}
    (hop : op.opens = true) (h : s.call A op = .ok s') : Tracked s' := by
  rw [Handshakes.call] at h
  split at h
  · rename_i program hstep
    cases h
    have hopen := hs.owned.opened hop hstep
    refine ⟨owned_step hs.owned hstep, ?_, ?_⟩
    · intro k hk
      rcases hopen.new k _ hk with hold | hnew | hnew | hnew
      · exact hs.established k hold
      · cases hnew
      · cases hnew
      · cases hnew
    · intro k hk
      have hold := hs.completed k hk
      have hsame : program.reactor.sockets.kind k = s.program.reactor.sockets.kind k := by
        refine hopen.old k ?_
        rcases hold with hold | hold
        · rw [hold]; rfl
        · rw [hold]; rfl
      show program.reactor.sockets.kind k = _ ∨ program.reactor.sockets.kind k = _
      rw [hsame]
      exact hold
  · cases h

theorem mem_record {completed : List SocketHandle} {h k : SocketHandle} {st : State}
    (hne : k ≠ h) : k ∈ record completed h st ↔ k ∈ completed := by
  cases st <;> simp [record, hne]

theorem mem_of_mem_record {completed : List SocketHandle} {h k : SocketHandle} {st : State}
    (hst : st ≠ .established) (hk : k ∈ record completed h st) : k ∈ completed := by
  cases st with
  | established => exact absurd rfl hst
  | closed => exact (List.mem_filter.mp hk).1
  | listen => exact (List.mem_filter.mp hk).1
  | _ => exact hk

/-- From Established or CloseWait packets lead to CloseWait or Closed only. -/
theorem packetMoves_of_completed {st st' : State} (hst : st = .established ∨ st = .closeWait)
    (hm : st.packetMoves st' = true) : st' = .closeWait ∨ st' = .closed := by
  rcases hst with rfl | rfl
  · cases st' with
    | closeWait => exact Or.inl rfl
    | closed => exact Or.inr rfl
    | _ => cases hm
  · cases st' with
    | closed => exact Or.inr rfl
    | _ => cases hm

theorem Tracked.packet {A : Slots} {s s' : Handshakes} (hs : Tracked s) {h : SocketHandle}
    {st : State} (hstep : step A s (.packet h st) = .ok s') : Tracked s' := by
  simp only [step] at hstep
  split at hstep
  · cases hstep
  · rename_i t ht
    split at hstep
    · rename_i hmoves
      have hnet : s.program.step A (.network h st) = .ok
          { s.program with
            reactor := { s.program.reactor with
              sockets := s.program.reactor.sockets.setTcp h (t.setState st) } } := by
        simp only [Program.step, ht]
      rw [hnet] at hstep
      cases hstep
      refine ⟨owned_step hs.owned hnet, ?_, ?_⟩
      · intro k hk
        by_cases hkh : k = h
        · subst hkh
          rw [kind_setTcp] at hk
          cases hk
          exact List.mem_cons_self
        · rw [kind_setTcp_ne _ hkh] at hk
          exact (mem_record hkh).mpr (hs.established k hk)
      · intro k hk
        by_cases hkh : k = h
        · subst hkh
          rw [kind_setTcp]
          by_cases hest : st = .established
          · exact Or.inl (by rw [hest]; rfl)
          · have hold := hs.completed k (mem_of_mem_record hest hk)
            rw [kind_of_getTcp ht] at hold
            obtain rfl | rfl := packetMoves_of_completed (by simpa using hold) hmoves
            · exact Or.inr rfl
            · -- a reset takes the socket off the record
              simp [record] at hk
        · rw [kind_setTcp_ne _ hkh]
          exact hs.completed k ((mem_record hkh).mp hk)
    · cases hstep

theorem state_pollWaitConnected (cx : Waker) (t : Tcp.Socket) :
    (WaitConnectedFuture.poll cx t).2.state = t.state := by
  rw [WaitConnectedFuture.poll]
  split <;> rfl

theorem Tracked.waitConnected {A : Slots} {s s' : Handshakes} (hs : Tracked s) {i : Nat}
    {cx : Waker} (hstep : step A s (.waitConnected i cx) = .ok s') : Tracked s' := by
  simp only [step] at hstep
  split at hstep
  · cases hstep
  · rename_i stream hi
    obtain ⟨st, hst⟩ := hs.owned.tcp _ (Owned.stream_mem hi)
    obtain ⟨t, ht, rfl⟩ := getTcp_of_kind hst
    simp only [TcpStream.pollWaitConnected, ht] at hstep
    cases hstep
    have hkind : ∀ k, (s.program.reactor.sockets.setTcp stream.handle
        (WaitConnectedFuture.poll cx t).2).kind k = s.program.reactor.sockets.kind k := by
      intro k
      by_cases hk : k = stream.handle
      · subst hk
        rw [kind_setTcp, state_pollWaitConnected, hst]
      · exact kind_setTcp_ne _ hk
    refine ⟨hs.owned.owned_setTcp ht _, ?_, ?_⟩
    · intro k hk
      exact hs.established k ((hkind k).symm.trans hk)
    · intro k hk
      rw [hkind k]
      exact hs.completed k hk

theorem tracked_step {A : Slots} {s s' : Handshakes} {op : HandshakeOp} (hs : Tracked s)
    (h : step A s op = .ok s') : Tracked s' := by
  cases op with
  | connect v => exact hs.call rfl h
  | bindWithBacklog port n => exact hs.call rfl h
  | accept i cx => exact hs.call rfl h
  | packet k st => exact hs.packet h
  | waitConnected i cx => exact hs.waitConnected h

/-! ## What the polls answer -/

/-- The accept future takes a completed connection exactly if it can find an
    Established one. -/
theorem accept_answered_iff {A : Slots} {s : Handshakes} (hs : Tracked s) (i : Nat)
    (cx : Waker) : s.Answered A (.accept i cx) ↔ s.NotHalfClosed (.accept i cx) := by
  constructor
  · intro h l hi hhalf
    obtain ⟨k, hk, hdone, -⟩ := hhalf
    obtain ⟨k', l', r', hpoll, -⟩ := h l hi ⟨k, hk, hdone⟩
    rcases AcceptFuture.poll_cases A cx (fun k hk => hs.owned.tcp k (Owned.listener_mem hi hk))
      (hs.owned.backlog l (List.mem_of_getElem? hi)).2 with
      ⟨idx, m, hidx, hm, -⟩ | ⟨-, hpoll'⟩ | ⟨-, ss', -, hpoll'⟩
    · exact ⟨m, List.mem_of_getElem? hidx, hm⟩
    · rw [hpoll'] at hpoll
      cases hpoll
    · rw [hpoll'] at hpoll
      cases hpoll
  · rintro h l hi ⟨k, hk, hdone⟩
    obtain ⟨m, hm, hest⟩ : ∃ m ∈ l.listener.handles,
        s.program.reactor.sockets.kind m = some (.tcp .established) := by
      rcases hs.completed k hdone with hest | hhalf
      · exact ⟨k, hk, hest⟩
      · exact h l hi ⟨k, hk, hdone, hhalf⟩
    rcases AcceptFuture.poll_cases A cx (fun k hk => hs.owned.tcp k (Owned.listener_mem hi hk))
      (hs.owned.backlog l (List.mem_of_getElem? hi)).2 with
      ⟨idx, m', -, hm', hpoll⟩ | ⟨hdead, -⟩ | ⟨hnone, -⟩
    · exact ⟨m', _, _, hpoll, hs.established m' hm'⟩
    · exfalso
      rcases hdead m hm with hdead | hdead
      · rw [hest] at hdead
        cases hdead
      · rw [hest] at hdead
        cases hdead
    · exact absurd hest (hnone m hm)

/-- The `wait_connected` future sees a completed handshake exactly if the peer
    has not half closed since. -/
theorem waitConnected_answered_iff {A : Slots} {s : Handshakes} (hs : Tracked s) (i : Nat)
    (cx : Waker) : s.Answered A (.waitConnected i cx) ↔ s.NotHalfClosed (.waitConnected i cx) := by
  constructor
  · intro h stream hi hdone hhalf
    obtain ⟨r', hpoll⟩ := h stream hi hdone
    obtain ⟨t, ht, hst⟩ := getTcp_of_kind hhalf
    simp only [TcpStream.pollWaitConnected, ht, WaitConnectedFuture.poll, hst] at hpoll
    cases hpoll
  · intro h stream hi hdone
    obtain ⟨t, ht, hst⟩ := getTcp_of_kind
      ((hs.completed _ hdone).resolve_right (h stream hi hdone))
    refine ⟨{ s.program.reactor with
      sockets := s.program.reactor.sockets.setTcp stream.handle t }, ?_⟩
    simp only [TcpStream.pollWaitConnected, ht, WaitConnectedFuture.poll, hst]

theorem answered_iff {A : Slots} {s : Handshakes} (hs : Tracked s) (op : HandshakeOp) :
    s.Answered A op ↔ s.NotHalfClosed op := by
  cases op with
  | accept i cx => exact accept_answered_iff hs i cx
  | waitConnected i cx => exact waitConnected_answered_iff hs i cx
  | _ => exact Iff.rfl

end Handshakes

/-- **WHEN NO COMPLETED HANDSHAKE IS MISSED**: every poll of a run gives the
    answer it must exactly if no listener is polled while a completed connection
    of it is half closed and none is Established, and no stream after its peer
    has half closed. -/
theorem handshakes_answered_iff (A : Slots) (ops : List HandshakeOp) :
    Along (Handshakes.step A) (Handshakes.Answered A) Handshakes.start ops ↔
      Along (Handshakes.step A) Handshakes.NotHalfClosed Handshakes.start ops :=
  along_iff_along (fun _ _ _ hs h => Handshakes.tracked_step hs h)
    (fun _ op hs => Handshakes.answered_iff hs op) ops Handshakes.start Handshakes.tracked_start

/-- SYN, ACK and FIN in one ingress batch: the connection has been established
    and not reset, and the accept future goes back to sleep.  So does
    `wait_connected` when SYN|ACK and FIN come together. -/
theorem half_closed_handshakes_missed :
    (∃ s, run (Handshakes.step Slots.first) Handshakes.start
        [.bindWithBacklog 80 1, .packet 0 .synReceived, .packet 0 .established,
          .packet 0 .closeWait] = .ok s ∧ ¬ s.Answered Slots.first (.accept 0 7)) ∧
    ∃ s, run (Handshakes.step Slots.first) Handshakes.start
        [.connect (.ok ()), .packet 0 .established, .packet 0 .closeWait] = .ok s ∧
      ¬ s.Answered Slots.first (.waitConnected 0 7) := by
  refine ⟨⟨_, rfl, ?_⟩, ⟨_, rfl, ?_⟩⟩
  · intro h
    obtain ⟨k, l', r', hpoll, -⟩ := h ⟨⟨[0], 80⟩, 1⟩ rfl ⟨0, List.mem_cons_self, List.mem_cons_self⟩
    cases hpoll
  · intro h
    obtain ⟨r', hpoll⟩ := h ⟨0⟩ rfl List.mem_cons_self
    cases hpoll

end DpdkNet
