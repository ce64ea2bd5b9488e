import DpdkNet.Lib.Runs
import DpdkNet.Socket.Tcp

/-! # Does a listener keep its backlog?

    A listener with its reactor, under any sequence of segments for its sockets
    and polls of its accept future.  A slot is usable while its socket is
    listening, in the handshake or established: an established socket is taken
    by the next poll and replaced.

    A poll replaces nothing else.  A peer that resets an established connection
    before it is accepted, or that sends its FIN that early, leaves a socket
    behind that no poll takes and no segment brings back
    (`unusable_slot_forever`); the slots stay usable exactly if that never
    happens (`slots_usable_iff`). -/

namespace DpdkNet

open Tcp SocketSet Runs

/-! ## Segments -/

/-- What a segment for a socket can be. -/
inductive Segment where
  | syn
  | ack
  | fin
  | rst
  deriving DecidableEq, Repr

/-- The transitions a segment causes on the passive side. -/
def Segment.next : Segment → State → State
  | .syn, .listen => .synReceived
  | .ack, .synReceived => .established
  | .fin, .synReceived => .closeWait
  | .fin, .established => .closeWait
  | .rst, .listen => .listen
  | .rst, .synReceived => .listen
  | .rst, _ => .closed
  | _, st => st

/-- The listener, the reactor, and what the last operation returned if it was a
    poll. -/
structure Server where
  listener : TcpListener
  reactor : ReactorInner
  polled : Option (Poll (Except ListenError TcpStream))

inductive ServerOp where
  /-- A segment for the socket at this handle arrives. -/
  | segment (h : SocketHandle) (seg : Segment)
  | poll (cx : Waker)

/-- The socket after a segment; a change of state wakes its waiters. -/
def Segment.arrive (seg : Segment) (t : Tcp.Socket) : Tcp.Socket :=
  if seg.next t.state = t.state then t else t.setState (seg.next t.state)

def Server.step (A : Slots) (s : Server) : ServerOp → Except SocketPanic Server
  | .segment h seg =>
      match s.reactor.sockets.getTcp h with
      | .ok t =>
          .ok { s with
            reactor := { s.reactor with sockets := s.reactor.sockets.setTcp h (seg.arrive t) }
            polled := none }
      | .error _ => .ok { s with polled := none }
  | .poll cx =>
      match AcceptFuture.poll A cx s.listener s.reactor with
      | .ok (res, listener, reactor) => .ok ⟨listener, reactor, some res⟩
      | .error p => .error p

/-! ## Usable slots -/

/-- A slot that a later poll or segment can still turn into a connection. -/
def Usable (k : Option Kind) : Prop :=
  k = some (.tcp .listen) ∨ k = some (.tcp .synReceived) ∨ k = some (.tcp .established)

structure Server.SlotsUsable (s : Server) : Prop where
  port : s.listener.port ≠ 0
  usable : ∀ h ∈ s.listener.handles, Usable (s.reactor.sockets.kind h)

/-- This operation costs the listener no slot: no FIN for a slot in the
    handshake or established, no RST for an established one. -/
def Server.KeepsSlots (s : Server) : ServerOp → Prop
  | .segment h .fin => h ∈ s.listener.handles →
      s.reactor.sockets.kind h ≠ some (.tcp .synReceived) ∧
        s.reactor.sockets.kind h ≠ some (.tcp .established)
  | .segment h .rst => h ∈ s.listener.handles →
      s.reactor.sockets.kind h ≠ some (.tcp .established)
  | _ => True

theorem Segment.state_arrive (seg : Segment) (t : Tcp.Socket) :
    (seg.arrive t).state = seg.next t.state := by
  rw [arrive]
  by_cases h : seg.next t.state = t.state
  · rw [if_pos h]; exact h.symm
  · rw [if_neg h]; rfl

theorem Server.SlotsUsable.allTcp {s : Server} (hs : s.SlotsUsable) :
    s.reactor.sockets.AllTcp s.listener.handles := by
  intro h hm
  rcases hs.usable h hm with hk | hk | hk
  · exact ⟨_, hk⟩
  · exact ⟨_, hk⟩
  · exact ⟨_, hk⟩

/-- A segment touches the socket it is for and no other. -/
theorem Server.step_segment (A : Slots) (s : Server) (h : SocketHandle) (seg : Segment) :
    ∃ s', s.step A (.segment h seg) = .ok s' ∧ s'.listener = s.listener ∧
      (∀ k, k ≠ h → s'.reactor.sockets.kind k = s.reactor.sockets.kind k) ∧
      (∀ st, s.reactor.sockets.kind h = some (.tcp st) →
        s'.reactor.sockets.kind h = some (.tcp (seg.next st))) := by
  cases hg : s.reactor.sockets.getTcp h with
  | error p =>
      refine ⟨{ s with polled := none }, by simp only [step, hg], rfl, fun _ _ => rfl, ?_⟩
      intro st hk
      obtain ⟨t, ht, -⟩ := getTcp_of_kind hk
      rw [hg] at ht
      cases ht
  | ok t =>
      refine ⟨{ s with
        reactor := { s.reactor with sockets := s.reactor.sockets.setTcp h (seg.arrive t) }
        polled := none }, by simp only [step, hg], rfl, fun k hk => kind_setTcp_ne _ hk, ?_⟩
      intro st hk
      have hst := kind_of_getTcp hg
      rw [hk] at hst
      cases hst
      show (s.reactor.sockets.setTcp h (seg.arrive t)).kind h = _
      rw [kind_setTcp, Segment.state_arrive]

/-- A poll replaces an established slot by a listening one, or changes no slot. -/
theorem Server.step_poll {A : Slots} {s s' : Server} {cx : Waker}
    (hall : s.reactor.sockets.AllTcp s.listener.handles) (hp : s.listener.port ≠ 0)
    (h : s.step A (.poll cx) = .ok s') :
    (∃ idx k new, s.listener.handles[idx]? = some k ∧
      s.reactor.sockets.kind k = some (.tcp .established) ∧
      s'.listener = { s.listener with handles := s.listener.handles.set idx new } ∧
      s'.reactor.sockets.kind new = some (.tcp .listen) ∧
      ∀ m, (s.reactor.sockets.kind m).isSome = true →
        s'.reactor.sockets.kind m = s.reactor.sockets.kind m) ∨
    (s'.listener = s.listener ∧
      ∀ m, s'.reactor.sockets.kind m = s.reactor.sockets.kind m) := by
  rw [step] at h
  rcases AcceptFuture.poll_cases A cx hall hp with
    ⟨idx, k, hidx, hk, hpoll⟩ | ⟨-, hpoll⟩ | ⟨-, ss', hmin, hpoll⟩
  · rw [hpoll] at h
    cases h
    exact Or.inl ⟨idx, k, _, hidx, hk, rfl, kind_add A s.reactor.sockets _,
      fun m hm => kind_add_of_isSome A _ hm⟩
  · rw [hpoll] at h
    cases h
    exact Or.inr ⟨rfl, fun _ => rfl⟩
  · rw [hpoll] at h
    cases h
    exact Or.inr ⟨rfl, fun m => hmin.kind m List.not_mem_nil⟩

/-- What a segment does to a usable slot. -/
theorem Segment.usable_next_iff (seg : Segment) {st : State} (hst : Usable (some (.tcp st))) :
    Usable (some (.tcp (seg.next st))) ↔
      ¬ (seg = .fin ∧ (st = .synReceived ∨ st = .established)) ∧
        ¬ (seg = .rst ∧ st = .established) := by
  rcases hst with h | h | h
  · cases h
    cases seg <;> simp [Usable, next]
  · cases h
    cases seg <;> simp [Usable, next]
  · cases h
    cases seg <;> simp [Usable, next]

/-- **ONE STEP** keeps every slot usable exactly if it meets the condition. -/
theorem Server.slotsUsable_step {A : Slots} {s s' : Server} {op : ServerOp}
    (hs : s.SlotsUsable) (h : s.step A op = .ok s') :
    s'.SlotsUsable ↔ s.KeepsSlots op := by
  cases op with
  | segment k seg =>
      obtain ⟨u, hu, hl, hother, hself⟩ := Server.step_segment A s k seg
      rw [hu] at h
      cases h
      -- the condition, for the one slot the segment is for
      have hcond : s.KeepsSlots (.segment k seg) ↔
          (k ∈ s.listener.handles → Usable (s'.reactor.sockets.kind k)) := by
        by_cases hk : k ∈ s.listener.handles
        · obtain ⟨st, hst⟩ := hs.allTcp k hk
          have hus := hs.usable k hk
          rw [hst] at hus
          rw [hself st hst, seg.usable_next_iff hus]
          cases seg <;> simp [KeepsSlots, hk, hst]
        · cases seg <;> simp [KeepsSlots, hk]
      rw [hcond]
      constructor
      · intro hus hk
        exact hus.usable k (by rw [hl]; exact hk)
      · intro hk
        refine ⟨by rw [hl]; exact hs.port, fun m hm => ?_⟩
        rw [hl] at hm
        by_cases hmk : m = k
        · subst hmk
          exact hk hm
        · rw [hother m hmk]
          exact hs.usable m hm
  | poll cx =>
      refine iff_of_true ?_ trivial
      rcases Server.step_poll hs.allTcp hs.port h with
        ⟨idx, k, new, -, -, hl, hnew, hkind⟩ | ⟨hl, hkind⟩
      · refine ⟨by rw [hl]; exact hs.port, fun m hm => ?_⟩
        rw [hl] at hm
        rcases List.mem_or_eq_of_mem_set hm with hm | rfl
        · obtain ⟨st, hst⟩ := hs.allTcp m hm
          rw [hkind m (by rw [hst]; rfl)]
          exact hs.usable m hm
        · exact Or.inl hnew
      · refine ⟨by rw [hl]; exact hs.port, fun m hm => ?_⟩
        rw [hl] at hm
        rw [hkind m]
        exact hs.usable m hm

/-- The slots of a bound listener. -/
theorem slotsUsable_of_bind {A : Slots} {port : UInt16} {backlog : Nat} {r r' : ReactorInner}
    {l : TcpListener} (h : TcpListener.bindWithBacklog A port backlog r = (.ok l, r')) :
    (⟨l, r', none⟩ : Server).SlotsUsable ∧ l.handles.length = max backlog 1 := by
  have hp : port ≠ 0 := by
    rintro rfl
    obtain ⟨n, hn⟩ : ∃ n, max backlog 1 = n + 1 :=
      ⟨max backlog 1 - 1, (Nat.sub_add_cancel (Nat.le_max_right _ _)).symm⟩
    rw [TcpListener.bindWithBacklog, hn] at h
    cases (Prod.mk.inj h).1
  obtain ⟨new, ss', heq, hlen, -, hnew, -⟩ :=
    TcpListener.createAll_ok A hp (max backlog 1) [] r
  rw [TcpListener.bindWithBacklog, heq] at h
  cases h
  exact ⟨⟨hp, fun k hk => Or.inl (hnew k hk)⟩, hlen⟩

/-- **WHEN THE SLOTS STAY USABLE**: throughout a run, exactly if no segment of
    the run takes one. -/
theorem slots_usable_iff (A : Slots) {s : Server} (hs : s.SlotsUsable) (ops : List ServerOp) :
    (∀ pre, pre <+: ops → ∀ t, run (Server.step A) s pre = .ok t → t.SlotsUsable) ↔
      Along (Server.step A) Server.KeepsSlots s ops := by
  refine always_iff_along (I := Server.SlotsUsable)
    (fun u op u' hu h => Server.slotsUsable_step hu h) ?_ ops s hs
  intro u op e _ herr
  cases op with
  | segment h seg =>
      obtain ⟨u', hu', -⟩ := Server.step_segment A u h seg
      rw [hu'] at herr
      cases herr
  | poll cx => trivial

theorem AcceptFuture.length_of_poll {A : Slots} {cx : Waker} {l l' : TcpListener}
    {r r' : ReactorInner} {res : Poll (Except ListenError TcpStream)}
    (h : AcceptFuture.poll A cx l r = .ok (res, l', r')) :
    l'.handles.length = l.handles.length := by
  rw [poll] at h
  split at h
  · cases h
  · split at h
    · cases h
    · split at h
      · cases h
        rfl
      · cases h
        exact List.length_set
  · split at h
    · cases h
    · cases h
      rfl
    · split at h
      · cases h
        rfl
      · cases h

theorem Server.length_step {A : Slots} {s s' : Server} {op : ServerOp}
    (h : s.step A op = .ok s') : s'.listener.handles.length = s.listener.handles.length := by
  cases op with
  | segment k seg =>
      obtain ⟨u, hu, hl, -⟩ := Server.step_segment A s k seg
      rw [hu] at h
      cases h
      rw [hl]
  | poll cx =>
      rw [step] at h
      split at h
      · rename_i heq
        cases h
        exact AcceptFuture.length_of_poll heq
      · cases h

/-- **A PENDING LISTENER HAS ITS BACKLOG**: bind, then any segments and polls of
    which no FIN reaches a slot in the handshake or established and no RST an
    established one.  Whenever a poll returns Pending, each of the slots is
    listening, in the handshake or established. -/
theorem pending_listener_keeps_slots (A : Slots) (port : UInt16) (backlog : Nat)
    (r r' : ReactorInner) (l : TcpListener)
    (hbind : TcpListener.bindWithBacklog A port backlog r = (.ok l, r'))
    (ops : List ServerOp) (hops : Along (Server.step A) Server.KeepsSlots ⟨l, r', none⟩ ops)
    (t : Server) (hrun : run (Server.step A) ⟨l, r', none⟩ ops = .ok t)
    (_hpending : t.polled = some .pending) :
    t.listener.handles.length = max backlog 1 ∧
      ∀ h ∈ t.listener.handles, Usable (t.reactor.sockets.kind h) := by
  obtain ⟨hstart, hlen⟩ := slotsUsable_of_bind hbind
  have husable := (slots_usable_iff A hstart ops).mpr hops ops List.prefix_rfl t hrun
  refine ⟨?_, husable.usable⟩
  refine run_invariant (I := fun u : Server => u.listener.handles.length = max backlog 1)
    ?_ hlen hrun
  intro u op u' hu h
  exact (Server.length_step h).trans hu

/-! ## Slots lost -/

/-- Slot `i` holds a socket that is half closed or closed. -/
def Server.LostSlot (i : Nat) (s : Server) : Prop :=
  ∃ h, s.listener.handles[i]? = some h ∧
    (s.reactor.sockets.kind h = some (.tcp .closeWait) ∨
      s.reactor.sockets.kind h = some (.tcp .closed))

/-- The listener can still be polled. -/
structure Server.Polls (s : Server) : Prop where
  port : s.listener.port ≠ 0
  allTcp : s.reactor.sockets.AllTcp s.listener.handles

/-- **ONE STEP** brings no lost slot back. -/
theorem Server.lostSlot_step {A : Slots} {i : Nat} {s s' : Server} {op : ServerOp}
    (hs : s.Polls ∧ s.LostSlot i) (h : s.step A op = .ok s') : s'.Polls ∧ s'.LostSlot i := by
  obtain ⟨⟨hp, hall⟩, k, hk, hlost⟩ := hs
  have hlive : (s.reactor.sockets.kind k).isSome = true := by
    rcases hlost with h | h
    · rw [h]; rfl
    · rw [h]; rfl
  cases op with
  | segment m seg =>
      obtain ⟨u, hu, hl, hother, hself⟩ := Server.step_segment A s m seg
      rw [hu] at h
      cases h
      refine ⟨⟨by rw [hl]; exact hp, ?_⟩, k, by rw [hl]; exact hk, ?_⟩
      · intro n hn
        rw [hl] at hn
        obtain ⟨st, hst⟩ := hall n hn
        by_cases hnm : n = m
        · subst hnm
          exact ⟨_, hself st hst⟩
        · exact ⟨st, (hother n hnm).trans hst⟩
      · by_cases hkm : k = m
        · subst hkm
          rcases hlost with hst | hst
          · rw [hself _ hst]
            cases seg <;> simp [Segment.next]
          · rw [hself _ hst]
            cases seg <;> simp [Segment.next]
        · rw [hother k hkm]
          exact hlost
  | poll cx =>
      rcases Server.step_poll hall hp h with
        ⟨idx, m, new, hidx, hm, hl, hnew, hkind⟩ | ⟨hl, hkind⟩
      · -- the slot replaced held an established socket
        have hne : idx ≠ i := by
          rintro rfl
          rw [hidx] at hk
          cases hk
          rw [hm] at hlost
          rcases hlost with h | h
          · cases h
          · cases h
        refine ⟨⟨by rw [hl]; exact hp, fun n hn => ?_⟩, k, ?_, ?_⟩
        · rw [hl] at hn
          rcases List.mem_or_eq_of_mem_set hn with hn | rfl
          · obtain ⟨st, hst⟩ := hall n hn
            exact ⟨st, (hkind n (by rw [hst]; rfl)).trans hst⟩
          · exact ⟨_, hnew⟩
        · rw [hl]
          exact (List.getElem?_set_ne hne).trans hk
        · rw [hkind k hlive]
          exact hlost
      · refine ⟨⟨by rw [hl]; exact hp, fun n hn => ?_⟩, k, by rw [hl]; exact hk, ?_⟩
        · rw [hl] at hn
          obtain ⟨st, hst⟩ := hall n hn
          exact ⟨st, (hkind n).trans hst⟩
        · rw [hkind k]
          exact hlost

/-- A slot that holds a half closed or closed socket holds it for ever. -/
theorem unusable_slot_forever (A : Slots) {i : Nat} {s t : Server} {ops : List ServerOp}
    (hs : s.Polls) (hlost : s.LostSlot i) (hrun : run (Server.step A) s ops = .ok t) :
    t.LostSlot i := by
  refine (run_invariant (I := fun u : Server => u.Polls ∧ u.LostSlot i) ?_ ⟨hs, hlost⟩ hrun).2
  intro u op u' hu h
  exact Server.lostSlot_step hu h

/-- A listener with a backlog of 1 whose client sends SYN, ACK and FIN before the
    accept future is polled: the poll waits, and its only slot is half closed. -/
theorem pending_listener_without_slot :
    ∃ l r t, TcpListener.bindWithBacklog Slots.first 80 1 ReactorInner.new = (.ok l, r) ∧
      run (Server.step Slots.first) ⟨l, r, none⟩
        [.segment 0 .syn, .segment 0 .ack, .segment 0 .fin, .poll 7] = .ok t ∧
      t.polled = some .pending ∧ t.listener.handles = [0] ∧
      t.reactor.sockets.kind 0 = some (.tcp .closeWait) :=
  ⟨_, _, _, rfl, rfl, rfl, rfl, rfl⟩

/-- A handshake reset half way and a second one accepted: the listener waits
    with all of its slots. -/
theorem pending_listener_keeps_slots_after_accept :
    ∃ l r t, TcpListener.bindWithBacklog Slots.first 80 2 ReactorInner.new = (.ok l, r) ∧
      run (Server.step Slots.first) ⟨l, r, none⟩
        [.segment 0 .syn, .segment 1 .syn, .segment 0 .rst, .segment 1 .ack, .poll 7, .poll 7]
        = .ok t ∧
      t.listener.handles.length = 2 ∧
      ∀ h ∈ t.listener.handles, Usable (t.reactor.sockets.kind h) := by
  refine ⟨_, _, _, rfl, rfl, ?_⟩
  refine pending_listener_keeps_slots Slots.first 80 2 ReactorInner.new _ _ rfl
    [.segment 0 .syn, .segment 1 .syn, .segment 0 .rst, .segment 1 .ack, .poll 7, .poll 7]
    ?_ _ rfl rfl
  -- the RST finds its slot in the handshake
  refine ⟨trivial, fun _ h => ?_⟩
  cases h
  refine ⟨trivial, fun _ h => ?_⟩
  cases h
  refine ⟨fun _ => by decide, fun _ h => ?_⟩
  cases h
  refine ⟨trivial, fun _ h => ?_⟩
  cases h
  exact ⟨trivial, fun _ _ => ⟨trivial, fun _ _ => trivial⟩⟩

/-! ## A dead listener

    When no slot is left, `accept` fails instead of waiting.  The accept loops of
    the servers log the error and poll again. -/

/-- Every slot holds a socket that is closed or in time-wait. -/
def Server.Dead (s : Server) : Prop :=
  ∀ h ∈ s.listener.handles, s.reactor.sockets.kind h = some (.tcp .closed) ∨
    s.reactor.sockets.kind h = some (.tcp .timeWait)

theorem Server.Polls.of_bind {A : Slots} {port : UInt16} {backlog : Nat} {r r' : ReactorInner}
    {l : TcpListener} (h : TcpListener.bindWithBacklog A port backlog r = (.ok l, r')) :
    (⟨l, r', none⟩ : Server).Polls :=
  ⟨(slotsUsable_of_bind h).1.port, (slotsUsable_of_bind h).1.allTcp⟩

/-- Any operation leaves the listener so that it can be polled. -/
theorem Server.polls_step {A : Slots} {s s' : Server} {op : ServerOp} (hs : s.Polls)
    (h : s.step A op = .ok s') : s'.Polls := by
  obtain ⟨hp, hall⟩ := hs
  cases op with
  | segment m seg =>
      obtain ⟨u, hu, hl, hother, hself⟩ := Server.step_segment A s m seg
      rw [hu] at h
      cases h
      refine ⟨by rw [hl]; exact hp, fun n hn => ?_⟩
      rw [hl] at hn
      obtain ⟨st, hst⟩ := hall n hn
      by_cases hnm : n = m
      · subst hnm
        exact ⟨_, hself st hst⟩
      · exact ⟨st, (hother n hnm).trans hst⟩
  | poll cx =>
      rcases Server.step_poll hall hp h with ⟨idx, m, new, -, -, hl, hnew, hkind⟩ | ⟨hl, hkind⟩
      · refine ⟨by rw [hl]; exact hp, fun n hn => ?_⟩
        rw [hl] at hn
        rcases List.mem_or_eq_of_mem_set hn with hn | rfl
        · obtain ⟨st, hst⟩ := hall n hn
          exact ⟨st, (hkind n (by rw [hst]; rfl)).trans hst⟩
        · exact ⟨_, hnew⟩
      · refine ⟨by rw [hl]; exact hp, fun n hn => ?_⟩
        rw [hl] at hn
        obtain ⟨st, hst⟩ := hall n hn
        exact ⟨st, (hkind n).trans hst⟩

/-- A poll of a dead listener fails and changes nothing. -/
theorem Server.poll_dead {A : Slots} {s : Server} (hs : s.Polls) (hdead : s.Dead) (cx : Waker) :
    s.step A (.poll cx) = .ok ⟨s.listener, s.reactor, some (.ready (.error .unaddressable))⟩ := by
  have hpoll : AcceptFuture.poll A cx s.listener s.reactor
      = .ok (.ready (.error .unaddressable), s.listener, s.reactor) := by
    rcases AcceptFuture.findEstablished_ok s.reactor.sockets s.listener.handles 0 hs.allTcp with
      ⟨k, h, -, hk, hst⟩ | ⟨hnone, -⟩
    · rcases hdead h (List.mem_of_getElem? hk) with hd | hd
      · rw [hd] at hst
        cases hst
      · rw [hd] at hst
        cases hst
    · obtain ⟨b, hb, hiff⟩ :=
        AcceptFuture.allDead_ok s.reactor.sockets s.listener.handles hs.allTcp
      rw [hiff.mpr hdead] at hb
      simp only [AcceptFuture.poll, hnone, hb]
  rw [step, hpoll]

/-- A poll fails only on a dead listener. -/
theorem Server.dead_of_poll {A : Slots} {s s' : Server} {cx : Waker} (hs : s.Polls)
    (h : s.step A (.poll cx) = .ok s')
    (hfail : s'.polled = some (.ready (.error .unaddressable))) : s'.Dead := by
  rw [step] at h
  rcases AcceptFuture.poll_cases A cx hs.allTcp hs.port with
    ⟨idx, k, -, -, hpoll⟩ | ⟨hdead, hpoll⟩ | ⟨-, ss', -, hpoll⟩
  · rw [hpoll] at h
    cases h
    cases hfail
  · rw [hpoll] at h
    cases h
    exact hdead
  · rw [hpoll] at h
    cases h
    cases hfail

/-- **ONE STEP** revives no dead listener. -/
theorem Server.dead_step {A : Slots} {s s' : Server} {op : ServerOp} (hs : s.Polls)
    (hdead : s.Dead) (h : s.step A op = .ok s') : s'.Dead ∧ s'.listener = s.listener := by
  cases op with
  | segment m seg =>
      obtain ⟨u, hu, hl, hother, hself⟩ := Server.step_segment A s m seg
      rw [hu] at h
      cases h
      refine ⟨fun k hk => ?_, hl⟩
      rw [hl] at hk
      by_cases hkm : k = m
      · subst hkm
        rcases hdead k hk with hst | hst
        · rw [hself _ hst]
          cases seg <;> simp [Segment.next]
        · rw [hself _ hst]
          cases seg <;> simp [Segment.next]
      · rw [hother k hkm]
        exact hdead k hk
  | poll cx =>
      rw [Server.poll_dead hs hdead cx] at h
      cases h
      exact ⟨hdead, rfl⟩

/-- **A LISTENER THAT FAILED ONCE FAILS FOR EVER**: bind, then any segments and
    polls up to one that returns `Unaddressable`.  Whatever segments arrive
    after it and however often the listener is polled, every poll returns
    `Unaddressable` again, and no slot is replaced. -/
theorem accept_fails_forever (A : Slots) (port : UInt16) (backlog : Nat) (r r' : ReactorInner)
    (l : TcpListener) (hbind : TcpListener.bindWithBacklog A port backlog r = (.ok l, r'))
    (ops : List ServerOp) (s : Server) (hrun : run (Server.step A) ⟨l, r', none⟩ ops = .ok s)
    (hfail : s.polled = some (.ready (.error .unaddressable)))
    (more : List ServerOp) (t : Server) (hmore : run (Server.step A) s more = .ok t) (cx : Waker) :
    t.step A (.poll cx) = .ok ⟨s.listener, t.reactor, some (.ready (.error .unaddressable))⟩ := by
  -- up to the poll that fails: it fails because the listener is dead
  have hfirst : s.Polls ∧ (s.polled = some (.ready (.error .unaddressable)) → s.Dead) := by
    refine run_invariant (I := fun u : Server => u.Polls ∧
      (u.polled = some (.ready (.error .unaddressable)) → u.Dead)) ?_
      ⟨Server.Polls.of_bind hbind, fun h => by cases h⟩ hrun
    rintro u op u' ⟨hu, -⟩ h
    refine ⟨Server.polls_step hu h, ?_⟩
    cases op with
    | segment m seg =>
        intro hpolled
        simp only [Server.step] at h
        split at h
        · cases h
          cases hpolled
        · cases h
          cases hpolled
    | poll cx => exact Server.dead_of_poll hu h
  -- and from there on
  have hlater : t.Polls ∧ t.Dead ∧ t.listener = s.listener := by
    refine run_invariant (I := fun u : Server => u.Polls ∧ u.Dead ∧ u.listener = s.listener) ?_
      ⟨hfirst.1, hfirst.2 hfail, rfl⟩ hmore
    rintro u op u' ⟨hu, hdead, hl⟩ h
    obtain ⟨hdead', hl'⟩ := Server.dead_step hu hdead h
    exact ⟨Server.polls_step hu h, hdead', hl'.trans hl⟩
  obtain ⟨hpolls, hdead, hl⟩ := hlater
  rw [Server.poll_dead hpolls hdead cx, hl]

/-- One client that connects and resets before `accept` is polled: the listener
    with a backlog of 1 refuses the next client, and every one after. -/
theorem accept_fails_after_reset :
    ∃ l r s t, TcpListener.bindWithBacklog Slots.first 80 1 ReactorInner.new = (.ok l, r) ∧
      run (Server.step Slots.first) ⟨l, r, none⟩
        [.segment 0 .syn, .segment 0 .ack, .segment 0 .rst, .poll 7] = .ok s ∧
      run (Server.step Slots.first) s [.segment 0 .syn, .segment 0 .ack, .poll 7] = .ok t ∧
      ∃ u, t.step Slots.first (.poll 7) = .ok u ∧
        u.polled = some (.ready (.error .unaddressable)) :=
  ⟨_, _, _, _, rfl, rfl, rfl, _,
    accept_fails_forever Slots.first 80 1 ReactorInner.new _ _ rfl
      [.segment 0 .syn, .segment 0 .ack, .segment 0 .rst, .poll 7] _ rfl rfl
      [.segment 0 .syn, .segment 0 .ack, .poll 7] _ rfl 7, rfl⟩

end DpdkNet
