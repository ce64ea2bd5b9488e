import DpdkNet.Socket.Ownership

/-! # Does an aborted connection get to send its RST?

    `abort` only sets the state to Closed; the RST goes out with the next
    `poll_egress` that still finds the socket in the set.  Here the program of
    streams and listeners runs together with the reactor's loop: between two of
    its cycles tasks call what they like, and a cycle is the ingress batch, one
    `poll_egress` and the orphan sweep, with no task in between (`run_with`
    yields only after the sweep).

    The machine keeps a record of the aborts whose RST is not out yet
    (`unsent`) and of the sockets removed while theirs was not (`lost`).  The
    deferred paths are sound: a socket that a drop aborts is an orphan, and the
    sweep comes after the egress.  The two that remove at once are not: a
    closed stream is removed by its drop even if it was closed by `abort` a
    moment before, and a listener's drop aborts and removes in one go. -/

namespace DpdkNet

open Tcp SocketSet Runs

/-- Does the socket know its peer?  A closed or listening one does not. -/
def SocketSet.knownPeer (ss : SocketSet) (h : SocketHandle) : Bool :=
  match ss.kind h with
  | some (.tcp .closed) | some (.tcp .listen) | some .udp | none => false
  | some (.tcp _) => true

/-- The states in which dropping a stream aborts it. -/
def Tcp.State.abortedByDrop : State → Bool
  | .closed | .timeWait | .finWait1 | .finWait2 | .closing | .lastAck => false
  | _ => true

/-- Would dropping a stream on this socket abort it? -/
def SocketSet.abortedByDrop (ss : SocketSet) (h : SocketHandle) : Bool :=
  match ss.kind h with
  | some (.tcp st) => st.abortedByDrop
  | _ => false

namespace Program

def streamHandles (p : Program) (i : Nat) : List SocketHandle :=
  (p.streams[i]?.map TcpStream.handle).toList

def listenerHandles (p : Program) (i : Nat) : List SocketHandle :=
  (p.listeners[i]?.map fun l => l.listener.handles).getD []

/-- The connections with a known peer that an operation aborts. -/
def aborted (p : Program) : SockOp → List SocketHandle
  | .abortStream i => (p.streamHandles i).filter p.reactor.sockets.knownPeer
  | .dropStream i =>
      (p.streamHandles i).filter fun h =>
        p.reactor.sockets.knownPeer h && p.reactor.sockets.abortedByDrop h
  | .dropListener i => (p.listenerHandles i).filter p.reactor.sockets.knownPeer
  | _ => []

/-- The sockets that an operation lets go of. -/
def released (p : Program) : SockOp → List SocketHandle
  | .dropStream i => p.streamHandles i
  | .dropListener i => p.listenerHandles i
  | _ => []

/-- Packets and timers move sockets to other states.  A closed socket takes no
    packet and has no timer. -/
def moves (A : Slots) : Program → List (SocketHandle × State) → Program
  | p, [] => p
  | p, (h, st) :: rest =>
      if p.reactor.sockets.kind h = some (.tcp .closed) then p.moves A rest
      else
        match p.step A (.network h st) with
        | .ok p => p.moves A rest
        | .error _ => p.moves A rest

end Program

/-- The program and the two records. -/
structure Teardown where
  program : Program
  unsent : List SocketHandle
  lost : List SocketHandle

def Teardown.start : Teardown := ⟨.start, [], []⟩

inductive ReactorOp where
  /-- A call of a task, between two cycles of the reactor. -/
  | call (op : SockOp)
  /-- One cycle: ingress, egress with its timers, the orphan sweep. -/
  | cycle (ingress timers : List (SocketHandle × State))

/-- The calls of tasks; the network and the sweep belong to the cycle. -/
def SockOp.isCall : SockOp → Bool
  | .network _ _ | .cleanupOrphaned => false
  | _ => true

namespace Teardown

/-- The records once the program is `p`: an unsent RST whose socket is gone is
    lost. -/
def observe (s : Teardown) (aborted : List SocketHandle) (p : Program) : Teardown where
  program := p
  unsent := (s.unsent ++ aborted).filter (· ∈ p.reactor.sockets.live.keys)
  lost := s.lost ++ (s.unsent ++ aborted).filter (· ∉ p.reactor.sockets.live.keys)

def step (A : Slots) (s : Teardown) : ReactorOp → Except SockHalt Teardown
  | .call op =>
      if op.isCall then
        match s.program.step A op with
        | .ok p => .ok (s.observe (s.program.aborted op) p)
        | .error e => .error e
      else .error .absent
  | .cycle ingress timers =>
      let p := s.program.moves A ingress
      -- every socket still in the set has its turn in `poll_egress`
      let s := { s with unsent := [] }
      let p := p.moves A timers
      match p.step A .cleanupOrphaned with
      | .ok p => .ok (s.observe [] p)
      | .error e => .error e

/-- The condition: no stream is dropped while its RST is not out, and no
    listener while one of its sockets has a peer to tell. -/
def KeepsRst (s : Teardown) : ReactorOp → Prop
  | .call (.dropStream i) => ∀ h ∈ s.program.streamHandles i, h ∉ s.unsent
  | .call (.dropListener i) =>
      ∀ h ∈ s.program.listenerHandles i,
        s.program.reactor.sockets.knownPeer h = false ∧ h ∉ s.unsent
  | _ => True

end Teardown

/-! ## What a call does to closed sockets -/

theorem SocketSet.Minus.notMem {ss ss' : SocketSet} {gone : List SocketHandle}
    (hmin : Minus ss ss' gone) {h : SocketHandle} (hg : h ∈ gone) : h ∉ ss'.live.keys := by
  have hnd : (gone ++ ss'.live.keys).Nodup := hmin.keys.nodup_iff.mpr ss.live.keys_nodup
  intro hm
  exact (List.nodup_append.mp hnd).2.2 h hg h hm rfl

theorem Tcp.Socket.close_of_closed {t : Tcp.Socket} (h : t.state = .closed) : t.close = t := by
  rw [Tcp.Socket.close, h]

/-- Dropping a stream, by the state of its socket. -/
theorem TcpStream.drop_spec {r r' : ReactorInner} {stream : TcpStream} {st : State}
    (hst : r.sockets.kind stream.handle = some (.tcp st)) (h : stream.drop r = .ok r') :
    ((st = .closed ∨ st = .timeWait) ∧ Minus r.sockets r'.sockets [stream.handle]) ∨
    ((st ≠ .closed ∧ st ≠ .timeWait) ∧
      (∀ k, k ≠ stream.handle → r'.sockets.kind k = r.sockets.kind k) ∧
      (st.abortedByDrop = true → r'.sockets.kind stream.handle = some (.tcp .closed))) := by
  obtain ⟨t, ht, rfl⟩ := getTcp_of_kind hst
  have hm : stream.handle ∈ r.sockets.live.keys := kind_isSome.mp (by rw [hst]; rfl)
  simp only [TcpStream.drop, ht, remove_of_mem hm] at h
  cases hs : t.state <;> simp only [hs] at h <;> cases h
  case closed => exact Or.inl ⟨Or.inl rfl, Minus.erase hm⟩
  case timeWait => exact Or.inl ⟨Or.inr rfl, Minus.erase hm⟩
  case finWait1 | finWait2 | closing | lastAck =>
    refine Or.inr ⟨by decide, fun _ _ => rfl, fun habort => ?_⟩
    cases habort
  case listen | synSent | synReceived | established | closeWait =>
    exact Or.inr ⟨by decide, fun k hk => kind_setTcp_ne _ hk, fun _ => kind_setTcp _⟩

namespace Owned

variable {A : Slots} {p p' : Program} {h : SocketHandle}

theorem mem_streamHandles {i : Nat} {stream : TcpStream} (hi : p.streams[i]? = some stream) :
    h ∈ p.streamHandles i ↔ h = stream.handle := by
  rw [Program.streamHandles, hi]
  simp

/-- Looking at a socket changes nothing. -/
theorem program_of_lookup {i : Nat} (hstep : p.step A (.streamState i) = .ok p' ∨
    p.step A (.listenerStates i) = .ok p' ∨ p.step A (.udpLookup i) = .ok p') : p' = p := by
  simp only [Program.step] at hstep
  rcases hstep with h | h | h
  all_goals
    split at h
    · cases h
    · split at h
      · cases h
      · cases h
        rfl

/-- A close writes the closed socket back. -/
theorem closeStream_ok (hp : Owned p) {i : Nat} (hstep : p.step A (.closeStream i) = .ok p') :
    ∃ (stream : TcpStream) (t : Tcp.Socket), p.streams[i]? = some stream ∧
      p.reactor.sockets.kind stream.handle = some (.tcp t.state) ∧
      p'.reactor.sockets = p.reactor.sockets.setTcp stream.handle t.close := by
  simp only [Program.step] at hstep
  split at hstep
  · cases hstep
  · rename_i stream hi
    obtain ⟨st, hst⟩ := hp.tcp _ (stream_mem hi)
    obtain ⟨t, ht, rfl⟩ := getTcp_of_kind hst
    simp only [TcpStream.close, ht] at hstep
    cases hstep
    exact ⟨stream, t, hi, hst, rfl⟩

/-- An abort writes the aborted socket back. -/
theorem abortStream_ok (hp : Owned p) {i : Nat} (hstep : p.step A (.abortStream i) = .ok p') :
    ∃ (stream : TcpStream) (t : Tcp.Socket), p.streams[i]? = some stream ∧
      p.reactor.sockets.kind stream.handle = some (.tcp t.state) ∧
      p'.reactor.sockets = p.reactor.sockets.setTcp stream.handle t.abort := by
  simp only [Program.step] at hstep
  split at hstep
  · cases hstep
  · rename_i stream hi
    obtain ⟨st, hst⟩ := hp.tcp _ (stream_mem hi)
    obtain ⟨t, ht, rfl⟩ := getTcp_of_kind hst
    simp only [TcpStream.abort, ht] at hstep
    cases hstep
    exact ⟨stream, t, hi, hst, rfl⟩

/-- A drop of a stream, by the state of its socket. -/
theorem dropStream_ok (hp : Owned p) {i : Nat} (hstep : p.step A (.dropStream i) = .ok p') :
    ∃ stream st, p.streams[i]? = some stream ∧
      p.reactor.sockets.kind stream.handle = some (.tcp st) ∧
      stream.drop p.reactor = .ok p'.reactor := by
  simp only [Program.step] at hstep
  split at hstep
  · cases hstep
  · rename_i stream hi
    obtain ⟨st, hst⟩ := hp.tcp _ (stream_mem hi)
    split at hstep
    · cases hstep
    · rename_i r hdrop
      cases hstep
      exact ⟨stream, st, hi, hst, hdrop⟩

/-- A drop of a listener removes all its sockets and touches no other. -/
theorem dropListener_minus (hp : Owned p) {i : Nat}
    (hstep : p.step A (.dropListener i) = .ok p') :
    Minus p.reactor.sockets p'.reactor.sockets (p.listenerHandles i) := by
  cases hi : p.listeners[i]? with
  | none =>
      simp only [Program.step, hi] at hstep
      cases hstep
  | some l =>
      obtain ⟨ss', hdrop, hmin⟩ :=
        TcpListener.dropAll_ok l.listener.handles p.reactor.sockets (hp.listener_nodup hi)
          (fun k hk => hp.tcp k (listener_mem hi hk))
      simp only [Program.step, hi, TcpListener.drop, hdrop] at hstep
      cases hstep
      rw [Program.listenerHandles, hi]
      exact hmin

/-- **CLOSED SOCKETS STAY**: a call leaves a closed socket where it is, unless
    it is the drop of its owner. -/
theorem closed_kept (hp : Owned p) {op : SockOp} (hop : op.isCall = true)
    (hstep : p.step A op = .ok p') (hk : p.reactor.sockets.kind h = some (.tcp .closed))
    (hrel : h ∉ p.released op) : p'.reactor.sockets.kind h = some (.tcp .closed) := by
  have hsome : (p.reactor.sockets.kind h).isSome = true := by rw [hk]; rfl
  cases op with
  | connect v => exact (hp.kind_opened rfl hstep hsome).trans hk
  | bindWithBacklog port n => exact (hp.kind_opened rfl hstep hsome).trans hk
  | accept i cx => exact (hp.kind_opened rfl hstep hsome).trans hk
  | udpBind v => exact (hp.kind_opened rfl hstep hsome).trans hk
  | streamState i => exact program_of_lookup (Or.inl hstep) ▸ hk
  | listenerStates i => exact program_of_lookup (Or.inr (Or.inl hstep)) ▸ hk
  | closeStream i =>
      obtain ⟨stream, t, -, hst, hafter⟩ := hp.closeStream_ok hstep
      rw [hafter]
      by_cases hh : h = stream.handle
      · -- closing a closed socket changes nothing
        subst hh
        have hclosed : t.state = .closed := by
          rw [hst] at hk
          simpa using hk
        rw [Tcp.Socket.close_of_closed hclosed]
        exact (kind_setTcp t).trans (by rw [hclosed])
      · exact (kind_setTcp_ne _ hh).trans hk
  | abortStream i =>
      obtain ⟨stream, t, -, -, hafter⟩ := hp.abortStream_ok hstep
      rw [hafter]
      by_cases hh : h = stream.handle
      · subst hh
        exact kind_setTcp _
      · exact (kind_setTcp_ne _ hh).trans hk
  | dropStream i =>
      obtain ⟨stream, st, hi, hst, hdrop⟩ := hp.dropStream_ok hstep
      have hne : h ≠ stream.handle := fun heq => hrel ((mem_streamHandles hi).mpr heq)
      obtain ⟨-, hmin⟩ | ⟨-, hother, -⟩ := TcpStream.drop_spec hst hdrop
      · exact (hmin.kind h (fun hm => hne (List.mem_singleton.mp hm))).trans hk
      · exact (hother h hne).trans hk
  | dropListener i => exact ((hp.dropListener_minus hstep).kind h hrel).trans hk
  | udpLookup i => exact program_of_lookup (Or.inr (Or.inr hstep)) ▸ hk
  | dropUdp i =>
      simp only [Program.step] at hstep
      split at hstep
      · cases hstep
      · rename_i udp hi
        have hudp := hp.udp udp.handle (List.mem_map_of_mem (List.mem_of_getElem? hi))
        have hm : udp.handle ∈ p.reactor.sockets.live.keys := kind_isSome.mp (by rw [hudp]; rfl)
        simp only [UdpSocket.drop, getUdp_of_kind hudp, remove_of_mem hm] at hstep
        cases hstep
        have hne : h ≠ udp.handle := by
          rintro rfl
          rw [hk] at hudp
          cases hudp
        exact (kind_erase_ne hne).trans hk
  | network k st => cases hop
  | cleanupOrphaned => cases hop

/-- A closed socket that its owner lets go of is gone. -/
theorem closed_released (hp : Owned p) {op : SockOp} (hstep : p.step A op = .ok p')
    (hk : p.reactor.sockets.kind h = some (.tcp .closed)) (hrel : h ∈ p.released op) :
    h ∉ p'.reactor.sockets.live.keys := by
  cases op with
  | dropStream i =>
      obtain ⟨stream, st, hi, -, hdrop⟩ := hp.dropStream_ok hstep
      obtain rfl := (mem_streamHandles hi).mp hrel
      obtain ⟨-, hmin⟩ | ⟨hne, -⟩ := TcpStream.drop_spec hk hdrop
      · exact hmin.notMem List.mem_cons_self
      · exact absurd rfl hne.1
  | dropListener i => exact (hp.dropListener_minus hstep).notMem hrel
  | _ => cases hrel

/-- What a call aborts is closed, and still there unless a listener was
    dropped. -/
theorem closed_of_aborted (hp : Owned p) {op : SockOp} (hstep : p.step A op = .ok p')
    (ha : h ∈ p.aborted op) :
    p'.reactor.sockets.kind h = some (.tcp .closed) ∨
      (∃ i, op = .dropListener i) ∧ h ∉ p'.reactor.sockets.live.keys := by
  cases op with
  | abortStream i =>
      obtain ⟨hm, -⟩ := List.mem_filter.mp ha
      obtain ⟨stream, t, hi, -, hafter⟩ := hp.abortStream_ok hstep
      obtain rfl := (mem_streamHandles hi).mp hm
      rw [hafter]
      exact Or.inl (kind_setTcp _)
  | dropStream i =>
      obtain ⟨hm, hpeer⟩ := List.mem_filter.mp ha
      obtain ⟨stream, st, hi, hst, hdrop⟩ := hp.dropStream_ok hstep
      obtain rfl := (mem_streamHandles hi).mp hm
      have habort : st.abortedByDrop = true := by
        rw [Bool.and_eq_true, SocketSet.abortedByDrop, hst] at hpeer
        exact hpeer.2
      obtain ⟨hremoved, -⟩ | ⟨-, -, hclosed⟩ := TcpStream.drop_spec hst hdrop
      · rcases hremoved with rfl | rfl
        · cases habort
        · cases habort
      · exact Or.inl (hclosed habort)
  | dropListener i =>
      obtain ⟨hm, -⟩ := List.mem_filter.mp ha
      exact Or.inr ⟨⟨i, rfl⟩, (hp.dropListener_minus hstep).notMem hm⟩
  | _ => cases ha

end Owned

theorem Owned.moves {A : Slots} :
    ∀ (ms : List (SocketHandle × State)) {p : Program}, Owned p → Owned (p.moves A ms) := by
  intro ms
  induction ms with
  | nil => intro p hp; exact hp
  | cons m ms ih =>
      intro p hp
      obtain ⟨h, st⟩ := m
      simp only [Program.moves]
      split
      · exact ih hp
      · split
        · rename_i p' hstep
          exact ih (owned_step hp hstep)
        · exact ih hp

/-! ## The records -/

namespace Teardown

variable {A : Slots} {s s' : Teardown}

/-- The program is sound, and an unsent RST belongs to a closed socket in the
    set. -/
structure Recorded (s : Teardown) : Prop where
  owned : Owned s.program
  closed : ∀ h ∈ s.unsent, s.program.reactor.sockets.kind h = some (.tcp .closed)

theorem recorded_start : Recorded start := ⟨owned_start, List.forall_mem_nil _⟩

/-- A successful call, taken apart. -/
theorem step_call {op : SockOp} (h : step A s (.call op) = .ok s') :
    op.isCall = true ∧ ∃ p, s.program.step A op = .ok p ∧
      s' = s.observe (s.program.aborted op) p := by
  simp only [step] at h
  split at h
  · rename_i hop
    split at h
    · rename_i p hp
      cases h
      exact ⟨hop, p, hp, rfl⟩
    · cases h
  · cases h

/-- After a cycle every RST is out. -/
theorem step_cycle {ingress timers : List (SocketHandle × State)}
    (h : step A s (.cycle ingress timers) = .ok s') :
    ∃ p, ((s.program.moves A ingress).moves A timers).step A .cleanupOrphaned = .ok p ∧
      s' = ⟨p, [], s.lost⟩ := by
  simp only [step] at h
  split at h
  · rename_i p hp
    cases h
    refine ⟨p, hp, ?_⟩
    simp only [observe, List.append_nil, List.filter_nil]
  · cases h

theorem recorded_step {op : ReactorOp} (hs : Recorded s) (h : step A s op = .ok s') :
    Recorded s' := by
  cases op with
  | cycle ingress timers =>
      obtain ⟨p, hp, rfl⟩ := step_cycle h
      exact ⟨owned_step ((hs.owned.moves ingress).moves timers) hp, List.forall_mem_nil _⟩
  | call op =>
      obtain ⟨hop, p, hp, rfl⟩ := step_call h
      refine ⟨owned_step hs.owned hp, ?_⟩
      intro k hk
      obtain ⟨hk, hlive⟩ := List.mem_filter.mp hk
      replace hlive := of_decide_eq_true hlive
      rcases List.mem_append.mp hk with hk | hk
      · by_cases hrel : k ∈ s.program.released op
        · exact absurd hlive (hs.owned.closed_released hp (hs.closed k hk) hrel)
        · exact hs.owned.closed_kept hop hp (hs.closed k hk) hrel
      · obtain hclosed | ⟨-, hgone⟩ := hs.owned.closed_of_aborted hp hk
        · exact hclosed
        · exact absurd hlive hgone

/-- An unsent RST survives a call exactly if its owner does not let go. -/
theorem live_iff_of_unsent {op : SockOp} {p : Program} (hs : Recorded s)
    (hop : op.isCall = true) (hp : s.program.step A op = .ok p) {h : SocketHandle}
    (hm : h ∈ s.unsent) :
    h ∈ p.reactor.sockets.live.keys ↔ h ∉ s.program.released op := by
  constructor
  · intro hlive hrel
    exact hs.owned.closed_released hp (hs.closed h hm) hrel hlive
  · intro hrel
    have hkept := hs.owned.closed_kept hop hp (hs.closed h hm) hrel
    exact kind_isSome.mp (by rw [hkept]; rfl)

/-- Nothing is lost by a call exactly if it meets the condition. -/
theorem all_live_iff {op : SockOp} {p : Program} (hs : Recorded s)
    (hop : op.isCall = true) (hp : s.program.step A op = .ok p) :
    (∀ h ∈ s.unsent ++ s.program.aborted op, h ∈ p.reactor.sockets.live.keys) ↔
      s.KeepsRst (.call op) := by
  have hunsent := fun h (hm : h ∈ s.unsent) => live_iff_of_unsent hs hop hp hm
  have haborted : (∀ i, op ≠ .dropListener i) →
      ∀ h ∈ s.program.aborted op, h ∈ p.reactor.sockets.live.keys := by
    intro hno h hm
    obtain hclosed | ⟨⟨i, hi⟩, -⟩ := hs.owned.closed_of_aborted hp hm
    · exact kind_isSome.mp (by rw [hclosed]; rfl)
    · exact absurd hi (hno i)
  rw [List.forall_mem_append]
  cases op with
  | dropStream i =>
      constructor
      · rintro ⟨hlive, -⟩ h hm hu
        exact (hunsent h hu).mp (hlive h hu) hm
      · intro hkeep
        refine ⟨fun h hu => (hunsent h hu).mpr fun hm => hkeep h hm hu, haborted ?_⟩
        intro i hi
        cases hi
  | dropListener i =>
      have hgone := fun h (hm : h ∈ s.program.listenerHandles i) =>
        (hs.owned.dropListener_minus hp).notMem hm
      constructor
      · rintro ⟨hlive, habort⟩ h hm
        refine ⟨?_, fun hu => hgone h hm (hlive h hu)⟩
        by_contra hpeer
        exact hgone h hm (habort h (List.mem_filter.mpr ⟨hm, Bool.eq_true_of_not_eq_false hpeer⟩))
      · intro hkeep
        refine ⟨fun h hu => (hunsent h hu).mpr fun hm => (hkeep h hm).2 hu, ?_⟩
        intro h hm
        obtain ⟨hm, hpeer⟩ := List.mem_filter.mp hm
        rw [(hkeep h hm).1] at hpeer
        cases hpeer
  | _ =>
      refine iff_of_true ⟨fun h hu => (hunsent h hu).mpr List.not_mem_nil, haborted ?_⟩ trivial
      intro i hi
      cases hi

/-- **ONE STEP** loses an RST exactly if it breaks the condition. -/
theorem lost_step {op : ReactorOp} (hs : Recorded s) (hlost : s.lost = [])
    (h : step A s op = .ok s') : s'.lost = [] ↔ s.KeepsRst op := by
  cases op with
  | cycle ingress timers =>
      obtain ⟨p, -, rfl⟩ := step_cycle h
      exact iff_of_true hlost trivial
  | call op =>
      obtain ⟨hop, p, hp, rfl⟩ := step_call h
      rw [← all_live_iff hs hop hp, observe, hlost, List.nil_append, List.filter_eq_nil_iff]
      simp

/-- A call that does not go through names something that is not there. -/
theorem keepsRst_of_error {op : ReactorOp} {e : SockHalt} (hs : Recorded s)
    (h : step A s op = .error e) : s.KeepsRst op := by
  cases op with
  | cycle ingress timers => trivial
  | call op =>
      rcases hs.owned.safe (A := A) op with habs | ⟨p, hp, -⟩
      · cases op with
        | dropStream i =>
            intro k hk
            cases hi : s.program.streams[i]? with
            | none =>
                rw [Program.streamHandles, hi] at hk
                cases hk
            | some stream =>
                simp only [Program.step, hi] at habs
                split at habs <;> cases habs
        | dropListener i =>
            intro k hk
            cases hi : s.program.listeners[i]? with
            | none =>
                rw [Program.listenerHandles, hi] at hk
                cases hk
            | some l =>
                simp only [Program.step, hi] at habs
                split at habs <;> cases habs
        | _ => trivial
      · cases op with
        | dropStream i =>
            simp only [step, SockOp.isCall, hp] at h
            cases h
        | dropListener i =>
            simp only [step, SockOp.isCall, hp] at h
            cases h
        | _ => trivial

end Teardown

/-- **WHEN EVERY ABORT GETS TO SEND ITS RST**: throughout a run, exactly if no
    stream is dropped between its abort and the next `poll_egress`, and no
    listener while one of its sockets has a peer to tell. -/
theorem rst_kept_iff (A : Slots) (ops : List ReactorOp) :
    (∀ pre, pre <+: ops → ∀ t, run (Teardown.step A) Teardown.start pre = .ok t → t.lost = []) ↔
      Along (Teardown.step A) Teardown.KeepsRst Teardown.start ops := by
  have hrec : ∀ {pre t}, run (Teardown.step A) Teardown.start pre = .ok t → t.Recorded :=
    fun {_ _} h => run_invariant (fun s op s' hs hstep => Teardown.recorded_step hs hstep)
      Teardown.recorded_start h
  rw [← always_iff_along (I := fun s => s.Recorded ∧ s.lost = []) ?_ ?_ ops Teardown.start
    ⟨Teardown.recorded_start, rfl⟩]
  · constructor
    · intro h pre hpre t ht
      exact ⟨hrec ht, h pre hpre t ht⟩
    · intro h pre hpre t ht
      exact (h pre hpre t ht).2
  · rintro s op s' ⟨hs, hlost⟩ hstep
    rw [← Teardown.lost_step hs hlost hstep]
    exact ⟨fun h => h.2, fun h => ⟨Teardown.recorded_step hs hstep, h⟩⟩
  · rintro s op e ⟨hs, -⟩ herr
    exact Teardown.keepsRst_of_error hs herr

/-- A connection aborted and dropped between two cycles, and a listener dropped
    with a handshake half done: both sockets are gone before any egress. -/
theorem rst_lost_by_drop :
    (∃ t, run (Teardown.step Slots.first) Teardown.start
        [.call (.connect (.ok ())), .cycle [(0, .established)] [], .call (.abortStream 0),
          .call (.dropStream 0)] = .ok t ∧ t.lost = [0]) ∧
    ∃ t, run (Teardown.step Slots.first) Teardown.start
        [.call (.bindWithBacklog 80 2), .cycle [(1, .synReceived)] [],
          .call (.dropListener 0)] = .ok t ∧ t.lost = [1] :=
  ⟨⟨_, rfl, rfl⟩, ⟨_, rfl, rfl⟩⟩

end DpdkNet
