import DpdkNet.Lib.Runs
import DpdkNet.Socket.Futures

/-! # Sending a whole slice

    `TcpStream::send` hands its data to the socket piece by piece, as much in each
    poll as the send buffer takes, and is done when nothing is left.  That is what
    a loop over `TokioTcpStream::poll_write` does, and for data with at least one
    byte the two cannot be told apart.

    The loop is done at once when there is nothing to write.  The future is not:
    it takes a `send_slice` of nothing for a full buffer and waits. -/

namespace DpdkNet

open Tcp Runs

/-- What a poll returns, errors not told apart. -/
def Poll.okOnly {ε : Type} : Poll (Except ε Nat) → Poll (Option Nat)
  | .ready (.ok n) => .ready (some n)
  | .ready (.error _) => .ready none
  | .pending => .pending

/-- A poll of something that sends data: from the offset it is at, with the socket
    and its buffers. -/
abbrev SendPoll :=
  Waker → Nat → Tcp.Socket → Buffers → Poll (Option Nat) × Nat × Tcp.Socket × Buffers

def TcpSendFuture.sendPoll (data : List UInt8) : SendPoll := fun cx offset t b =>
  ((TcpSendFuture.poll cx data offset t b).1.okOnly, (TcpSendFuture.poll cx data offset t b).2)

/-- Write until all data is written, or nothing is taken any more. -/
def TokioTcpStream.writeAllLoop (cx : Waker) (data : List UInt8) :
    Nat → Nat → Tcp.Socket → Buffers → Poll (Option Nat) × Nat × Tcp.Socket × Buffers
  | 0, offset, t, b => (.pending, offset, t, b)
  | fuel + 1, offset, t, b =>
      if data.length ≤ offset then (.ready (some data.length), offset, t, b)
      else
        match pollWrite cx (data.drop offset) t b with
        | (.ready (.ok n), t, b) => writeAllLoop cx data fuel (offset + n) t b
        | (.ready (.error _), t, b) => (.ready none, offset, t, b)
        | (.pending, t, b) => (.pending, offset, t, b)

def TokioTcpStream.writeAllPoll (data : List UInt8) : SendPoll := fun cx offset t b =>
  writeAllLoop cx data (data.length + 1) offset t b

/-! ## Polls -/

/-- A poll that happens: by whom, and the socket and buffers that it finds. -/
structure PollAt where
  cx : Waker
  socket : Tcp.Socket
  buffers : Buffers

/-- The socket can transmit. -/
def PollAt.IsOpen (p : PollAt) : Prop := p.socket.state.maySend = true

/-- A send under way: how far it is, the bytes it has put into send buffers, what
    the last poll returned, and how it left the socket. -/
structure Sending where
  offset : Nat
  enqueued : List UInt8
  outcome : Poll (Option Nat)
  left : Option (Tcp.Socket × Buffers)

def Sending.start : Sending := ⟨0, [], .pending, none⟩

/-- One poll; a future that is done is not polled again. -/
def Sending.step (poll : SendPoll) (s : Sending) (p : PollAt) : Except Unit Sending :=
  match s.outcome with
  | .ready _ => .error ()
  | .pending =>
      let r := poll p.cx s.offset p.socket p.buffers
      .ok
        { offset := r.2.1
          enqueued := s.enqueued ++ r.2.2.2.txBuffer.drop p.buffers.txBuffer.length
          outcome := r.1
          left := some r.2.2 }

/-- A prefix of the data has been enqueued, and the send is done exactly if it is
    all of it. -/
structure Sending.Delivers (data : List UInt8) (s : Sending) : Prop where
  enqueued : s.enqueued = data.take s.offset
  offset_le : s.offset ≤ data.length
  outcome : s.outcome = if s.offset = data.length then .ready (some data.length) else .pending

section Open

variable {data : List UInt8} {offset : Nat} {t : Tcp.Socket} (cx : Waker) (b : Buffers)

/-- What both leave of a socket that takes a piece of the data. -/
def afterSend (cx : Waker) (data : List UInt8) (offset : Nat) (t : Tcp.Socket) (b : Buffers) :
    Poll (Option Nat) × Nat × Tcp.Socket × Buffers :=
  let sent := min (data.length - offset) b.window
  let b' := { b with txBuffer := b.txBuffer ++ (data.drop offset).take b.window }
  if offset + sent = data.length then (.ready (some data.length), offset + sent, t, b')
  else (.pending, offset + sent, t.registerSendWaker cx, b')

theorem sendSlice_open (hopen : t.state.maySend = true) (buf : List UInt8) :
    b.sendSlice t.state buf
      = (.ok (min buf.length b.window), { b with txBuffer := b.txBuffer ++ buf.take b.window }) := by
  rw [Buffers.sendSlice, if_pos hopen]

theorem sendPoll_open (hopen : t.state.maySend = true) (hlt : offset < data.length) :
    TcpSendFuture.sendPoll data cx offset t b = afterSend cx data offset t b := by
  rw [TcpSendFuture.sendPoll, TcpSendFuture.poll, sendSlice_open b hopen, List.length_drop,
    afterSend]
  cases hn : min (data.length - offset) b.window with
  | zero =>
      have hne : ¬ offset + 0 = data.length := by omega
      simp only [if_neg hne]
      rfl
  | succ n =>
      by_cases hall : offset + (n + 1) = data.length
      · have hle : data.length ≤ offset + (n + 1) := Nat.le_of_eq hall.symm
        simp only [if_pos hle, if_pos hall]
        rfl
      · have hle : ¬ data.length ≤ offset + (n + 1) := by omega
        simp only [if_neg hle, if_neg hall]
        rfl

/-- `poll_write` of something. -/
theorem pollWrite_open (hopen : t.state.maySend = true) {buf : List UInt8} (hbuf : buf ≠ []) :
    TokioTcpStream.pollWrite cx buf t b =
      if min buf.length b.window = 0 then
        (.pending, t.registerSendWaker cx, { b with txBuffer := b.txBuffer ++ buf.take b.window })
      else
        (.ready (.ok (min buf.length b.window)), t,
          { b with txBuffer := b.txBuffer ++ buf.take b.window }) := by
  rw [TokioTcpStream.pollWrite, sendSlice_open b hopen]
  cases min buf.length b.window with
  | zero => simp only [if_neg hbuf, if_true]
  | succ n => rfl

/-- The loop calls `poll_write` twice at most: what the first call leaves has no
    room in the buffer for. -/
theorem writeAllPoll_open (hopen : t.state.maySend = true) (hlt : offset < data.length) :
    TokioTcpStream.writeAllPoll data cx offset t b = afterSend cx data offset t b := by
  have hrest : ∀ {i}, i < data.length → data.drop i ≠ [] := fun hi hnil => by
    rw [List.drop_eq_nil_iff] at hnil
    omega
  obtain ⟨k, hk⟩ : ∃ k, data.length = k + 1 := ⟨data.length - 1, by omega⟩
  have hmore : ¬ data.length ≤ offset := by omega
  rw [TokioTcpStream.writeAllPoll, TokioTcpStream.writeAllLoop, if_neg hmore,
    pollWrite_open cx b hopen (hrest hlt), List.length_drop, afterSend]
  by_cases h0 : min (data.length - offset) b.window = 0
  · have hne : ¬ offset + min (data.length - offset) b.window = data.length := by omega
    simp only [if_pos h0, if_neg hne]
    rw [h0, Nat.add_zero]
  · simp only [if_neg h0]
    rw [hk, TokioTcpStream.writeAllLoop, ← hk]
    by_cases hall : offset + min (data.length - offset) b.window = data.length
    · rw [if_pos (Nat.le_of_eq hall.symm), if_pos hall]
    · -- the buffer is full now
      have hless : offset + min (data.length - offset) b.window < data.length := by omega
      have hwindow : min (data.length - offset) b.window = b.window := by omega
      have hfull : Buffers.window { b with txBuffer := b.txBuffer ++ (data.drop offset).take b.window }
          = 0 := by
        have hb : b.window = b.txCapacity - b.txBuffer.length := rfl
        show b.txCapacity - (b.txBuffer ++ (data.drop offset).take b.window).length = 0
        rw [List.length_append, List.length_take, List.length_drop]
        omega
      rw [if_neg (Nat.not_le.mpr hless), if_neg hall, pollWrite_open cx _ hopen (hrest hless), hfull,
        Nat.min_zero, if_pos rfl]
      simp only [List.take_zero, List.append_nil]

end Open

/-! ## Sends -/

/-- A send that is not done has something left. -/
theorem Sending.Delivers.lt_of_pending {data : List UInt8} {s : Sending} (hs : s.Delivers data)
    (hpending : s.outcome = .pending) : s.offset < data.length := by
  have houtcome := hs.outcome
  rw [hpending] at houtcome
  have hle := hs.offset_le
  by_contra hnot
  rw [if_pos (by omega)] at houtcome
  cases houtcome

/-- **ONE POLL** of a send that is not done. -/
theorem Sending.delivers_step {data : List UInt8} {s s' : Sending} {p : PollAt}
    (hs : s.Delivers data) (hopen : p.IsOpen)
    (h : s.step (TcpSendFuture.sendPoll data) p = .ok s') : s'.Delivers data := by
  rw [step] at h
  split at h
  · cases h
  · rename_i hpending
    have hlt := hs.lt_of_pending hpending
    rw [sendPoll_open p.cx p.buffers hopen hlt, afterSend] at h
    have henqueued : s.enqueued ++ (data.drop s.offset).take p.buffers.window
        = data.take (s.offset + min (data.length - s.offset) p.buffers.window) := by
      rw [hs.enqueued, List.take_add, List.take_eq_take_min (i := p.buffers.window),
        List.length_drop, Nat.min_comm]
    by_cases hall : s.offset + min (data.length - s.offset) p.buffers.window = data.length
    · simp only [if_pos hall, List.drop_left, henqueued] at h
      cases h
      exact ⟨rfl, Nat.le_of_eq hall, (if_pos hall).symm⟩
    · simp only [if_neg hall, List.drop_left, henqueued] at h
      cases h
      refine ⟨rfl, ?_, (if_neg hall).symm⟩
      show s.offset + min (data.length - s.offset) p.buffers.window ≤ data.length
      omega

/-- The two polls agree while something is left. -/
theorem Sending.step_agrees {data : List UInt8} {s : Sending} {p : PollAt}
    (hs : s.Delivers data) (hopen : p.IsOpen) :
    s.step (TcpSendFuture.sendPoll data) p = s.step (TokioTcpStream.writeAllPoll data) p := by
  rw [step, step]
  split
  · rfl
  · rename_i hpending
    have hlt := hs.lt_of_pending hpending
    rw [sendPoll_open p.cx p.buffers hopen hlt, writeAllPoll_open p.cx p.buffers hopen hlt]

/-- **WHEN A SEND DELIVERS ITS DATA**: on an open connection, whatever room every
    poll finds, the polls of the future are those of the loop over `poll_write`,
    the data is enqueued in order and the future is done when all of it is,
    exactly if there is data. -/
theorem send_delivers_iff (data : List UInt8) :
    (∀ polls : List PollAt, (∀ p ∈ polls, p.IsOpen) →
      run (Sending.step (TcpSendFuture.sendPoll data)) .start polls
        = run (Sending.step (TokioTcpStream.writeAllPoll data)) .start polls ∧
      ∀ s, polls ≠ [] → run (Sending.step (TcpSendFuture.sendPoll data)) .start polls = .ok s →
        s.Delivers data) ↔
    data ≠ [] := by
  constructor
  · -- polled once, a send of nothing waits
    rintro h rfl
    have hone := (h [⟨0, ⟨.established, none, none⟩, ⟨[], false, [], 1⟩⟩]
      (fun p hp => by rw [List.mem_singleton.mp hp]; rfl)).2 _ (List.cons_ne_nil _ _) rfl
    cases hone.outcome
  · intro hdata polls hopen
    have hstart : Sending.Delivers data .start := by
      refine ⟨rfl, Nat.zero_le _, (if_neg fun h => hdata ?_).symm⟩
      exact List.length_eq_zero_iff.mp h.symm
    have halong : Along (Sending.step (TcpSendFuture.sendPoll data)) (fun _ p => p.IsOpen)
        Sending.start polls := along_of_forall_mem polls Sending.start hopen
    refine ⟨?_, ?_⟩
    · exact run_congr (fun s p s' hs hp => Sending.delivers_step hs hp)
        (fun s p hs hp => Sending.step_agrees hs hp) polls .start hstart halong
    · intro s _ hrun
      exact run_invariant_along (fun s p s' hs hp => Sending.delivers_step hs hp) polls .start s
        hstart halong hrun

/-- The empty slice on an open connection with an empty send buffer: the loop is
    done, the future waits, although nothing is left to send. -/
theorem empty_send_waits :
    TcpSendFuture.poll 7 [] 0 ⟨.established, none, none⟩ ⟨[], false, [], 64⟩
        = (.pending, 0, ⟨.established, none, some 7⟩, ⟨[], false, [], 64⟩) ∧
      TokioTcpStream.pollWrite 7 [] ⟨.established, none, none⟩ ⟨[], false, [], 64⟩
        = (.ready (.ok 0), ⟨.established, none, none⟩, ⟨[], false, [], 64⟩) ∧
      ¬ ∀ polls : List PollAt, (∀ p ∈ polls, p.IsOpen) →
        ∀ s, polls ≠ [] → run (Sending.step (TcpSendFuture.sendPoll [])) .start polls = .ok s →
          s.Delivers [] := by
  refine ⟨rfl, rfl, ?_⟩
  intro h
  have hone := h [⟨7, ⟨.established, none, none⟩, ⟨[], false, [], 64⟩⟩]
    (fun p hp => by rw [List.mem_singleton.mp hp]; rfl) _ (List.cons_ne_nil _ _) rfl
  cases hone.outcome

end DpdkNet
