import DpdkNet.Udp.UdpSocket

/-! # Flushing the mbuf UDP socket

    `dpdk-net-test/src/udp.rs`, `UdpSocket::flush`: bursts to the TX queue until
    the batch is empty.  A burst may accept nothing, and then the loop goes round
    with the same batch.  The `Drop` of the socket flushes.

    `flushLoop` is the loop with fuel, and it ends if some fuel is enough.  The
    driver is the sequence of its acceptances: what its `k`-th burst is ready to
    take.  `flush_ends_iff` says for which batches and which sequences flush and
    drop return. -/

namespace DpdkNet

namespace MbufUdp

namespace UdpSocket

open Finset

variable {σ : Type}

/-- The loop of `flush`; `none` when the fuel is out. -/
def flushLoop (D : Dpdk σ) : Nat → σ → ArrayVec Mbuf 64 → Nat → Option (Nat × ArrayVec Mbuf 64 × σ)
  | 0, _, _, _ => none
  | fuel + 1, s, txBatch, sent =>
      if txBatch.isEmpty then some (sent, txBatch, s)
      else
        let got := TxQueue.tx D s txBatch
        flushLoop D fuel got.2.2 got.2.1 (sent + got.1)

/-- Flush pending TX packets, and say how many were sent. -/
def flush (D : Dpdk σ) (fuel : Nat) (sock : UdpSocket) (s : σ) :
    Option (Except SocketError Nat × UdpSocket × σ) :=
  if sock.txBatch.isEmpty then some (.ok 0, sock, s)
  else if sock.txq then
    match flushLoop D fuel s sock.txBatch 0 with
    | none => none
    | some (sent, txBatch, s) => some (.ok sent, { sock with txBatch }, s)
  else some (.error .queueError, sock, s)

/-- The socket goes: flush, whatever it says, and free what is left in the
    batches. -/
def drop (D : Dpdk σ) (fuel : Nat) (sock : UdpSocket) (s : σ) : Option σ :=
  match flush D fuel sock s with
  | none => none
  | some (_, sock, s) => some ((sock.txBatch.toList ++ sock.rxBatch.toList).foldl D.pktmbufFree s)

/-- A driver by its acceptances: the `k`-th burst takes `a k` packets, or all that
    are offered.  Its state is the number of bursts so far. -/
def pacedNic (a : Nat → Nat) : Dpdk Nat where
  pktmbufAlloc k := (some (blankMbuf 0), k)
  pktmbufFree k _ := k
  ethRxBurst k _ := ([], k)
  ethTxBurst k ps := (min (a k) ps.length, k + 1)
  rx_le _ n := Nat.zero_le n
  tx_le _ _ := Nat.min_le_right _ _
  alloc_reset k m h := by
    cases h
    exact ⟨rfl, rfl⟩

/-- A driver that has done nothing yet. -/
def idle : Nat × DriverLog := (0, ⟨[], []⟩)

/-- Flush returns: what the driver accepted and what is left make up the batch, in
    order, and the result is the number of the former; without a TX queue it is an
    error, and nothing is accepted. -/
def Flushes (a : Nat → Nat) (sock : UdpSocket) : Prop :=
  ∃ fuel r sock' s, flush (pacedNic a).recorded fuel sock idle = some (r, sock', s) ∧
    s.2.accepted ++ sock'.txBatch.toList = sock.txBatch.toList ∧
    (r = .ok s.2.accepted.length ∨
      r = .error .queueError ∧ sock.txq = false ∧ s.2.accepted = [])

/-- Drop returns. -/
def Drops (a : Nat → Nat) (sock : UdpSocket) : Prop :=
  ∃ fuel s, drop (pacedNic a).recorded fuel sock idle = some s

/-! ## The loop -/

/-- One round: the driver takes what it is ready for from the front. -/
theorem tx_pacedNic (a : Nat → Nat) (k : Nat) (log : DriverLog) {v : ArrayVec Mbuf 64}
    (h : v.toList ≠ []) :
    TxQueue.tx (pacedNic a).recorded (k, log) v =
      (min (a k) v.len, v.dropFront (min (a k) v.len),
        (k + 1, { log with accepted := log.accepted ++ v.toList.take (min (a k) v.len) })) := by
  have hall : v.toList.take 64 = v.toList := List.take_of_length_le v.length_le
  rw [TxQueue.tx_of_ne_nil _ _ _ h, hall]
  rfl

theorem len_dropFront (v : ArrayVec Mbuf 64) (n : Nat) : (v.dropFront n).len = v.len - n :=
  List.length_drop

theorem flushLoop_nil (D : Dpdk σ) (fuel : Nat) (s : σ) {v : ArrayVec Mbuf 64} (sent : Nat)
    (h : v.toList = []) : flushLoop D (fuel + 1) s v sent = some (sent, v, s) := by
  rw [flushLoop, if_pos ((ArrayVec.isEmpty_iff v).mpr h)]

theorem flushLoop_cons (a : Nat → Nat) (fuel k : Nat) (log : DriverLog) {v : ArrayVec Mbuf 64}
    (sent : Nat) (h : v.toList ≠ []) :
    flushLoop (pacedNic a).recorded (fuel + 1) (k, log) v sent =
      flushLoop (pacedNic a).recorded fuel
        (k + 1, { log with accepted := log.accepted ++ v.toList.take (min (a k) v.len) })
        (v.dropFront (min (a k) v.len)) (sent + min (a k) v.len) := by
  rw [flushLoop, if_neg (fun he => h ((ArrayVec.isEmpty_iff v).mp he)), tx_pacedNic a k log h]

/-- **WHAT THE LOOP RETURNS**: if it ends, everything was accepted, in order. -/
theorem flushLoop_spec (a : Nat → Nat) :
    ∀ (fuel k : Nat) (log : DriverLog) (v : ArrayVec Mbuf 64) (sent : Nat)
      (r : Nat × ArrayVec Mbuf 64 × Nat × DriverLog),
      flushLoop (pacedNic a).recorded fuel (k, log) v sent = some r →
      r.1 = sent + v.len ∧ r.2.1.toList = [] ∧
        r.2.2.2.accepted = log.accepted ++ v.toList := by
  intro fuel
  induction fuel with
  | zero => intro k log v sent r h; cases h
  | succ fuel ih =>
      intro k log v sent r h
      by_cases hv : v.toList = []
      · rw [flushLoop_nil _ _ _ _ hv] at h
        cases h
        refine ⟨?_, hv, ?_⟩
        · show sent = sent + v.toList.length
          rw [hv]
          rfl
        · rw [hv, List.append_nil]
      · rw [flushLoop_cons a fuel k log sent hv] at h
        obtain ⟨hsent, hnil, hlog⟩ := ih _ _ _ _ r h
        refine ⟨?_, hnil, ?_⟩
        · rw [hsent, len_dropFront]
          omega
        · rw [hlog, List.append_assoc]
          exact congrArg (log.accepted ++ ·) (List.take_append_drop _ _)

/-- What the bursts from the `k`-th on are ready for: the first of them, and the
    others. -/
theorem sum_acceptances_succ (a : Nat → Nat) (k n : Nat) :
    ∑ j ∈ range (n + 1), a (k + j) = a k + ∑ j ∈ range n, a (k + 1 + j) := by
  rw [sum_range_succ', Nat.add_comm]
  congr 1
  refine sum_congr rfl (fun j _ => ?_)
  congr 1
  omega

/-- **WHEN THE LOOP ENDS**: exactly if the driver is ready for the whole batch
    after finitely many bursts. -/
theorem flushLoop_ends_iff (a : Nat → Nat) (k : Nat) (log : DriverLog) (v : ArrayVec Mbuf 64)
    (sent : Nat) :
    (∃ fuel r, flushLoop (pacedNic a).recorded fuel (k, log) v sent = some r) ↔
      ∃ n, v.len ≤ ∑ j ∈ range n, a (k + j) := by
  constructor
  · rintro ⟨fuel, r, h⟩
    induction fuel generalizing k log v sent with
    | zero => cases h
    | succ fuel ih =>
        by_cases hv : v.toList = []
        · refine ⟨0, ?_⟩
          show v.toList.length ≤ _
          rw [hv]
          exact Nat.zero_le _
        · rw [flushLoop_cons a fuel k log sent hv] at h
          obtain ⟨n, hn⟩ := ih _ _ _ _ h
          rw [len_dropFront] at hn
          refine ⟨n + 1, ?_⟩
          rw [sum_acceptances_succ]
          omega
  · rintro ⟨n, hn⟩
    induction n generalizing k log v sent with
    | zero =>
        have hv : v.toList = [] := List.length_eq_zero_iff.mp (Nat.le_zero.mp hn)
        exact ⟨1, _, flushLoop_nil _ 0 _ sent hv⟩
    | succ n ih =>
        by_cases hv : v.toList = []
        · exact ⟨1, _, flushLoop_nil _ 0 _ sent hv⟩
        · rw [sum_acceptances_succ] at hn
          obtain ⟨fuel, r, h⟩ := ih (k + 1)
            { log with accepted := log.accepted ++ v.toList.take (min (a k) v.len) }
            (v.dropFront (min (a k) v.len)) (sent + min (a k) v.len)
            (by rw [len_dropFront]; omega)
          exact ⟨fuel + 1, r, (flushLoop_cons a fuel k log sent hv).trans h⟩

/-! ## Flush and drop -/

theorem flush_eq_loop (D : Dpdk σ) (fuel : Nat) {sock : UdpSocket} (s : σ)
    (hne : sock.txBatch.toList ≠ []) (htxq : sock.txq = true) :
    flush D fuel sock s = (flushLoop D fuel s sock.txBatch 0).map
      fun r => (.ok r.1, { sock with txBatch := r.2.1 }, r.2.2) := by
  rw [flush, if_neg (fun he => hne ((ArrayVec.isEmpty_iff _).mp he)), if_pos htxq]
  cases flushLoop D fuel s sock.txBatch 0 <;> rfl

/-- Drop returns when flush does. -/
theorem drop_isSome (D : Dpdk σ) (fuel : Nat) (sock : UdpSocket) (s : σ) :
    (∃ s', drop D fuel sock s = some s') ↔ ∃ r, flush D fuel sock s = some r := by
  rw [drop]
  cases flush D fuel sock s with
  | none =>
      constructor
      · rintro ⟨_, h⟩
        cases h
      · rintro ⟨_, h⟩
        cases h
  | some r => exact iff_of_true ⟨_, rfl⟩ ⟨_, rfl⟩

/-- Flush returns at all exactly if the driver is ready for the batch. -/
theorem flush_isSome_iff (a : Nat → Nat) (sock : UdpSocket) :
    (∃ fuel r, flush (pacedNic a).recorded fuel sock idle = some r) ↔
      (sock.txq = true → ∃ n, sock.txBatch.len ≤ ∑ k ∈ range n, a k) := by
  by_cases hne : sock.txBatch.toList = []
  · refine iff_of_true ⟨0, (.ok 0, sock, idle), ?_⟩ (fun _ => ⟨0, ?_⟩)
    · rw [flush, if_pos ((ArrayVec.isEmpty_iff _).mpr hne)]
    · show sock.txBatch.toList.length ≤ _
      rw [hne]
      exact Nat.zero_le _
  · cases htxq : sock.txq with
    | false =>
        refine iff_of_true ⟨0, (.error .queueError, sock, idle), ?_⟩ (fun h => by cases h)
        rw [flush, if_neg (fun he => hne ((ArrayVec.isEmpty_iff _).mp he)), htxq]
        rfl
    | true =>
        have hloop := flushLoop_ends_iff a 0 ⟨[], []⟩ sock.txBatch 0
        simp only [Nat.zero_add] at hloop
        simp only [flush_eq_loop _ _ _ hne htxq, forall_const, ← hloop]
        constructor
        · rintro ⟨fuel, r, h⟩
          obtain ⟨r', hr', -⟩ := Option.map_eq_some_iff.mp h
          exact ⟨fuel, r', hr'⟩
        · rintro ⟨fuel, r, h⟩
          exact ⟨fuel, _, Option.map_eq_some_iff.mpr ⟨r, h, rfl⟩⟩

/-- What flush returns is what it should be. -/
theorem flush_result {a : Nat → Nat} {fuel : Nat} {sock sock' : UdpSocket}
    {r : Except SocketError Nat} {s : Nat × DriverLog}
    (h : flush (pacedNic a).recorded fuel sock idle = some (r, sock', s)) :
    s.2.accepted ++ sock'.txBatch.toList = sock.txBatch.toList ∧
    (r = .ok s.2.accepted.length ∨
      r = .error .queueError ∧ sock.txq = false ∧ s.2.accepted = []) := by
  by_cases hne : sock.txBatch.toList = []
  · rw [flush, if_pos ((ArrayVec.isEmpty_iff _).mpr hne)] at h
    cases h
    exact ⟨rfl, Or.inl rfl⟩
  · cases htxq : sock.txq with
    | false =>
        rw [flush, if_neg (fun he => hne ((ArrayVec.isEmpty_iff _).mp he)), htxq] at h
        cases h
        exact ⟨rfl, Or.inr ⟨rfl, rfl, rfl⟩⟩
    | true =>
        rw [flush_eq_loop _ _ _ hne htxq] at h
        obtain ⟨got, hgot, hr⟩ := Option.map_eq_some_iff.mp h
        obtain ⟨hsent, hnil, hlog⟩ := flushLoop_spec a fuel 0 ⟨[], []⟩ sock.txBatch 0 got hgot
        cases hr
        rw [List.nil_append] at hlog
        refine ⟨?_, Or.inl ?_⟩
        · show _ ++ got.2.1.toList = _
          rw [hlog, hnil, List.append_nil]
        · rw [hlog, hsent, Nat.zero_add]
          rfl

/-- **FLUSH AND DROP RETURN** exactly if no TX queue is attached, or the driver is
    ready for the whole batch after finitely many bursts. -/
theorem flush_ends_iff (a : Nat → Nat) (sock : UdpSocket) :
    Flushes a sock ∧ Drops a sock ↔
      (sock.txq = true → ∃ n, sock.txBatch.len ≤ ∑ k ∈ range n, a k) := by
  rw [← flush_isSome_iff]
  constructor
  · rintro ⟨⟨fuel, r, sock', s, h, -⟩, -⟩
    exact ⟨fuel, _, h⟩
  · rintro ⟨fuel, ⟨r, sock', s⟩, h⟩
    refine ⟨⟨fuel, r, sock', s, h, flush_result h⟩, fuel, ?_⟩
    exact (drop_isSome _ fuel sock idle).mpr ⟨_, h⟩

/-- A socket with one packet queued. -/
def onePacket : UdpSocket :=
  { boundTo ⟨⟨10, 0, 0, 1⟩, 7⟩ with txBatch := ArrayVec.new.push (blankMbuf 0) (Nat.zero_lt_succ 63) }

/-- A driver that accepts nothing: neither flush nor drop returns. -/
theorem stalled_driver_hangs : ¬ (Flushes (fun _ => 0) onePacket ∨ Drops (fun _ => 0) onePacket) := by
  have hnever : ¬ ∃ fuel r, flush (pacedNic fun _ => 0).recorded fuel onePacket idle = some r := by
    rw [flush_isSome_iff]
    intro h
    obtain ⟨n, hn⟩ := h rfl
    rw [sum_const_zero] at hn
    exact absurd hn (by decide)
  rintro (⟨fuel, r, sock', s, h, -⟩ | ⟨fuel, h⟩)
  · exact hnever ⟨fuel, _, h⟩
  · exact hnever ⟨fuel, (drop_isSome _ fuel onePacket idle).mp h⟩

end UdpSocket

end MbufUdp

end DpdkNet
