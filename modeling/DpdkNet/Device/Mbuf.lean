import DpdkNet.Lib.ArrayVec

/-! # Mbufs, the DPDK calls, and the RX/TX queues

    The bottom of the device: `api/rte/mbuf.rs` and `api/rte/queue.rs`.

    DPDK itself (the NIC, its driver and the mempool) is reached through five
    C calls.  `Dpdk σ` is that surface with `σ` whatever state lies behind it;
    a statement about every `Dpdk σ` is a statement about every driver and
    every choice it makes.  The laws it carries are the documented contract of
    the calls: a burst never returns, and never accepts, more packets than the
    caller offered, and an allocated mbuf comes reset.

    An `Mbuf` owns its `rte_mbuf`: whoever lets one go out of scope calls
    `pktmbufFree` (the `Drop` of the source), and `mem::forget` is the absence
    of that call. -/

namespace DpdkNet

/-- The bytes of an Ethernet frame. -/
abbrev Frame := List UInt8

/-- `u16::MAX` -/
def u16Max : Nat := 65535

/-- A packet buffer: the address of its `rte_mbuf`, the memory from the data
    pointer to the end of the buffer, and the two length fields. -/
structure Mbuf where
  inner : Nat
  buf : List UInt8
  dataLen : Nat
  pktLen : Nat
  deriving DecidableEq, Repr

/-- A closure over `&mut [u8]`: it may rewrite the slice but not resize it. -/
structure SliceWriter where
  write : List UInt8 → List UInt8
  length_write : ∀ b, (write b).length = b.length

namespace Mbuf

/-- The bytes of valid data. -/
def data (m : Mbuf) : Frame := m.buf.take m.dataLen

/-- Unused space at the end of the buffer. -/
def tailroom (m : Mbuf) : Nat := m.buf.length - m.dataLen

/-- Back to the initial state: no data. -/
def reset (m : Mbuf) : Mbuf := { m with dataLen := 0, pktLen := 0 }

/-- Append space for `len` bytes: refused above `u16::MAX` by the wrapper and
    beyond the tailroom by `rte_pktmbuf_append`. -/
def append (m : Mbuf) (len : Nat) : Option Mbuf :=
  if u16Max < len then none
  else if m.tailroom < len then none
  else some { m with
    dataLen := (m.dataLen + len) % 2 ^ 16
    pktLen := (m.pktLen + len) % 2 ^ 32 }

/-- Extend the data length by `len` bytes without a bounds check; the two
    fields are truncated to `u16` and `u32`. -/
def extend (m : Mbuf) (len : Nat) : Mbuf :=
  { m with
    dataLen := (m.dataLen + len) % 2 ^ 16
    pktLen := (m.pktLen + len) % 2 ^ 32 }

/-- Run a closure on `data_mut()`. -/
def writeData (m : Mbuf) (f : SliceWriter) : Mbuf :=
  { m with buf := f.write m.data ++ m.buf.drop m.dataLen }

/-- Reset the mbuf, append room for `d` and copy it in; `false` when there is
    no room, and then the mbuf stays reset. -/
def copyFromSlice (m : Mbuf) (d : Frame) : Bool × Mbuf :=
  match m.reset.append d.length with
  | some m' => (true, { m' with buf := d ++ m'.buf.drop d.length })
  | none => (false, m.reset)

/-- A copy succeeds exactly when the frame fits the `u16` length and the
    buffer. -/
theorem copyFromSlice_fst (m : Mbuf) (d : Frame) :
    (m.copyFromSlice d).1 = true ↔ d.length ≤ u16Max ∧ d.length ≤ m.buf.length := by
  unfold copyFromSlice append tailroom reset
  by_cases h1 : u16Max < d.length
  · rw [if_pos h1]
    exact iff_of_false Bool.false_ne_true (fun h => absurd h.1 (Nat.not_le.mpr h1))
  · rw [if_neg h1]
    by_cases h2 : m.buf.length - 0 < d.length
    · rw [if_pos h2]
      exact iff_of_false Bool.false_ne_true (fun h => absurd h.2 (Nat.not_le.mpr h2))
    · rw [if_neg h2]
      exact iff_of_true rfl ⟨Nat.not_lt.mp h1, Nat.not_lt.mp h2⟩

/-- After a successful copy the mbuf holds exactly the frame. -/
theorem data_copyFromSlice {m m' : Mbuf} {d : Frame}
    (h : m.copyFromSlice d = (true, m')) : m'.data = d := by
  have hfit := (copyFromSlice_fst m d).mp (by rw [h])
  have hlen : d.length % 2 ^ 16 = d.length :=
    Nat.mod_eq_of_lt (by have := hfit.1; unfold u16Max at this; omega)
  unfold copyFromSlice append tailroom reset at h
  have h1 : ¬ u16Max < d.length := by omega
  have h2 : ¬ m.buf.length - 0 < d.length := by omega
  simp only [h1, h2, if_false, Nat.zero_add, hlen, Prod.mk.injEq, true_and] at h
  subst h
  simp [data]

/-- Copying never changes which `rte_mbuf` it is. -/
@[simp] theorem inner_copyFromSlice (m : Mbuf) (d : Frame) :
    (m.copyFromSlice d).2.inner = m.inner := by
  unfold copyFromSlice
  cases h : m.reset.append d.length with
  | none => rfl
  | some m' =>
      unfold append at h
      split at h
      · cases h
      · split at h
        · cases h
        · cases h
          rfl

/-- What the closure left in the slice is what the mbuf then holds. -/
theorem data_writeData (m : Mbuf) (f : SliceWriter) :
    (m.writeData f).data = f.write m.data := by
  have hlen : (f.write m.data).length = min m.dataLen m.buf.length := by
    rw [f.length_write, data, List.length_take]
  show (f.write m.data ++ m.buf.drop m.dataLen).take m.dataLen = f.write m.data
  by_cases h : m.dataLen ≤ m.buf.length
  · rw [Nat.min_eq_left h] at hlen
    exact List.take_left' hlen
  · rw [List.drop_eq_nil_of_le (by omega), List.append_nil]
    exact List.take_of_length_le (by omega)

end Mbuf

/-! ## The C calls -/

/-- The DPDK calls the crate makes, over a state `σ` that stands for the
    mempool, the NIC and its driver. -/
structure Dpdk (σ : Type) where
  pktmbufAlloc : σ → Option Mbuf × σ
  pktmbufFree : σ → Mbuf → σ
  /-- `rte_eth_rx_burst`: the packets written to the array, oldest first. -/
  ethRxBurst : σ → Nat → List Mbuf × σ
  /-- `rte_eth_tx_burst`: how many of the packets were accepted. -/
  ethTxBurst : σ → List Mbuf → Nat × σ
  rx_le : ∀ s n, (ethRxBurst s n).1.length ≤ n
  tx_le : ∀ s ps, (ethTxBurst s ps).1 ≤ ps.length
  alloc_reset : ∀ s m, (pktmbufAlloc s).1 = some m → m.dataLen = 0 ∧ m.pktLen = 0

/-- What the driver has done so far: the bursts it returned and the packets it
    accepted, both in order. -/
structure DriverLog where
  bursts : List (List Mbuf)
  accepted : List Mbuf

variable {σ : Type}

/-- The same driver with its bursts written down. -/
def Dpdk.recorded (D : Dpdk σ) : Dpdk (σ × DriverLog) where
  pktmbufAlloc s := ((D.pktmbufAlloc s.1).1, (D.pktmbufAlloc s.1).2, s.2)
  pktmbufFree s m := (D.pktmbufFree s.1 m, s.2)
  ethRxBurst s n :=
    ((D.ethRxBurst s.1 n).1, (D.ethRxBurst s.1 n).2,
      { s.2 with bursts := s.2.bursts ++ [(D.ethRxBurst s.1 n).1] })
  ethTxBurst s ps :=
    ((D.ethTxBurst s.1 ps).1, (D.ethTxBurst s.1 ps).2,
      { s.2 with accepted := s.2.accepted ++ ps.take (D.ethTxBurst s.1 ps).1 })
  rx_le s n := D.rx_le s.1 n
  tx_le s ps := D.tx_le s.1 ps
  alloc_reset s m h := D.alloc_reset s.1 m h

/-- An empty mbuf with the default 2048 bytes of room. -/
def blankMbuf (inner : Nat) : Mbuf := ⟨inner, List.replicate 2048 0, 0, 0⟩

/-- A driver for worked examples: allocation always succeeds, every poll returns
    the packets `ps`, and the TX ring takes at most `room` packets a burst. -/
def scriptedNic (ps : List Mbuf) (room : Nat) : Dpdk Unit where
  pktmbufAlloc s := (some (blankMbuf 0), s)
  pktmbufFree s _ := s
  ethRxBurst s n := (ps.take n, s)
  ethTxBurst s qs := (min room qs.length, s)
  rx_le s n := by
    show (ps.take n).length ≤ n
    rw [List.length_take]
    exact Nat.min_le_left _ _
  tx_le _ _ := Nat.min_le_right _ _
  alloc_reset s m h := by
    cases h
    exact ⟨rfl, rfl⟩

/-- An mbuf with 64 bytes of room. -/
def smallMbuf (inner : Nat) : Mbuf := ⟨inner, List.replicate 64 0, 0, 0⟩

/-- A mempool and a NIC that has packets for us in its ring. -/
structure PoolState where
  free : List Nat
  ring : List Nat

/-- The driver over it: the ring is handed out in one burst, and at most `room`
    packets are accepted per burst. -/
def poolNic (room : Nat) : Dpdk PoolState where
  pktmbufAlloc s :=
    match s.free with
    | [] => (none, s)
    | p :: ps => (some (smallMbuf p), { s with free := ps })
  pktmbufFree s m := { s with free := m.inner :: s.free }
  ethRxBurst s n := ((s.ring.take n).map smallMbuf, { s with ring := s.ring.drop n })
  ethTxBurst s ps :=
    (min room ps.length, { s with ring := s.ring ++ (ps.take room).map Mbuf.inner })
  rx_le s n := by
    rw [List.length_map, List.length_take]
    exact Nat.min_le_left _ _
  tx_le _ _ := Nat.min_le_right _ _
  alloc_reset s m h := by
    split at h
    · cases h
    · cases h
      exact ⟨rfl, rfl⟩

/-! ## Queues -/

/-- Maximum burst size for RX/TX operations. -/
def maxBurstSize : Nat := 64

namespace RxQueue

variable {cap : Nat}

/-- The push loop of `rx`; an mbuf that does not fit is dropped, that is
    freed. -/
def pushAll (D : Dpdk σ) :
    σ → ArrayVec Mbuf cap → List Mbuf → ArrayVec Mbuf cap × σ
  | s, v, [] => (v, s)
  | s, v, m :: ms =>
      match v.tryPush m with
      | some v' => pushAll D s v' ms
      | none => pushAll D (D.pktmbufFree s m) v ms

/-- Receive a burst of packets into the provided buffer, up to its remaining
    capacity. -/
def rx (D : Dpdk σ) (s : σ) (mbufs : ArrayVec Mbuf cap) :
    Nat × ArrayVec Mbuf cap × σ :=
  let capacity := cap - mbufs.len
  if capacity = 0 then (0, mbufs, s)
  else
    let nbPkts := min (min capacity u16Max) maxBurstSize
    let received := D.ethRxBurst s nbPkts
    (received.1.length, pushAll D received.2 mbufs received.1)

/-- Packets that fit are all pushed, in order, and none is freed. -/
theorem pushAll_of_fits (D : Dpdk σ) :
    ∀ (ms : List Mbuf) (s : σ) (v : ArrayVec Mbuf cap),
      v.len + ms.length ≤ cap →
      (pushAll D s v ms).1.toList = v.toList ++ ms ∧ (pushAll D s v ms).2 = s := by
  intro ms
  induction ms with
  | nil =>
      intro s v _
      exact ⟨(List.append_nil _).symm, rfl⟩
  | cons m ms ih =>
      intro s v h
      rw [List.length_cons] at h
      obtain ⟨w, hw, hl⟩ := ArrayVec.tryPush_of_lt (v := v) m (by omega)
      have hwlen : w.len = v.len + 1 := by
        unfold ArrayVec.len
        rw [hl, List.length_append]
        rfl
      simp only [pushAll, hw]
      obtain ⟨h1, h2⟩ := ih s w (by omega)
      refine ⟨?_, h2⟩
      rw [h1, hl, List.append_assoc]
      rfl

/-- **RX**: polled with an empty 64-slot batch, the queue asks for a full
    burst and the batch becomes exactly the burst. -/
theorem rx_empty (D : Dpdk σ) (s : σ) (v : ArrayVec Mbuf 64) (h : v.toList = []) :
    (rx D s v).2.1.toList = (D.ethRxBurst s 64).1 ∧
      (rx D s v).2.2 = (D.ethRxBurst s 64).2 := by
  have hlen : v.len = 0 := by unfold ArrayVec.len; rw [h]; rfl
  have hrx : (rx D s v).2 = pushAll D (D.ethRxBurst s 64).2 v (D.ethRxBurst s 64).1 := by
    simp [rx, hlen, u16Max, maxBurstSize]
  have hfit : v.len + (D.ethRxBurst s 64).1.length ≤ 64 := by
    have := D.rx_le s 64
    omega
  obtain ⟨h1, h2⟩ := pushAll_of_fits D (D.ethRxBurst s 64).1 (D.ethRxBurst s 64).2 v hfit
  rw [hrx]
  exact ⟨by rw [h1, h, List.nil_append], h2⟩

end RxQueue

namespace TxQueue

variable {cap : Nat}

/-- Transmit a burst of packets from the front of the buffer.  Those the driver
    accepted are removed (`sent` times `remove(0)`) and forgotten: DPDK owns
    them now. -/
def tx (D : Dpdk σ) (s : σ) (mbufs : ArrayVec Mbuf cap) :
    Nat × ArrayVec Mbuf cap × σ :=
  if mbufs.isEmpty then (0, mbufs, s)
  else
    let nbPkts := min (min mbufs.len maxBurstSize) u16Max
    let sent := D.ethTxBurst s (mbufs.toList.take nbPkts)
    (sent.1, mbufs.dropFront sent.1, sent.2)

/-- Transmit a single packet; a refused one is handed back. -/
def txOne (D : Dpdk σ) (s : σ) (m : Mbuf) : Option Mbuf × σ :=
  let sent := D.ethTxBurst s [m]
  if sent.1 = 1 then (none, sent.2) else (some m, sent.2)

/-- **TX**: what a call to `tx` on a non-empty buffer does. -/
theorem tx_of_ne_nil (D : Dpdk σ) (s : σ) (v : ArrayVec Mbuf cap) (h : v.toList ≠ []) :
    tx D s v =
      ((D.ethTxBurst s (v.toList.take 64)).1,
        v.dropFront (D.ethTxBurst s (v.toList.take 64)).1,
        (D.ethTxBurst s (v.toList.take 64)).2) := by
  have he : v.isEmpty = false := by
    cases hv : v.isEmpty with
    | false => rfl
    | true => exact absurd ((ArrayVec.isEmpty_iff v).mp hv) h
  -- the burst is the first `min len 64` packets, that is `take 64`
  have htake : v.toList.take (min (min v.len maxBurstSize) u16Max) = v.toList.take 64 := by
    unfold ArrayVec.len maxBurstSize u16Max
    by_cases hl : v.toList.length ≤ 64
    · rw [List.take_of_length_le (by omega), List.take_of_length_le hl]
    · congr 1
      omega
  simp only [tx, he, Bool.false_eq_true, if_false, htake]

end TxQueue

end DpdkNet
