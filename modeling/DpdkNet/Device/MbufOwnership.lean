import DpdkNet.Device.Machine

/-! # Who owns each mbuf

    A `Ledger` for a driver says which mbufs are free in the mempool and which
    are owned by the NIC, and what DPDK documents about them: an allocation
    takes an mbuf from the free ones, a free gives one back, a receive burst
    hands packets over and a transmit burst takes the accepted ones (refilling
    its ring and completing transmissions as it goes, that is moving mbufs
    between the two).

    Nothing in the laws mentions the device.  That the device never frees what
    it does not hold, never keeps what it gave away and never loses one on a
    failure branch is the content of `census_step`: for every mbuf the number of
    places it is in is the same before and after each operation. -/

namespace DpdkNet

open DpdkDevice Runs

variable {σ : Type}

/-- Which mbufs are in the hands of DPDK, and how the calls move them. -/
structure Ledger (D : Dpdk σ) where
  free : σ → Multiset Nat
  nic : σ → Multiset Nat
  alloc_free : ∀ s,
    free s = ((D.pktmbufAlloc s).1.toList.map Mbuf.inner : List Nat) + free (D.pktmbufAlloc s).2
  alloc_nic : ∀ s, nic (D.pktmbufAlloc s).2 = nic s
  release_free : ∀ s m, free (D.pktmbufFree s m) = m.inner ::ₘ free s
  release_nic : ∀ s m, nic (D.pktmbufFree s m) = nic s
  rx : ∀ s n, free s + nic s =
    ((D.ethRxBurst s n).1.map Mbuf.inner : List Nat)
      + (free (D.ethRxBurst s n).2 + nic (D.ethRxBurst s n).2)
  tx : ∀ s ps, free (D.ethTxBurst s ps).2 + nic (D.ethTxBurst s ps).2 =
    ((ps.take (D.ethTxBurst s ps).1).map Mbuf.inner : List Nat) + (free s + nic s)

/-- How often the mbuf at address `p` occurs in a list. -/
def held (p : Nat) (ms : List Mbuf) : Nat := (ms.map Mbuf.inner).count p

theorem held_append (p : Nat) (ms ns : List Mbuf) :
    held p (ms ++ ns) = held p ms + held p ns := by
  rw [held, List.map_append, List.count_append]
  rfl

theorem held_singleton_congr (p : Nat) {m n : Mbuf} (h : m.inner = n.inner) :
    held p [m] = held p [n] := by
  rw [held, held, List.map_singleton, List.map_singleton, h]

namespace Ledger

variable {D : Dpdk σ} (L : Ledger D)

/-- How often DPDK has it, free or on the NIC. -/
def owned (p : Nat) (s : σ) : Nat := (L.free s).count p + (L.nic s).count p

theorem owned_alloc (p : Nat) (s : σ) :
    L.owned p s = held p (D.pktmbufAlloc s).1.toList + L.owned p (D.pktmbufAlloc s).2 := by
  have h := congrArg (Multiset.count p) (L.alloc_free s)
  rw [Multiset.count_add, Multiset.coe_count] at h
  rw [owned, owned, held, L.alloc_nic, h]
  omega

theorem owned_release (p : Nat) (s : σ) (m : Mbuf) :
    L.owned p (D.pktmbufFree s m) = held p [m] + L.owned p s := by
  have h := congrArg (Multiset.count p) (L.release_free s m)
  rw [← Multiset.singleton_add, Multiset.count_add] at h
  have hm : held p [m] = Multiset.count p {m.inner} := by
    rw [held, ← Multiset.coe_count]
    rfl
  rw [owned, owned, L.release_nic, h, hm]
  omega

theorem owned_rx (p : Nat) (s : σ) (n : Nat) :
    L.owned p s = held p (D.ethRxBurst s n).1 + L.owned p (D.ethRxBurst s n).2 := by
  have h := congrArg (Multiset.count p) (L.rx s n)
  simp only [Multiset.count_add, Multiset.coe_count] at h
  exact h

theorem owned_tx (p : Nat) (s : σ) (ps : List Mbuf) :
    L.owned p (D.ethTxBurst s ps).2 =
      held p (ps.take (D.ethTxBurst s ps).1) + L.owned p s := by
  have h := congrArg (Multiset.count p) (L.tx s ps)
  simp only [Multiset.count_add, Multiset.coe_count] at h
  exact h

/-! ## Each function moves mbufs without making or losing any -/

theorem owned_allocCopy (p : Nat) (s : σ) (d : Frame) :
    L.owned p s = held p (allocCopy D s d).1.toList + L.owned p (allocCopy D s d).2 := by
  have h := L.owned_alloc p s
  rcases ha : D.pktmbufAlloc s with ⟨_ | m, s'⟩
  · rw [ha] at h
    simp only [allocCopy, ha]
    exact h
  · rw [ha] at h
    have hin := Mbuf.inner_copyFromSlice m d
    rcases hc : m.copyFromSlice d with ⟨_ | _, m'⟩
    · -- the copy failed and the mbuf is dropped
      rw [hc] at hin
      have hf := L.owned_release p s' m'
      have hm := held_singleton_congr p hin
      simp only [allocCopy, ha, hc]
      rw [h, hf, hm]
      show _ = 0 + _
      rw [Nat.zero_add]
      rfl
    · rw [hc] at hin
      have hm := held_singleton_congr p hin
      simp only [allocCopy, ha, hc]
      rw [h]
      show held p [m] + _ = held p [m'] + _
      rw [hm]

theorem owned_injectEntries (p : Nat) (ourMac : MacAddress) (ourIp : Ipv4Addr) :
    ∀ (es : List (Σ _ : Ipv4Addr, MacAddress)) (batch : ArrayVec Mbuf 64) (s : σ),
      held p batch.toList + L.owned p s =
        held p (injectEntries D ourMac ourIp es batch s).2.1.toList
          + L.owned p (injectEntries D ourMac ourIp es batch s).2.2 := by
  intro es
  induction es with
  | nil => intro batch s; rfl
  | cons e es ih =>
      intro batch s
      obtain ⟨ip, mac⟩ := e
      have h := L.owned_allocCopy p s (buildArpReplyForInjection ourMac ourIp mac ip)
      by_cases hroom : batch.len < 64
      · rcases hac : allocCopy D s (buildArpReplyForInjection ourMac ourIp mac ip)
          with ⟨_ | m, s'⟩
        · rw [hac] at h
          simp only [injectEntries, hroom, dif_pos, hac]
          rw [h]
          show _ + (0 + _) = _
          rw [Nat.zero_add]
        · rw [hac] at h
          have hi := ih (batch.push m hroom) s'
          rw [ArrayVec.toList_push, held_append] at hi
          simp only [injectEntries, hroom, dif_pos, hac]
          rw [← hi, h, Nat.add_assoc]
          rfl
      · simp only [injectEntries, hroom, dif_neg, not_false_eq_true]

theorem owned_injectFromSharedCache (p : Nat) (dev : DpdkDevice) (w : World σ) :
    held p dev.rxBatch.toList + L.owned p w.ffi =
      held p (injectFromSharedCache D dev w).1.rxBatch.toList
        + L.owned p (injectFromSharedCache D dev w).2.ffi := by
  obtain h | ⟨ourMac, ourIp, -, -, h⟩ := injectFromSharedCache_cases D dev w
  · rw [h]
  · rw [h]
    exact L.owned_injectEntries p ourMac ourIp w.arp.inner.entries dev.rxBatch w.ffi

theorem owned_injectRxPacket (p : Nat) (dev : DpdkDevice) (s : σ) (d : Frame) :
    held p dev.rxBatch.toList + L.owned p s =
      held p (injectRxPacket D dev s d).2.1.rxBatch.toList
        + L.owned p (injectRxPacket D dev s d).2.2 := by
  have h := L.owned_allocCopy p s d
  by_cases hroom : dev.rxBatch.len < 64
  · rcases hac : allocCopy D s d with ⟨_ | m, s'⟩
    · rw [hac] at h
      simp only [injectRxPacket, hroom, dif_pos, hac]
      rw [h]
      show _ + (0 + _) = _
      rw [Nat.zero_add]
    · rw [hac] at h
      simp only [injectRxPacket, hroom, dif_pos, hac]
      rw [ArrayVec.toList_push, held_append, h, Nat.add_assoc]
      rfl
  · simp only [injectRxPacket, hroom, dif_neg, not_false_eq_true]

theorem owned_flushTx (p : Nat) (dev : DpdkDevice) (s : σ) :
    held p dev.txBatch.toList + L.owned p s =
      held p (DpdkDevice.flushTx D dev s).1.txBatch.toList
        + L.owned p (DpdkDevice.flushTx D dev s).2 := by
  by_cases h : dev.txBatch.toList = []
  · rw [flushTx_of_nil D s h]
  · have htx := L.owned_tx p s (dev.txBatch.toList.take 64)
    have hle := flushAccepts_le D dev s
    rw [flushTx_of_ne_nil D s h]
    rw [flushAccepts, if_neg h, List.length_take] at hle
    -- what was accepted is the front of the batch
    have hsplit : held p dev.txBatch.toList =
        held p ((dev.txBatch.toList.take 64).take
          (D.ethTxBurst s (dev.txBatch.toList.take 64)).1)
        + held p (dev.txBatch.toList.drop (flushAccepts D dev s)) := by
      rw [List.take_take, Nat.min_eq_left (by omega), flushAccepts, if_neg h, ← held_append,
        List.take_append_drop]
    rw [hsplit, htx]
    show _ = held p (dev.txBatch.toList.drop (flushAccepts D dev s)) + _
    omega

theorem owned_pollRx (p : Nat) (H : Hasher) (dev : DpdkDevice) (w : World σ) :
    held p dev.rxBatch.toList + held p dev.txBatch.toList + L.owned p w.ffi =
      held p (pollRx D H dev w).1.rxBatch.toList + held p (pollRx D H dev w).1.txBatch.toList
        + L.owned p (pollRx D H dev w).2.ffi := by
  have hf := L.owned_flushTx p dev w.ffi
  have htx := (pollRx_fst D H dev w).1
  by_cases h : dev.rxBatch.toList = []
  · obtain ⟨batch, hb, heq⟩ := pollRx_of_nil D H w h
    have hrx := L.owned_rx p (DpdkDevice.flushTx D dev w.ffi).2 64
    rw [htx, heq, h]
    show held p [] + held p dev.txBatch.toList + L.owned p w.ffi
      = held p batch.toList + _ + L.owned p (nextBurst D dev w.ffi).2
    rw [hb]
    have h0 : held p [] = 0 := rfl
    have hrx' : L.owned p (DpdkDevice.flushTx D dev w.ffi).2
      = held p (nextBurst D dev w.ffi).1 + L.owned p (nextBurst D dev w.ffi).2 := hrx
    omega
  · rw [htx, pollRx_of_ne_nil D H w h]
    have hrx : (DpdkDevice.flushTx D dev w.ffi).1.rxBatch = dev.rxBatch := by rw [flushTx_fst]
    rw [hrx]
    show _ = _ + _ + L.owned p (DpdkDevice.flushTx D dev w.ffi).2
    omega

theorem owned_receive (p : Nat) (H : Hasher) (dev : DpdkDevice) (w : World σ) :
    held p dev.rxBatch.toList + held p dev.txBatch.toList + L.owned p w.ffi =
      held p (DpdkDevice.receive D H dev w).1.toList
        + held p (DpdkDevice.receive D H dev w).2.1.rxBatch.toList
        + held p (DpdkDevice.receive D H dev w).2.1.txBatch.toList
        + L.owned p (DpdkDevice.receive D H dev w).2.2.ffi := by
  have h1 := L.owned_pollRx p H dev w
  have h2 := L.owned_injectFromSharedCache p (pollRx D H dev w).1 (pollRx D H dev w).2
  have htx := (receive_fst D H dev w).1
  rw [← (pollRx_fst D H dev w).1] at htx
  obtain ⟨batch, hb, heq⟩ := receive_spec D H dev w
  -- the packet handed out is the last of the batch
  have hsplit : held p (prepared D H dev w).1.rxBatch.toList =
      held p (prepared D H dev w).1.rxBatch.toList.getLast?.toList
        + held p (prepared D H dev w).1.rxBatch.toList.dropLast := by
    rcases List.eq_nil_or_concat (prepared D H dev w).1.rxBatch.toList with hnil | ⟨C, x, hx⟩
    · rw [hnil]
      rfl
    · rw [hx, List.concat_eq_append, List.getLast?_concat, List.dropLast_concat, held_append,
        Nat.add_comm]
      rfl
  rw [htx, heq]
  show _ = held p (prepared D H dev w).1.rxBatch.toList.getLast?.toList + held p batch.toList
    + _ + L.owned p (prepared D H dev w).2.ffi
  rw [hb]
  have h2' : _ = held p (prepared D H dev w).1.rxBatch.toList
    + L.owned p (prepared D H dev w).2.ffi := h2
  omega

/-- A single packet offered to the driver is either taken or handed back. -/
theorem owned_txOne (p : Nat) (s : σ) (m : Mbuf) :
    held p [m] + L.owned p s =
      held p (TxQueue.txOne D s m).1.toList + L.owned p (TxQueue.txOne D s m).2 := by
  have htx := L.owned_tx p s [m]
  have hle : (D.ethTxBurst s [m]).1 ≤ 1 := D.tx_le s [m]
  rw [TxQueue.txOne]
  by_cases h1 : (D.ethTxBurst s [m]).1 = 1
  · rw [h1] at htx
    simp only [h1, if_true]
    rw [htx]
    exact (Nat.zero_add _).symm
  · have h0 : (D.ethTxBurst s [m]).1 = 0 := by omega
    rw [h0] at htx
    simp only [h1, if_false]
    rw [htx]
    show _ = held p [m] + (0 + L.owned p s)
    rw [Nat.zero_add]

/-! ## Device calls

    `total` counts an mbuf in the hands of DPDK and of the device; a call keeps
    it, up to the mbuf it hands out. -/

def total (p : Nat) (dev : DpdkDevice) (s : σ) : Nat :=
  L.owned p s + held p dev.rxBatch.toList + held p dev.txBatch.toList

theorem total_receive (p : Nat) (H : Hasher) (dev : DpdkDevice) (w : World σ) :
    L.total p (DpdkDevice.receive D H dev w).2.1 (DpdkDevice.receive D H dev w).2.2.ffi
        + held p (DpdkDevice.receive D H dev w).1.toList
      = L.total p dev w.ffi := by
  have h := L.owned_receive p H dev w
  rw [total, total]
  omega

theorem total_flushTx (p : Nat) (dev : DpdkDevice) (s : σ) :
    L.total p (DpdkDevice.flushTx D dev s).1 (DpdkDevice.flushTx D dev s).2
      = L.total p dev s := by
  have h := L.owned_flushTx p dev s
  have hrx : (DpdkDevice.flushTx D dev s).1.rxBatch = dev.rxBatch := by rw [flushTx_fst]
  rw [total, total, hrx]
  omega

theorem total_transmit (p : Nat) (dev : DpdkDevice) (s : σ) :
    L.total p (DpdkDevice.transmit D dev s).2.1 (DpdkDevice.transmit D dev s).2.2
      = L.total p dev s := by
  rw [DpdkDevice.transmit]
  split
  · rfl
  · exact L.total_flushTx p dev s

/-- An mbuf allocated for a token ends up in the transmit batch. -/
theorem total_consume (p : Nat) {dev : DpdkDevice} {s : σ} {len : Nat} {f : SliceWriter}
    {r : Option Frame × DpdkDevice × σ} (h : consume D dev s len f = .ok r) :
    L.total p r.2.1 r.2.2 = L.total p dev s := by
  have ha := L.owned_alloc p s
  obtain ⟨s', hs', rfl⟩ | ⟨m, s', batch, hs', hb, rfl⟩ := consume_ok h
  · rw [hs'] at ha
    have ha' : L.owned p s = 0 + L.owned p s' := ha
    rw [total, total, ha', Nat.zero_add]
  · rw [hs'] at ha
    have ha' : L.owned p s = held p [m] + L.owned p s' := ha
    have hm : held p [(m.extend len).writeData f] = held p [m] := held_singleton_congr p rfl
    show L.owned p s' + held p dev.rxBatch.toList + held p batch.toList = _
    rw [total, hb, held_append, hm]
    omega

theorem total_injectRxPacket (p : Nat) (dev : DpdkDevice) (s : σ) (d : Frame) :
    L.total p (injectRxPacket D dev s d).2.1 (injectRxPacket D dev s d).2.2
      = L.total p dev s := by
  have h := L.owned_injectRxPacket p dev s d
  obtain ⟨batch, hdev⟩ := injectRxPacket_fst D dev s d
  have htx : (injectRxPacket D dev s d).2.1.txBatch = dev.txBatch := by rw [hdev]
  rw [total, total, htx]
  omega

theorem total_release (p : Nat) (dev : DpdkDevice) (s : σ) (m : Mbuf) :
    L.total p dev (D.pktmbufFree s m) = held p [m] + L.total p dev s := by
  rw [total, total, L.owned_release]
  omega

/-! ## Whole runs -/

/-- The number of places the mbuf at address `p` is in: free, on the NIC, in one
    of the two batches, or in an outstanding token. -/
def census (p : Nat) (s : Sys σ) : Nat :=
  (L.free s.world.ffi).count p + (L.nic s.world.ffi).count p
    + held p s.dev.rxBatch.toList + held p s.dev.txBatch.toList + held p s.rxTokens

theorem census_eq (p : Nat) (s : Sys σ) :
    L.census p s = L.total p s.dev s.world.ffi + held p s.rxTokens := rfl

/-- **ONE STEP** neither makes nor loses an mbuf. -/
theorem census_step (p : Nat) {H : Hasher} {s s' : Sys σ} {op : DevOp}
    (h : s.step D H op = .ok s') : L.census p s' = L.census p s := by
  have hnext := Sys.step_ok h
  rw [census_eq, census_eq]
  cases op with
  | receive =>
      obtain ⟨-, rfl⟩ := hnext
      have hr := L.total_receive p H s.dev s.world
      show L.total p (DpdkDevice.receive D H s.dev s.world).2.1
          (DpdkDevice.receive D H s.dev s.world).2.2.ffi
        + held p (s.rxTokens ++ (DpdkDevice.receive D H s.dev s.world).1.toList) = _
      rw [held_append]
      omega
  | transmit =>
      obtain ⟨-, rfl⟩ := hnext
      exact congrArg (· + held p s.rxTokens) (L.total_transmit p s.dev s.world.ffi)
  | consumeTx len f =>
      obtain ⟨-, r, hr, rfl⟩ := hnext
      exact congrArg (· + held p s.rxTokens) (L.total_consume p hr)
  | dropTx =>
      obtain ⟨-, rfl⟩ := hnext
      rfl
  | releaseRx i =>
      obtain ⟨m, hm, rfl⟩ := hnext
      -- the token released is one of those outstanding
      have htok : held p s.rxTokens = held p [m] + held p (s.rxTokens.eraseIdx i) := by
        obtain ⟨hi, rfl⟩ := List.getElem?_eq_some_iff.mp hm
        rw [← held_append]
        exact (((List.getElem_cons_eraseIdx_perm hi).symm.map Mbuf.inner).count_eq p)
      show L.total p s.dev (D.pktmbufFree s.world.ffi m) + held p (s.rxTokens.eraseIdx i) = _
      rw [L.total_release, htok]
      omega
  | flushTx =>
      obtain ⟨-, rfl⟩ := hnext
      exact congrArg (· + held p s.rxTokens) (L.total_flushTx p s.dev s.world.ffi)
  | injectRxPacket d =>
      obtain ⟨-, rfl⟩ := hnext
      exact congrArg (· + held p s.rxTokens) (L.total_injectRxPacket p s.dev s.world.ffi d)
  | arpInsert ip mac =>
      obtain rfl := hnext
      rfl

/-- Nor does a run. -/
theorem census_run (p : Nat) {H : Hasher} {s t : Sys σ} {ops : List DevOp}
    (h : run (Sys.step D H) s ops = .ok t) : L.census p t = L.census p s := by
  refine run_invariant (I := fun u => L.census p u = L.census p s) ?_ rfl h
  intro u op u' hu hstep
  exact (L.census_step p hstep).trans hu

/-- Everything in one multiset: what DPDK has, the two batches and the tokens. -/
def places (s : Sys σ) : Multiset Nat :=
  L.free s.world.ffi + L.nic s.world.ffi + (s.dev.rxBatch.toList.map Mbuf.inner : List Nat)
    + (s.dev.txBatch.toList.map Mbuf.inner : List Nat) + (s.rxTokens.map Mbuf.inner : List Nat)

theorem count_places (p : Nat) (s : Sys σ) : (L.places s).count p = L.census p s := by
  rw [places, census, held, held, held]
  simp only [Multiset.count_add, Multiset.coe_count]

theorem places_run {H : Hasher} {s t : Sys σ} {ops : List DevOp}
    (h : run (Sys.step D H) s ops = .ok t) : L.places t = L.places s := by
  ext p
  rw [count_places, count_places, L.census_run p h]

end Ledger

/-- **MBUFS ARE CONSERVED**: start a device with empty batches on a pool of
    distinct mbufs, all free or on the NIC.  After every run that does not panic
    each of them is in exactly one place, no other is anywhere, and the free
    ones and those held add up to the pool. -/
theorem mbufs_conserved (D : Dpdk σ) (L : Ledger D) (H : Hasher) (dev : DpdkDevice)
    (w : World σ) (hrx : dev.rxBatch.toList = []) (htx : dev.txBatch.toList = [])
    (pool : Multiset Nat) (hpool : pool.Nodup) (hstart : L.free w.ffi + L.nic w.ffi = pool)
    (ops : List DevOp) (t : Sys σ)
    (hrun : run (Sys.step D H) (Sys.start dev w) ops = .ok t) :
    (∀ p ∈ pool, L.census p t = 1) ∧ (∀ p ∉ pool, L.census p t = 0) ∧
      (L.free t.world.ffi).card + ((L.nic t.world.ffi).card + t.dev.rxBatch.len
        + t.dev.txBatch.len + t.rxTokens.length) = pool.card := by
  have hplaces : L.places t = pool := by
    rw [L.places_run hrun, ← hstart]
    show _ + _ + ((dev.rxBatch.toList.map Mbuf.inner : List Nat) : Multiset Nat)
      + ((dev.txBatch.toList.map Mbuf.inner : List Nat) : Multiset Nat) + 0 = _
    rw [hrx, htx, add_zero]
    exact (add_zero _).trans (add_zero _)
  refine ⟨fun p hp => ?_, fun p hp => ?_, ?_⟩
  · rw [← L.count_places, hplaces]
    exact Multiset.count_eq_one_of_mem hpool hp
  · rw [← L.count_places, hplaces]
    exact Multiset.count_eq_zero_of_notMem hp
  · have hcard := congrArg Multiset.card hplaces
    rw [Ledger.places] at hcard
    simp only [Multiset.card_add, Multiset.coe_card, List.length_map] at hcard
    rw [← hcard, ArrayVec.len, ArrayVec.len]
    omega

/-! ## A driver with a ledger -/

/-- Who has what in `poolNic`: the free list and the ring. -/
def poolLedger (room : Nat) : Ledger (poolNic room) where
  free s := s.free
  nic s := s.ring
  alloc_free s := by
    obtain ⟨_ | ⟨p, ps⟩, ring⟩ := s
    · rfl
    · rfl
  alloc_nic s := by
    obtain ⟨_ | ⟨p, ps⟩, ring⟩ := s
    · rfl
    · rfl
  release_free _ _ := rfl
  release_nic _ _ := rfl
  rx s n := by
    have hmap : ((s.ring.take n).map smallMbuf).map Mbuf.inner = s.ring.take n := by
      rw [List.map_map]
      exact List.map_id _
    show (s.free : Multiset Nat) + (s.ring : Multiset Nat) =
      ((((s.ring.take n).map smallMbuf).map Mbuf.inner : List Nat) : Multiset Nat)
        + ((s.free : Multiset Nat) + (s.ring.drop n : List Nat))
    rw [hmap, add_left_comm, Multiset.coe_add (s.ring.take n), List.take_append_drop]
  tx s ps := by
    show (s.free : Multiset Nat) + ((s.ring ++ (ps.take room).map Mbuf.inner : List Nat)) =
      (((ps.take (min room ps.length)).map Mbuf.inner : List Nat) : Multiset Nat)
        + ((s.free : Multiset Nat) + (s.ring : Multiset Nat))
    rw [← List.take_eq_take_min, ← Multiset.coe_add, ← add_assoc, add_comm]

/-- One packet received and answered, with one injected and the received one
    given back: three mbufs, each in one place. -/
theorem mbufs_conserved_one_exchange :
    ∃ t, run (Sys.step (poolNic 64) Hasher.id)
        (Sys.start DpdkDevice.standard ⟨⟨[1, 2], [3]⟩, .new⟩)
        [.receive, .consumeTx 60 ⟨id, fun _ => rfl⟩, .injectRxPacket [1, 2], .releaseRx 0,
          .flushTx] = .ok t ∧
      (poolLedger 64).census 2 t = 1 ∧ t.dev.rxBatch.len = 1 := by
  have hpool : (((poolLedger 64).free ⟨[1, 2], [3]⟩ + (poolLedger 64).nic ⟨[1, 2], [3]⟩ :
      Multiset Nat)).Nodup := by decide
  refine ⟨_, rfl, ?_, rfl⟩
  exact (mbufs_conserved (poolNic 64) (poolLedger 64) Hasher.id DpdkDevice.standard
    ⟨⟨[1, 2], [3]⟩, .new⟩ rfl rfl _ hpool rfl
    [.receive, .consumeTx 60 ⟨id, fun _ => rfl⟩, .injectRxPacket [1, 2], .releaseRx 0, .flushTx]
    _ rfl).1 2 (by decide)

end DpdkNet
