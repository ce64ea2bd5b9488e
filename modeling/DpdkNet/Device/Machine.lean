import DpdkNet.Lib.Runs
import DpdkNet.Device.DpdkDevice

/-! # Whole runs of a device

    The program around a device: it calls `receive` and `transmit`, consumes or
    discards the tokens they return, flushes and injects, in any order the
    borrow checker lets it.  A transmit token borrows the device, so while one
    is outstanding no device call is possible; a receive token owns its mbuf
    and may be kept for as long as one likes.

    `handed` and `written` record what smoltcp saw: the packets `receive` handed
    out and the frames written through tokens that got an mbuf.  With
    `Dpdk.recorded` for the driver, the other two ends of the two paths are on
    record as well. -/

namespace DpdkNet

open DpdkDevice Runs

variable {σ : Type}

/-- A device in use. -/
structure Sys (σ : Type) where
  dev : DpdkDevice
  world : World σ
  rxTokens : List Mbuf
  txToken : Bool
  handed : List Mbuf
  written : List Frame

/-- A device about to be used. -/
def Sys.start (dev : DpdkDevice) (w : World σ) : Sys σ where
  dev
  world := w
  rxTokens := []
  txToken := false
  handed := []
  written := []

inductive DevOp where
  | receive
  | transmit
  /-- Consume the outstanding transmit token. -/
  | consumeTx (len : Nat) (f : SliceWriter)
  /-- Discard it. -/
  | dropTx
  /-- Consume or discard a receive token: smoltcp may have looked at the data,
      and the mbuf is dropped. -/
  | releaseRx (i : Nat)
  | flushTx
  | injectRxPacket (d : Frame)
  /-- Another queue, on its own thread, updates the shared cache. -/
  | arpInsert (ip : Ipv4Addr) (mac : MacAddress)

/-- Why a run stops: the code panicked, or the program is one the compiler
    rejects (a token used twice, a device call under a live token). -/
inductive Halt where
  | panicked (p : Panic)
  | rejected

def Sys.step (D : Dpdk σ) (H : Hasher) (s : Sys σ) : DevOp → Except Halt (Sys σ)
  | .receive =>
      if s.txToken then .error .rejected
      else
        let r := DpdkDevice.receive D H s.dev s.world
        .ok { s with
          dev := r.2.1
          world := r.2.2
          rxTokens := s.rxTokens ++ r.1.toList
          txToken := r.1.isSome
          handed := s.handed ++ r.1.toList }
  | .transmit =>
      if s.txToken then .error .rejected
      else
        let r := DpdkDevice.transmit D s.dev s.world.ffi
        .ok { s with dev := r.2.1, world := { s.world with ffi := r.2.2 }, txToken := r.1 }
  | .consumeTx len f =>
      if s.txToken then
        match consume D s.dev s.world.ffi len f with
        | .ok r =>
            .ok { s with
              dev := r.2.1
              world := { s.world with ffi := r.2.2 }
              txToken := false
              written := s.written ++ r.1.toList }
        | .error p => .error (.panicked p)
      else .error .rejected
  | .dropTx =>
      if s.txToken then .ok { s with txToken := false } else .error .rejected
  | .releaseRx i =>
      match s.rxTokens[i]? with
      | some m =>
          .ok { s with
            world := { s.world with ffi := D.pktmbufFree s.world.ffi m }
            rxTokens := s.rxTokens.eraseIdx i }
      | none => .error .rejected
  | .flushTx =>
      if s.txToken then .error .rejected
      else
        let r := DpdkDevice.flushTx D s.dev s.world.ffi
        .ok { s with dev := r.1, world := { s.world with ffi := r.2 } }
  | .injectRxPacket d =>
      if s.txToken then .error .rejected
      else
        let r := DpdkDevice.injectRxPacket D s.dev s.world.ffi d
        .ok { s with dev := r.2.1, world := { s.world with ffi := r.2.2 } }
  | .arpInsert ip mac =>
      .ok { s with world := { s.world with arp := s.world.arp.insert H ip mac } }

/-! ## What a step does

    One inversion lemma: every field of the next state, per operation. -/

/-- The state after each operation that goes through. -/
def Sys.Next (D : Dpdk σ) (H : Hasher) (s s' : Sys σ) : DevOp → Prop
  | .receive => s.txToken = false ∧
      s' = { s with
        dev := (DpdkDevice.receive D H s.dev s.world).2.1
        world := (DpdkDevice.receive D H s.dev s.world).2.2
        rxTokens := s.rxTokens ++ (DpdkDevice.receive D H s.dev s.world).1.toList
        txToken := (DpdkDevice.receive D H s.dev s.world).1.isSome
        handed := s.handed ++ (DpdkDevice.receive D H s.dev s.world).1.toList }
  | .transmit => s.txToken = false ∧
      s' = { s with
        dev := (DpdkDevice.transmit D s.dev s.world.ffi).2.1
        world := { s.world with ffi := (DpdkDevice.transmit D s.dev s.world.ffi).2.2 }
        txToken := (DpdkDevice.transmit D s.dev s.world.ffi).1 }
  | .consumeTx len f => s.txToken = true ∧
      ∃ r, consume D s.dev s.world.ffi len f = .ok r ∧
        s' = { s with
          dev := r.2.1
          world := { s.world with ffi := r.2.2 }
          txToken := false
          written := s.written ++ r.1.toList }
  | .dropTx => s.txToken = true ∧ s' = { s with txToken := false }
  | .releaseRx i => ∃ m, s.rxTokens[i]? = some m ∧
      s' = { s with
        world := { s.world with ffi := D.pktmbufFree s.world.ffi m }
        rxTokens := s.rxTokens.eraseIdx i }
  | .flushTx => s.txToken = false ∧
      s' = { s with
        dev := (DpdkDevice.flushTx D s.dev s.world.ffi).1
        world := { s.world with ffi := (DpdkDevice.flushTx D s.dev s.world.ffi).2 } }
  | .injectRxPacket d => s.txToken = false ∧
      s' = { s with
        dev := (DpdkDevice.injectRxPacket D s.dev s.world.ffi d).2.1
        world := { s.world with ffi := (DpdkDevice.injectRxPacket D s.dev s.world.ffi d).2.2 } }
  | .arpInsert ip mac =>
      s' = { s with world := { s.world with arp := s.world.arp.insert H ip mac } }

/-- A device call that goes through found no token outstanding. -/
theorem of_noToken {token : Bool} {s s' : Sys σ}
    (h : (if token then .error .rejected else .ok s : Except Halt (Sys σ)) = .ok s') :
    token = false ∧ s' = s := by
  cases token with
  | true => cases h
  | false => exact ⟨rfl, (Except.ok.inj h).symm⟩

theorem Sys.step_ok {D : Dpdk σ} {H : Hasher} {s s' : Sys σ} {op : DevOp}
    (h : s.step D H op = .ok s') : Sys.Next D H s s' op := by
  cases op with
  | receive =>
      rw [step] at h
      exact of_noToken h
  | transmit =>
      rw [step] at h
      exact of_noToken h
  | consumeTx len f =>
      rw [step] at h
      split at h
      · rename_i ht
        split at h
        · exact ⟨ht, _, ‹_›, (Except.ok.inj h).symm⟩
        · cases h
      · cases h
  | dropTx =>
      rw [step] at h
      split at h
      · exact ⟨‹_›, (Except.ok.inj h).symm⟩
      · cases h
  | releaseRx i =>
      rw [step] at h
      split at h
      · exact ⟨_, ‹_›, (Except.ok.inj h).symm⟩
      · cases h
  | flushTx =>
      rw [step] at h
      exact of_noToken h
  | injectRxPacket d =>
      rw [step] at h
      exact of_noToken h
  | arpInsert ip mac => exact (Except.ok.inj h).symm

/-! ## What the calls leave alone

    Injection touches the receive batch, the version and the mempool; nothing
    but a flush touches the transmit batch. -/

/-- The parts of the device that say how it was configured. -/
def DpdkDevice.config (dev : DpdkDevice) :
    UInt16 × Bool × Option MacAddress × Option Ipv4Addr :=
  (dev.queueId, dev.sharedArpCache, dev.ourMac, dev.ourIp)

theorem pollRx_fst (D : Dpdk σ) (H : Hasher) (dev : DpdkDevice) (w : World σ) :
    (pollRx D H dev w).1.txBatch = (DpdkDevice.flushTx D dev w.ffi).1.txBatch ∧
      (pollRx D H dev w).1.config = dev.config := by
  have hcfg : (DpdkDevice.flushTx D dev w.ffi).1.config = dev.config := by
    rw [flushTx_fst]
    rfl
  by_cases h : dev.rxBatch.toList = []
  · obtain ⟨batch, -, heq⟩ := pollRx_of_nil D H w h
    rw [heq]
    exact ⟨rfl, hcfg⟩
  · rw [pollRx_of_ne_nil D H w h]
    exact ⟨rfl, hcfg⟩

/-- Injection either does nothing or runs the loop; either way the transmit
    batch and the configuration stay. -/
theorem injectFromSharedCache_cases (D : Dpdk σ) (dev : DpdkDevice) (w : World σ) :
    injectFromSharedCache D dev w = (dev, w) ∨
    ∃ ourMac ourIp, dev.ourMac = some ourMac ∧ dev.ourIp = some ourIp ∧
      injectFromSharedCache D dev w =
        ({ dev with
            rxBatch := (injectEntries D ourMac ourIp w.arp.inner.entries dev.rxBatch w.ffi).2.1
            lastCacheVersion :=
              if (injectEntries D ourMac ourIp w.arp.inner.entries dev.rxBatch w.ffi).1
              then w.arp.version else dev.lastCacheVersion },
          { w with
            ffi := (injectEntries D ourMac ourIp w.arp.inner.entries dev.rxBatch w.ffi).2.2 }) := by
  by_cases hq : dev.queueId = 0
  · exact Or.inl (injectFromSharedCache_skip D (Or.inl hq))
  · by_cases hc : dev.sharedArpCache = true
    · by_cases hv : w.arp.version = dev.lastCacheVersion
      · exact Or.inl (injectFromSharedCache_skip D (Or.inr (Or.inr hv)))
      · exact Or.inr (injectFromSharedCache_run D hq hc hv)
    · exact Or.inl (injectFromSharedCache_skip D (Or.inr (Or.inl (Bool.eq_false_iff.mpr hc))))

theorem receive_fst (D : Dpdk σ) (H : Hasher) (dev : DpdkDevice) (w : World σ) :
    (DpdkDevice.receive D H dev w).2.1.txBatch
        = (DpdkDevice.flushTx D dev w.ffi).1.txBatch ∧
      (DpdkDevice.receive D H dev w).2.1.config = dev.config := by
  obtain ⟨batch, -, heq⟩ := receive_spec D H dev w
  obtain ⟨h1, h2⟩ := pollRx_fst D H dev w
  rw [heq]
  obtain hp | ⟨ourMac, ourIp, -, -, hp⟩ :=
    injectFromSharedCache_cases D (pollRx D H dev w).1 (pollRx D H dev w).2
  · have hp' : prepared D H dev w = _ := hp
    rw [hp']
    exact ⟨h1, h2⟩
  · have hp' : prepared D H dev w = _ := hp
    rw [hp']
    exact ⟨h1, h2⟩

end DpdkNet
