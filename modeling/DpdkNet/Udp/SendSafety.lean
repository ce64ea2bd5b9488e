import DpdkNet.Udp.UdpSocket
import DpdkNet.Device.MbufOwnership

/-! # The sizes that `send_to` takes

    `send_to` extends the mbuf by the 42 octets of the headers and the data, with
    the `extend` that checks neither the tailroom nor the sixteen bits of
    `data_len`, and builds the frame in what `data_mut` then shows.  There are
    three ranges of lengths: the frame fits; it exceeds the memory of the mbuf,
    and `data_mut` is a slice beyond it; it exceeds `u16::MAX`, and `data_mut` is
    what is left of the length modulo 2 ^ 16.

    A frame is built in the first range only (`writeFrame_length`): the lengths
    that are written to the headers decide how far the views reach, and the views
    reach over all 42 octets and the data. -/

namespace DpdkNet

namespace MbufUdp

namespace UdpSocket

open Wire

variable {σ : Type}

/-! ## What a frame needs -/

theorem needs_writeEth (localMac remoteMac : MacAddress) :
    Needs 14 (writeEth localMac remoteMac) := by
  have hdst : Needs 6 (EthernetFrame.setDstAddr remoteMac) := needs_writeAt 6 fun _ => rfl
  have hsrc : Needs 12 (EthernetFrame.setSrcAddr localMac) := needs_writeAt 6 fun _ => rfl
  have htype : Needs 14 (EthernetFrame.setEthertype EthernetFrame.ipv4) :=
    needs_writeAt 2 fun _ => rfl
  exact (hdst.bind (hsrc.bind htype)).mono (by decide)

theorem needs_writeIpv4Start (len : Nat) : Needs 4 (writeIpv4Start len) := by
  have hversion : Needs 1 (Ipv4Packet.setVersion 4) := needs_writeAt 1 fun _ => rfl
  have hlen : Needs 1 (Ipv4Packet.setHeaderLen 5) := needs_writeAt 1 fun _ => rfl
  have hdscp : Needs 2 (Ipv4Packet.setDscp 0) := needs_writeAt 1 fun _ => rfl
  have hecn : Needs 2 (Ipv4Packet.setEcn 0) := needs_writeAt 1 fun _ => rfl
  have htotal : Needs 4 (Ipv4Packet.setTotalLen (UInt16.ofNat (20 + 8 + len))) :=
    needs_writeAt 2 fun _ => rfl
  exact (hversion.bind <| hlen.bind <| hdscp.bind <| hecn.bind htotal).mono (by decide)

theorem needs_writeIpv4Rest (localEndpoint remoteEndpoint : Endpoint) :
    Needs 20 (writeIpv4Rest localEndpoint remoteEndpoint) := by
  have hident : Needs 6 (Ipv4Packet.setIdent 0) := needs_writeAt 2 fun _ => rfl
  have hflags : Needs 8 Ipv4Packet.clearFlags := needs_writeAt 2 fun _ => rfl
  have hoffset : Needs 8 (Ipv4Packet.setFragOffset 0) := needs_writeAt 2 fun _ => rfl
  have hhop : Needs 9 (Ipv4Packet.setHopLimit 64) := needs_writeAt 1 fun _ => rfl
  have hnext : Needs 10 (Ipv4Packet.setNextHeader Ipv4Packet.udp) := needs_writeAt 1 fun _ => rfl
  have hsrc : Needs 16 (Ipv4Packet.setSrcAddr localEndpoint.addr) := needs_writeAt 4 fun _ => rfl
  have hdst : Needs 20 (Ipv4Packet.setDstAddr remoteEndpoint.addr) := needs_writeAt 4 fun _ => rfl
  have hsum : Needs 12 (Ipv4Packet.setChecksum 0) := needs_writeAt 2 fun _ => rfl
  exact (hident.bind <| hflags.bind <| hoffset.bind <| hhop.bind <| hnext.bind <| hsrc.bind <|
    hdst.bind hsum).mono (by decide)

/-- The IPv4 header needs its twenty octets. -/
theorem writeIpv4_length {localEndpoint remoteEndpoint : Endpoint} {len : Nat} {p q : List UInt8}
    (h : writeIpv4 localEndpoint remoteEndpoint len p = some q) : 20 ≤ p.length := by
  rw [writeIpv4] at h
  obtain ⟨p₁, h₁, h⟩ := Option.bind_eq_some_iff.mp h
  obtain ⟨p₂, h₂, -⟩ := Option.bind_eq_some_iff.mp h
  rw [← (needs_writeIpv4Start len p p₁ h₁).2]
  exact (needs_writeIpv4Rest localEndpoint remoteEndpoint p₁ p₂ h₂).1

/-- The UDP packet needs its header and the data: the length it says is where the
    view of the data ends, and the data has to fit the view. -/
theorem writeUdp_length {localEndpoint remoteEndpoint : Endpoint} {data p q : List UInt8}
    (h : writeUdp localEndpoint remoteEndpoint data p = some q) : 8 + data.length ≤ p.length := by
  have hheader : 8 ≤ p.length := by
    have hsrc : Needs 2 (UdpPacket.setSrcPort localEndpoint.port) := needs_writeAt 2 fun _ => rfl
    have hdst : Needs 4 (UdpPacket.setDstPort remoteEndpoint.port) := needs_writeAt 2 fun _ => rfl
    have hlen : Needs 6 (UdpPacket.setLen (UInt16.ofNat (8 + data.length))) :=
      needs_writeAt 2 fun _ => rfl
    have hsum : Needs 8 (UdpPacket.setChecksum 0) := needs_writeAt 2 fun _ => rfl
    rw [writeUdp] at h
    obtain ⟨p₁, h₁, h⟩ := Option.bind_eq_some_iff.mp h
    obtain ⟨p₂, h₂, h⟩ := Option.bind_eq_some_iff.mp h
    obtain ⟨p₃, h₃, h⟩ := Option.bind_eq_some_iff.mp h
    obtain ⟨p₄, h₄, -⟩ := Option.bind_eq_some_iff.mp h
    calc 8 ≤ p₃.length := (hsum p₃ p₄ h₄).1
      _ = p₂.length := (hlen p₂ p₃ h₃).2
      _ = p₁.length := (hdst p₁ p₂ h₂).2
      _ = p.length := (hsrc p p₁ h₁).2
  rw [writeUdp_header localEndpoint remoteEndpoint data hheader, UdpPacket.payloadMut,
    len_udpHeader_mod] at h
  obtain ⟨hstart, hstop, v, w, hv, hw⟩ := overSlice_some h
  have hcopy := (needs_writeAt data.length (fun _ => rfl) v w hw).1
  rw [List.length_append, List.length_drop] at hstop
  have hlen : (udpHeader localEndpoint remoteEndpoint data.length).length = 8 := rfl
  omega

/-- **A FRAME THAT IS BUILT HAS ROOM**: all 42 octets and the data. -/
theorem writeFrame_length {localMac remoteMac : MacAddress} {localEndpoint remoteEndpoint : Endpoint}
    {data p q : List UInt8}
    (h : writeFrame localMac remoteMac localEndpoint remoteEndpoint data p = some q) :
    42 + data.length ≤ p.length := by
  rw [writeFrame] at h
  obtain ⟨p₁, h₁, h⟩ := Option.bind_eq_some_iff.mp h
  obtain ⟨heth, hlen₁⟩ := needs_writeEth localMac remoteMac p p₁ h₁
  obtain ⟨-, -, ip, w, hip, hw⟩ := overSlice_some h
  obtain ⟨ip₁, hip₁, hview⟩ := Option.bind_eq_some_iff.mp hw
  obtain ⟨rest, heq, hrest⟩ := writeIpv4_eq localEndpoint remoteEndpoint data.length
    (writeIpv4_length hip₁)
  have hip₁' : ip₁ = ipv4Start data.length ++ rest := by
    rw [hip₁] at heq
    exact Option.some.inj heq
  rw [hip₁', Ipv4Packet.payloadMut, headerLen_ipv4Start, totalLen_ipv4Start_mod] at hview
  obtain ⟨hstart, hstop, v, u, hv, hu⟩ := overSlice_some hview
  have hudp := writeUdp_length hu
  rw [List.length_append] at hstop
  have hlen : (ipv4Start data.length).length = 4 := rfl
  -- a total length that wraps is shorter than the UDP packet
  omega

/-! ## When sending is safe -/

/-- The lengths of a queued frame: both lengths of the mbuf, its memory, and the
    length fields of the two headers. -/
structure Sized (data : List UInt8) (f : Mbuf) : Prop where
  dataLen : f.dataLen = 42 + data.length
  pktLen : f.pktLen = 42 + data.length
  room : f.dataLen ≤ f.buf.length
  u16 : f.dataLen ≤ u16Max
  totalLen : Ipv4Packet.totalLen (EthernetFrame.payload f.data) = 28 + data.length
  udpLen : ∃ udp, Ipv4Packet.payload (EthernetFrame.payload f.data) = some udp ∧
    UdpPacket.len udp = 8 + data.length

/-- `send_to` returns: an error, with the batch and the mbufs as they were, or with
    one frame more, of the right lengths. -/
def SendsSafely (D : Dpdk σ) (L : Ledger D) (sock : UdpSocket) (s : σ) (data : List UInt8)
    (remoteEndpoint : Endpoint) (remoteMac : MacAddress) : Prop :=
  ∃ r sock' s', sendTo D sock s data remoteEndpoint remoteMac = some (r, sock', s') ∧
    match r with
    | .error _ => sock'.txBatch = sock.txBatch ∧ L.free s' = L.free s ∧ L.nic s' = L.nic s
    | .ok _ => ∃ f, sock'.txBatch.toList = sock.txBatch.toList ++ [f] ∧ Sized data f

/-- If a frame is to be built, the mbuf that the pool has for it and sixteen bits
    are enough. -/
def Fits (D : Dpdk σ) (sock : UdpSocket) (s : σ) (data : List UInt8)
    (remoteEndpoint : Endpoint) : Prop :=
  sock.localEndpoint ≠ none → remoteEndpoint.isSpecified = true → sock.mempool = true →
    ∀ m, (D.pktmbufAlloc s).1 = some m →
      42 + data.length ≤ m.buf.length ∧ 42 + data.length ≤ u16Max

/-- The frame of `sendTo_built` has the right lengths. -/
theorem sized_of_sentFrame {data tail : List UInt8} {f : Mbuf} {localMac remoteMac : MacAddress}
    {localEndpoint remoteEndpoint : Endpoint} (hmax : 42 + data.length ≤ u16Max)
    (htail : tail.length = 16) (hdataLen : f.dataLen = 42 + data.length)
    (hpktLen : f.pktLen = 42 + data.length) (hroom : f.dataLen ≤ f.buf.length)
    (hdata : f.data = sentFrame localMac remoteMac localEndpoint remoteEndpoint data tail) :
    Sized data f := by
  have hip : EthernetFrame.payload f.data = sentIp localEndpoint remoteEndpoint data tail := by
    rw [hdata]
    rfl
  constructor
  · exact hdataLen
  · exact hpktLen
  · exact hroom
  · rw [hdataLen]
    exact hmax
  · rw [hip, sentIp, totalLen_ipv4Start (by omega)]
  · refine ⟨_, ?_, len_udpHeader localEndpoint remoteEndpoint (by omega) (data ++ tail)⟩
    rw [hip]
    exact payload_sentIp htail (by omega)

/-- A send that is refused before the frame is built changes nothing. -/
theorem sendsSafely_of_refused {D : Dpdk σ} {L : Ledger D} {sock : UdpSocket} {s : σ}
    {data : List UInt8} {remoteEndpoint : Endpoint} {remoteMac : MacAddress} (e : SocketError)
    (h : sendTo D sock s data remoteEndpoint remoteMac = some (.error e, sock, s)) :
    SendsSafely D L sock s data remoteEndpoint remoteMac :=
  ⟨_, _, _, h, rfl, rfl, rfl⟩

/-- An allocation that fails leaves the mbufs where they are. -/
theorem ledger_alloc_none {D : Dpdk σ} (L : Ledger D) {s s' : σ}
    (h : D.pktmbufAlloc s = (none, s')) : L.free s' = L.free s ∧ L.nic s' = L.nic s := by
  have hfree := L.alloc_free s
  have hnic := L.alloc_nic s
  rw [h] at hfree hnic
  refine ⟨?_, hnic⟩
  rw [hfree]
  exact (zero_add _).symm

/-- One that is given back is where it was. -/
theorem ledger_alloc_free {D : Dpdk σ} (L : Ledger D) {s s' : σ} {m f : Mbuf}
    (h : D.pktmbufAlloc s = (some m, s')) (hinner : f.inner = m.inner) :
    L.free (D.pktmbufFree s' f) = L.free s ∧ L.nic (D.pktmbufFree s' f) = L.nic s := by
  have hfree := L.alloc_free s
  have hnic := L.alloc_nic s
  rw [h] at hfree hnic
  refine ⟨?_, ?_⟩
  · rw [L.release_free, hfree, hinner, ← Multiset.singleton_add]
    rfl
  · rw [L.release_nic]
    exact hnic

/-- A frame that fits is queued, or the batch is full and the mbuf goes back. -/
theorem sendsSafely_of_fits {D : Dpdk σ} (L : Ledger D) {sock : UdpSocket} {s s' : σ}
    {localEndpoint remoteEndpoint : Endpoint} {m : Mbuf} (data : List UInt8)
    (remoteMac : MacAddress) (hbound : sock.localEndpoint = some localEndpoint)
    (hremote : remoteEndpoint.isSpecified = true) (hpool : sock.mempool = true)
    (halloc : D.pktmbufAlloc s = (some m, s')) (hfit : 42 + data.length ≤ m.buf.length)
    (hmax : 42 + data.length ≤ u16Max) :
    SendsSafely D L sock s data remoteEndpoint remoteMac := by
  obtain ⟨f, tail, htail, hinner, hdataLen, hpktLen, hroom, hdata, hsend⟩ := sendTo_built D sock
    data remoteEndpoint remoteMac hbound hremote hpool halloc hfit hmax
  cases hpush : sock.txBatch.tryPush f with
  | none =>
      rw [hpush] at hsend
      exact ⟨_, _, _, hsend, rfl, ledger_alloc_free L halloc hinner⟩
  | some txBatch =>
      rw [hpush] at hsend
      exact ⟨_, _, _, hsend, f, (ArrayVec.toList_of_tryPush hpush).1,
        sized_of_sentFrame hmax htail hdataLen hpktLen hroom hdata⟩

/-- A send that returns, with everything there to build a frame, has built one. -/
theorem fits_of_sendTo {D : Dpdk σ} {sock : UdpSocket} {s : σ} {localEndpoint remoteEndpoint : Endpoint}
    {m : Mbuf} {data : List UInt8} {remoteMac : MacAddress}
    {r : Except SocketError Unit × UdpSocket × σ} (hbound : sock.localEndpoint = some localEndpoint)
    (hremote : remoteEndpoint.isSpecified = true) (hpool : sock.mempool = true)
    (halloc : (D.pktmbufAlloc s).1 = some m)
    (h : sendTo D sock s data remoteEndpoint remoteMac = some r) :
    42 + data.length ≤ m.buf.length ∧ 42 + data.length ≤ u16Max := by
  obtain ⟨s', halloc'⟩ : ∃ s', D.pktmbufAlloc s = (some m, s') := ⟨_, Prod.ext halloc rfl⟩
  have hreset := D.alloc_reset s m halloc
  simp only [sendTo, hbound, hremote, hpool, if_true, halloc'] at h
  cases hframe : writeFrame sock.localMac remoteMac localEndpoint remoteEndpoint data
      (m.extend (14 + 20 + 8 + data.length)).data with
  | none =>
      rw [hframe] at h
      cases h
  | some bytes =>
      -- `data_mut` is no longer than the memory, nor than what sixteen bits say
      have hlen := writeFrame_length hframe
      have hview : (m.extend (14 + 20 + 8 + data.length)).data.length =
          min ((m.dataLen + (14 + 20 + 8 + data.length)) % 2 ^ 16) m.buf.length := List.length_take
      rw [hview, hreset.1] at hlen
      unfold u16Max
      omega

/-- **THE SIZES THAT ARE SAFE**: whatever the socket, the pool and the payload,
    sending is safe exactly if no frame is to be built, or one that fits the mbuf
    and sixteen bits. -/
theorem sendTo_safe_iff (D : Dpdk σ) (L : Ledger D) (sock : UdpSocket) (s : σ) (data : List UInt8)
    (remoteEndpoint : Endpoint) (remoteMac : MacAddress) :
    SendsSafely D L sock s data remoteEndpoint remoteMac ↔ Fits D sock s data remoteEndpoint := by
  constructor
  · rintro ⟨r, sock', s', hsend, -⟩ hbound hremote hpool m halloc
    obtain ⟨localEndpoint, hlocal⟩ := Option.ne_none_iff_exists'.mp hbound
    exact fits_of_sendTo hlocal hremote hpool halloc hsend
  · intro hfits
    cases hbound : sock.localEndpoint with
    | none => exact sendsSafely_of_refused .notBound (by simp only [sendTo, hbound])
    | some localEndpoint =>
        cases hremote : remoteEndpoint.isSpecified with
        | false =>
            exact sendsSafely_of_refused .invalidEndpoint (by
              simp only [sendTo, hbound, hremote, Bool.false_eq_true, if_false])
        | true =>
            cases hpool : sock.mempool with
            | false =>
                exact sendsSafely_of_refused .queueError (by
                  simp only [sendTo, hbound, hremote, hpool, Bool.false_eq_true, if_false, if_true])
            | true =>
                rcases halloc : D.pktmbufAlloc s with ⟨_ | m, s'⟩
                · refine ⟨.error .bufferFull, sock, s', ?_, rfl, ledger_alloc_none L halloc⟩
                  simp only [sendTo, hbound, hremote, hpool, if_true, halloc]
                · obtain ⟨hfit, hmax⟩ := hfits (by rw [hbound]; exact Option.some_ne_none _) hremote
                    hpool m (by rw [halloc])
                  exact sendsSafely_of_fits L data remoteMac hbound hremote hpool halloc hfit hmax

/-- A payload of 65494 octets: the length of the frame is zero in sixteen bits, and
    the first header has nowhere to go. -/
theorem long_payload_panics :
    ¬ SendsSafely (poolNic 64) (poolLedger 64) (boundTo ⟨⟨10, 0, 0, 1⟩, 7⟩) ⟨[1], []⟩
      (List.replicate 65494 0) ⟨⟨10, 0, 0, 2⟩, 9⟩ ⟨2, 2, 2, 2, 2, 2⟩ := by
  rintro ⟨r, sock', s', hsend, -⟩
  have hmax := (fits_of_sendTo rfl rfl rfl rfl hsend).2
  rw [List.length_replicate] at hmax
  exact absurd hmax (by decide)

end UdpSocket

end MbufUdp

end DpdkNet
