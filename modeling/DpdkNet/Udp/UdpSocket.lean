import DpdkNet.Udp.Packet

/-! # The mbuf UDP socket

    `dpdk-net-test/src/udp.rs`: a socket that builds its frames in mbufs, header
    by header through nested views, and parses what it receives the same way.

    `set_header_len` takes octets and is given words, so the header that is built
    says that it is four octets long.  The UDP view begins there, and everything
    written through it lands on fields of the IPv4 header: the ports on the
    identification and the fragment offset, the length on the hop limit and the
    protocol, the data on the addresses.  `writeFrame_eq` shows the frame,
    `datagram_readable_iff` when a receiver makes sense of it. -/

namespace DpdkNet

namespace MbufUdp

open Wire

inductive SocketError where
  /-- Socket is not bound to a port -/
  | notBound
  /-- Invalid endpoint (zero port or unspecified address) -/
  | invalidEndpoint
  /-- Buffer is full, cannot send more packets -/
  | bufferFull
  /-- No packets available to receive -/
  | noPackets
  /-- RX/TX queue error -/
  | queueError
  deriving DecidableEq, Repr

structure Endpoint where
  addr : Ipv4Addr
  port : UInt16
  deriving DecidableEq, Repr

def Endpoint.isSpecified (e : Endpoint) : Bool := e.addr ≠ ⟨0, 0, 0, 0⟩ ∧ e.port ≠ 0

/-- The socket; of the TX queue and the mempool we keep whether they are
    attached. -/
structure UdpSocket where
  localEndpoint : Option Endpoint
  localMac : MacAddress
  txq : Bool
  mempool : Bool
  txBatch : ArrayVec Mbuf 64
  rxBatch : ArrayVec Mbuf 64

namespace UdpSocket

def new : UdpSocket where
  localEndpoint := none
  localMac := ⟨0, 0, 0, 0, 0, 0⟩
  txq := false
  mempool := false
  txBatch := .new
  rxBatch := .new

/-- Bind the socket to a local endpoint. -/
def bind (sock : UdpSocket) (endpoint : Endpoint) : Except SocketError UdpSocket :=
  if endpoint.port = 0 then .error .invalidEndpoint
  else .ok { sock with localEndpoint := some endpoint }

/-- The Ethernet header. -/
def writeEth (localMac remoteMac : MacAddress) (p : List UInt8) : Option (List UInt8) :=
  (EthernetFrame.setDstAddr remoteMac p).bind fun p =>
  (EthernetFrame.setSrcAddr localMac p).bind
  (EthernetFrame.setEthertype EthernetFrame.ipv4)

/-- The IPv4 header, setter by setter: the first four octets, -/
def writeIpv4Start (len : Nat) (p : List UInt8) : Option (List UInt8) :=
  (Ipv4Packet.setVersion 4 p).bind fun p =>
  (Ipv4Packet.setHeaderLen 5 p).bind fun p =>
  (Ipv4Packet.setDscp 0 p).bind fun p =>
  (Ipv4Packet.setEcn 0 p).bind
  (Ipv4Packet.setTotalLen (UInt16.ofNat (20 + 8 + len)))

/-- the others, -/
def writeIpv4Rest (localEndpoint remoteEndpoint : Endpoint) (p : List UInt8) :
    Option (List UInt8) :=
  (Ipv4Packet.setIdent 0 p).bind fun p =>
  (Ipv4Packet.clearFlags p).bind fun p =>
  (Ipv4Packet.setFragOffset 0 p).bind fun p =>
  (Ipv4Packet.setHopLimit 64 p).bind fun p =>
  (Ipv4Packet.setNextHeader Ipv4Packet.udp p).bind fun p =>
  (Ipv4Packet.setSrcAddr localEndpoint.addr p).bind fun p =>
  (Ipv4Packet.setDstAddr remoteEndpoint.addr p).bind
  (Ipv4Packet.setChecksum 0)

/-- and the checksum. -/
def writeIpv4 (localEndpoint remoteEndpoint : Endpoint) (len : Nat) (p : List UInt8) :
    Option (List UInt8) :=
  (writeIpv4Start len p).bind fun p =>
  (writeIpv4Rest localEndpoint remoteEndpoint p).bind
  Ipv4Packet.fillChecksum

/-- The UDP header and the data. -/
def writeUdp (localEndpoint remoteEndpoint : Endpoint) (data : List UInt8) (p : List UInt8) :
    Option (List UInt8) :=
  (UdpPacket.setSrcPort localEndpoint.port p).bind fun p =>
  (UdpPacket.setDstPort remoteEndpoint.port p).bind fun p =>
  (UdpPacket.setLen (UInt16.ofNat (8 + data.length)) p).bind fun p =>
  (UdpPacket.setChecksum 0 p).bind
  (UdpPacket.payloadMut fun v => writeAt v 0 data)

/-- The whole frame: each header is written through the payload of the one
    around it. -/
def writeFrame (localMac remoteMac : MacAddress) (localEndpoint remoteEndpoint : Endpoint)
    (data : List UInt8) (p : List UInt8) : Option (List UInt8) :=
  (writeEth localMac remoteMac p).bind
  (EthernetFrame.payloadMut fun ip =>
    (writeIpv4 localEndpoint remoteEndpoint data.length ip).bind
    (Ipv4Packet.payloadMut (writeUdp localEndpoint remoteEndpoint data)))

variable {σ : Type}

/-- Send a UDP packet: allocate an mbuf, construct the headers, queue it.  `none`
    is an index out of bounds, or an access beyond the memory of the mbuf. -/
def sendTo (D : Dpdk σ) (sock : UdpSocket) (s : σ) (data : List UInt8)
    (remoteEndpoint : Endpoint) (remoteMac : MacAddress) :
    Option (Except SocketError Unit × UdpSocket × σ) :=
  match sock.localEndpoint with
  | none => some (.error .notBound, sock, s)
  | some localEndpoint =>
      if remoteEndpoint.isSpecified then
        if sock.mempool then
          match D.pktmbufAlloc s with
          | (none, s) => some (.error .bufferFull, sock, s)
          | (some mbuf, s) =>
              let mbuf := mbuf.extend (14 + 20 + 8 + data.length)
              match writeFrame sock.localMac remoteMac localEndpoint remoteEndpoint data
                  mbuf.data with
              | none => none
              | some bytes =>
                  let mbuf := { mbuf with buf := bytes ++ mbuf.buf.drop mbuf.dataLen }
                  match sock.txBatch.tryPush mbuf with
                  | some txBatch => some (.ok (), { sock with txBatch }, s)
                  | none => some (.error .bufferFull, sock, D.pktmbufFree s mbuf)
        else some (.error .queueError, sock, s)
      else some (.error .invalidEndpoint, sock, s)

/-- The sender of a frame for us, if it is one. -/
def readFrom (localEndpoint : Endpoint) (p : List UInt8) : Except SocketError Endpoint :=
  if EthernetFrame.Checked p then
    if EthernetFrame.ethertype p ≠ EthernetFrame.ipv4 then .error .queueError
    else
      let ip := EthernetFrame.payload p
      if Ipv4Packet.Checked ip then
        if Ipv4Packet.nextHeader ip ≠ Ipv4Packet.udp then .error .queueError
        else
          match Ipv4Packet.payload ip with
          -- never: a checked packet has its payload
          | none => .error .queueError
          | some udp =>
              if UdpPacket.Checked udp then
                if UdpPacket.dstPort udp ≠ localEndpoint.port then .error .queueError
                else .ok ⟨Ipv4Packet.srcAddr ip, UdpPacket.srcPort udp⟩
              else .error .queueError
      else .error .queueError
  else .error .queueError

/-- Try to receive a UDP packet: the packet at the back of the batch, and who
    sent it.  One that is not for us is dropped. -/
def recvFrom (D : Dpdk σ) (sock : UdpSocket) (s : σ) :
    Except SocketError (Mbuf × Endpoint) × UdpSocket × σ :=
  match sock.localEndpoint with
  | none => (.error .notBound, sock, s)
  | some localEndpoint =>
      match sock.rxBatch.pop with
      | none => (.error .noPackets, sock, s)
      | some (mbuf, rxBatch) =>
          match readFrom localEndpoint mbuf.data with
          | .ok remoteEndpoint => (.ok (mbuf, remoteEndpoint), { sock with rxBatch }, s)
          | .error e => (.error e, { sock with rxBatch }, D.pktmbufFree s mbuf)

/-- The UDP payload of a frame, by the views of the receiver. -/
def udpPayload (p : List UInt8) : Option (List UInt8) :=
  (Ipv4Packet.payload (EthernetFrame.payload p)).bind UdpPacket.payload

/-! ## The frame that is sent -/

def ethHeader (localMac remoteMac : MacAddress) : List UInt8 :=
  remoteMac.bytes ++ localMac.bytes ++ beBytes EthernetFrame.ipv4

theorem writeEth_eq (localMac remoteMac : MacAddress) {p : List UInt8} (h : 14 ≤ p.length) :
    writeEth localMac remoteMac p = some (ethHeader localMac remoteMac ++ p.drop 14) := by
  have hdst : EthernetFrame.setDstAddr remoteMac p = some (remoteMac.bytes ++ p.drop 6) :=
    writeAt_zero (by show 6 ≤ p.length; omega)
  have hsrc : EthernetFrame.setSrcAddr localMac (remoteMac.bytes ++ p.drop 6) =
      some ((remoteMac.bytes ++ localMac.bytes) ++ p.drop 12) :=
    writeAt_next remoteMac.bytes (by show 12 ≤ p.length; omega)
  have htype : EthernetFrame.setEthertype EthernetFrame.ipv4
      ((remoteMac.bytes ++ localMac.bytes) ++ p.drop 12) =
      some (ethHeader localMac remoteMac ++ p.drop 14) :=
    writeAt_next (remoteMac.bytes ++ localMac.bytes) h
  rw [writeEth, hdst, Option.bind_some, hsrc, Option.bind_some, htype]

/-- The first four octets of the IPv4 header: version 4, and a header length of
    one word. -/
def ipv4Start (len : Nat) : List UInt8 := [0x41, 0] ++ beBytes (UInt16.ofNat (20 + 8 + len))

/-- The first five setters: the two that share the first byte, the two that share
    the second, and the length. -/
theorem writeIpv4Start_eq (len : Nat) {x y : UInt8} {rest : List UInt8} (h : 2 ≤ rest.length) :
    writeIpv4Start len (x :: y :: rest) = some (ipv4Start len ++ rest.drop 2) := by
  have hversion : Ipv4Packet.setVersion 4 (x :: y :: rest) =
      some (((x &&& ~~~(0xf0 : UInt8)) ||| ((4 : UInt8) <<< 4)) :: y :: rest) :=
    writeAt_zero (by simp)
  have hlen : Ipv4Packet.setHeaderLen 5
      (((x &&& ~~~(0xf0 : UInt8)) ||| ((4 : UInt8) <<< 4)) :: y :: rest) =
      some ((0x41 : UInt8) :: y :: rest) := by
    -- a length of 5 octets is one word
    have hbyte : ((((x &&& ~~~(0xf0 : UInt8)) ||| ((4 : UInt8) <<< 4)) &&& ~~~(0x0f : UInt8)) |||
        (((5 : UInt8) / 4) &&& 0x0f)) = 0x41 := by
      rw [and_or_and_of_disjoint (by decide)]
      decide
    rw [← hbyte]
    exact writeAt_zero (by simp)
  have hdscp : Ipv4Packet.setDscp 0 ((0x41 : UInt8) :: y :: rest) =
      some ((0x41 : UInt8) :: ((y &&& ~~~(0xfc : UInt8)) ||| ((0 : UInt8) <<< 2)) :: rest) :=
    writeAt_append [0x41] (by simp)
  have hecn : Ipv4Packet.setEcn 0
      ((0x41 : UInt8) :: ((y &&& ~~~(0xfc : UInt8)) ||| ((0 : UInt8) <<< 2)) :: rest) =
      some ((0x41 : UInt8) :: 0 :: rest) := by
    have hbyte : ((((y &&& ~~~(0xfc : UInt8)) ||| ((0 : UInt8) <<< 2)) &&& ~~~(0x03 : UInt8)) |||
        ((0 : UInt8) &&& 0x03)) = 0 := by
      rw [and_or_and_of_disjoint (by decide)]
      decide
    conv_rhs => rw [← hbyte]
    exact writeAt_append [0x41] (by simp)
  have htotal : Ipv4Packet.setTotalLen (UInt16.ofNat (20 + 8 + len)) ((0x41 : UInt8) :: 0 :: rest) =
      some (ipv4Start len ++ rest.drop 2) := writeAt_append [0x41, 0] h
  rw [writeIpv4Start, hversion, Option.bind_some, hlen, Option.bind_some, hdscp, Option.bind_some, hecn,
    Option.bind_some, htotal]

/-- The setters that follow, up to the checksum, write behind the first four
    octets. -/
theorem keeps_writeIpv4Rest (localEndpoint remoteEndpoint : Endpoint) :
    Keeps 20 4 (writeIpv4Rest localEndpoint remoteEndpoint) := by
  have hident : Keeps 20 4 (Ipv4Packet.setIdent 0) :=
    keeps_writeAt 2 (by omega) (by omega) fun _ => rfl
  have hflags : Keeps 20 4 Ipv4Packet.clearFlags :=
    keeps_writeAt 2 (by omega) (by omega) fun _ => rfl
  have hoffset : Keeps 20 4 (Ipv4Packet.setFragOffset 0) :=
    keeps_writeAt 2 (by omega) (by omega) fun _ => rfl
  have hhop : Keeps 20 4 (Ipv4Packet.setHopLimit 64) :=
    keeps_writeAt 1 (by omega) (by omega) fun _ => rfl
  have hnext : Keeps 20 4 (Ipv4Packet.setNextHeader Ipv4Packet.udp) :=
    keeps_writeAt 1 (by omega) (by omega) fun _ => rfl
  have hsrc : Keeps 20 4 (Ipv4Packet.setSrcAddr localEndpoint.addr) :=
    keeps_writeAt 4 (by omega) (by omega) fun _ => rfl
  have hdst : Keeps 20 4 (Ipv4Packet.setDstAddr remoteEndpoint.addr) :=
    keeps_writeAt 4 (by omega) (by omega) fun _ => rfl
  have hsum : Keeps 20 4 (Ipv4Packet.setChecksum 0) :=
    keeps_writeAt 2 (by omega) (by omega) fun _ => rfl
  exact hident.bind <| hflags.bind <| hoffset.bind <| hhop.bind <| hnext.bind <| hsrc.bind <|
    hdst.bind hsum

/-- A packet that begins like the header says that the header is four octets
    long. -/
theorem headerLen_ipv4Start (len : Nat) (rest : List UInt8) :
    Ipv4Packet.headerLen (ipv4Start len ++ rest) = 4 := by
  show ((0x41 : UInt8) &&& 0x0f).toNat * 4 = 4
  decide

/-- What keeps the first four octets keeps a packet that begins like the header. -/
theorem ipv4Start_kept {f : List UInt8 → Option (List UInt8)} (hf : Keeps 20 4 f) {len : Nat}
    {rest : List UInt8} (h : 16 ≤ rest.length) :
    ∃ rest', f (ipv4Start len ++ rest) = some (ipv4Start len ++ rest') ∧
      rest'.length = rest.length := by
  obtain ⟨q, hq, hlen, htake⟩ := hf (ipv4Start len ++ rest) (by
    rw [List.length_append]
    show 20 ≤ 4 + rest.length
    omega)
  have hstart : q.take 4 = ipv4Start len :=
    htake.trans (List.take_left' rfl)
  refine ⟨q.drop 4, ?_, ?_⟩
  · rw [hq, ← hstart, List.take_append_drop]
  · rw [List.length_drop, hlen, List.length_append]
    exact Nat.add_sub_cancel_left 4 rest.length

theorem fillChecksum_written (len : Nat) {rest : List UInt8} (h : 16 ≤ rest.length) :
    ∃ rest', Ipv4Packet.fillChecksum (ipv4Start len ++ rest) = some (ipv4Start len ++ rest') ∧
      rest'.length = rest.length := by
  have hset : ∀ v, Keeps 20 4 (Ipv4Packet.setChecksum v) :=
    fun v => keeps_writeAt 2 (by omega) (by omega) fun _ => rfl
  obtain ⟨rest₁, h₁, hlen₁⟩ : ∃ rest₁, Ipv4Packet.setChecksum 0 (ipv4Start len ++ rest) =
      some (ipv4Start len ++ rest₁) ∧ rest₁.length = rest.length := ipv4Start_kept (hset 0) h
  have hslice : slice (ipv4Start len ++ rest₁) 0 4 = some ((ipv4Start len ++ rest₁).take 4) :=
    slice_zero (by rw [List.length_append]; exact Nat.le_add_right 4 _)
  obtain ⟨rest₂, h₂, hlen₂⟩ : ∃ rest₂, Ipv4Packet.setChecksum
      (~~~ Ipv4Packet.checksumData ((ipv4Start len ++ rest₁).take 4)) (ipv4Start len ++ rest₁) =
      some (ipv4Start len ++ rest₂) ∧ rest₂.length = rest₁.length :=
    ipv4Start_kept (hset _) (by omega)
  refine ⟨rest₂, ?_, hlen₂.trans hlen₁⟩
  rw [Ipv4Packet.fillChecksum, h₁, Option.bind_some, headerLen_ipv4Start, hslice, Option.bind_some,
    h₂]

/-- **THE IPV4 HEADER**: of what the setters write, the first four octets count. -/
theorem writeIpv4_eq (localEndpoint remoteEndpoint : Endpoint) (len : Nat) {p : List UInt8}
    (h : 20 ≤ p.length) :
    ∃ rest, writeIpv4 localEndpoint remoteEndpoint len p = some (ipv4Start len ++ rest) ∧
      rest.length + 4 = p.length := by
  obtain ⟨x, y, tail, rfl⟩ : ∃ x y tail, p = x :: y :: tail := by
    match p, h with
    | x :: y :: tail, _ => exact ⟨x, y, tail, rfl⟩
  rw [List.length_cons, List.length_cons] at h
  have hstart : writeIpv4Start len (x :: y :: tail) = some (ipv4Start len ++ tail.drop 2) :=
    writeIpv4Start_eq len (by omega)
  have hdrop : (tail.drop 2).length = tail.length - 2 := List.length_drop
  obtain ⟨rest₁, h₁, hlen₁⟩ : ∃ rest₁, writeIpv4Rest localEndpoint remoteEndpoint
      (ipv4Start len ++ tail.drop 2) = some (ipv4Start len ++ rest₁) ∧
      rest₁.length = (tail.drop 2).length :=
    ipv4Start_kept (keeps_writeIpv4Rest localEndpoint remoteEndpoint) (by omega)
  obtain ⟨rest₂, h₂, hlen₂⟩ := fillChecksum_written len (show 16 ≤ rest₁.length by omega)
  refine ⟨rest₂, ?_, ?_⟩
  · rw [writeIpv4, hstart, Option.bind_some, h₁, Option.bind_some, h₂]
  · rw [hlen₂, hlen₁, hdrop, List.length_cons, List.length_cons]
    omega

/-- The UDP header, with no checksum. -/
def udpHeader (localEndpoint remoteEndpoint : Endpoint) (len : Nat) : List UInt8 :=
  beBytes localEndpoint.port ++ beBytes remoteEndpoint.port ++
    beBytes (UInt16.ofNat (8 + len)) ++ beBytes 0

/-- A UDP packet that begins with the header says how long it is, in sixteen
    bits. -/
theorem len_udpHeader_mod (localEndpoint remoteEndpoint : Endpoint) (len : Nat)
    (rest : List UInt8) :
    UdpPacket.len (udpHeader localEndpoint remoteEndpoint len ++ rest) = (8 + len) % 2 ^ 16 := by
  have hfield : UdpPacket.len (udpHeader localEndpoint remoteEndpoint len ++ rest) =
      (UInt16.ofNat (8 + len)).toNat := word_beBytes (UInt16.ofNat (8 + len))
  rw [hfield, UInt16.toNat_ofNat']

theorem len_udpHeader (localEndpoint remoteEndpoint : Endpoint) {len : Nat}
    (h : 8 + len ≤ u16Max) (rest : List UInt8) :
    UdpPacket.len (udpHeader localEndpoint remoteEndpoint len ++ rest) = 8 + len := by
  rw [len_udpHeader_mod]
  exact Nat.mod_eq_of_lt (Nat.lt_succ_of_le h)

/-- The header is written, then the data through the view behind it. -/
theorem writeUdp_header (localEndpoint remoteEndpoint : Endpoint) (data : List UInt8)
    {p : List UInt8} (h : 8 ≤ p.length) :
    writeUdp localEndpoint remoteEndpoint data p =
      UdpPacket.payloadMut (fun v => writeAt v 0 data)
        (udpHeader localEndpoint remoteEndpoint data.length ++ p.drop 8) := by
  have hsrc : UdpPacket.setSrcPort localEndpoint.port p =
      some (beBytes localEndpoint.port ++ p.drop 2) := writeAt_zero (by show 2 ≤ p.length; omega)
  have hdst : UdpPacket.setDstPort remoteEndpoint.port (beBytes localEndpoint.port ++ p.drop 2) =
      some ((beBytes localEndpoint.port ++ beBytes remoteEndpoint.port) ++ p.drop 4) :=
    writeAt_next (beBytes localEndpoint.port) (by show 4 ≤ p.length; omega)
  have hlen : UdpPacket.setLen (UInt16.ofNat (8 + data.length))
      ((beBytes localEndpoint.port ++ beBytes remoteEndpoint.port) ++ p.drop 4) =
      some ((beBytes localEndpoint.port ++ beBytes remoteEndpoint.port ++
        beBytes (UInt16.ofNat (8 + data.length))) ++ p.drop 6) :=
    writeAt_next (beBytes localEndpoint.port ++ beBytes remoteEndpoint.port)
      (by show 6 ≤ p.length; omega)
  have hsum : UdpPacket.setChecksum 0
      ((beBytes localEndpoint.port ++ beBytes remoteEndpoint.port ++
        beBytes (UInt16.ofNat (8 + data.length))) ++ p.drop 6) =
      some (udpHeader localEndpoint remoteEndpoint data.length ++ p.drop 8) :=
    writeAt_next (beBytes localEndpoint.port ++ beBytes remoteEndpoint.port ++
      beBytes (UInt16.ofNat (8 + data.length))) (by show 8 ≤ p.length; omega)
  rw [writeUdp, hsrc, Option.bind_some, hdst, Option.bind_some, hlen, Option.bind_some, hsum,
    Option.bind_some]

/-- **THE UDP PACKET**: the header, the data, and what was behind. -/
theorem writeUdp_eq (localEndpoint remoteEndpoint : Endpoint) {data : List UInt8}
    (hmax : 8 + data.length ≤ u16Max) {p : List UInt8} (h : 8 + data.length ≤ p.length) :
    writeUdp localEndpoint remoteEndpoint data p =
      some (udpHeader localEndpoint remoteEndpoint data.length ++
        (data ++ p.drop (8 + data.length))) := by
  have hdata : UdpPacket.payloadMut (fun v => writeAt v 0 data)
      (udpHeader localEndpoint remoteEndpoint data.length ++ p.drop 8) =
      some (udpHeader localEndpoint remoteEndpoint data.length ++
        (data ++ (p.drop 8).drop data.length)) := by
    have hroom : data.length ≤ (p.drop 8).length := by
      rw [List.length_drop]
      omega
    have hcopy : writeAt ((p.drop 8).take data.length) 0 data = some data := by
      have htake : ((p.drop 8).take data.length).length = data.length :=
        List.length_take_of_le hroom
      rw [writeAt_zero (Nat.le_of_eq htake.symm), List.drop_eq_nil_of_le (Nat.le_of_eq htake),
        List.append_nil]
    rw [UdpPacket.payloadMut, len_udpHeader localEndpoint remoteEndpoint hmax]
    exact overSlice_append (udpHeader localEndpoint remoteEndpoint data.length) hroom hcopy
  rw [writeUdp_header localEndpoint remoteEndpoint data (by omega), hdata, List.drop_drop]

/-- So does an IPv4 packet. -/
theorem totalLen_ipv4Start_mod (len : Nat) (rest : List UInt8) :
    Ipv4Packet.totalLen (ipv4Start len ++ rest) = (20 + 8 + len) % 2 ^ 16 := by
  have hfield : Ipv4Packet.totalLen (ipv4Start len ++ rest) =
      (UInt16.ofNat (20 + 8 + len)).toNat := word_beBytes (UInt16.ofNat (20 + 8 + len))
  rw [hfield, UInt16.toNat_ofNat']

theorem totalLen_ipv4Start {len : Nat} (h : 20 + 8 + len ≤ u16Max) (rest : List UInt8) :
    Ipv4Packet.totalLen (ipv4Start len ++ rest) = 20 + 8 + len := by
  rw [totalLen_ipv4Start_mod]
  exact Nat.mod_eq_of_lt (Nat.lt_succ_of_le h)

/-- The IPv4 packet that is sent, up to the sixteen octets at its end: four octets
    of a header, and a UDP packet. -/
def sentIp (localEndpoint remoteEndpoint : Endpoint) (data tail : List UInt8) : List UInt8 :=
  ipv4Start data.length ++ (udpHeader localEndpoint remoteEndpoint data.length ++ (data ++ tail))

def sentFrame (localMac remoteMac : MacAddress) (localEndpoint remoteEndpoint : Endpoint)
    (data tail : List UInt8) : List UInt8 :=
  ethHeader localMac remoteMac ++ sentIp localEndpoint remoteEndpoint data tail

/-- **THE FRAME**: the UDP packet begins four octets into the IPv4 header. -/
theorem writeFrame_eq (localMac remoteMac : MacAddress) (localEndpoint remoteEndpoint : Endpoint)
    {data p : List UInt8} (h : p.length = 14 + 20 + 8 + data.length) (hmax : p.length ≤ u16Max) :
    ∃ tail, tail.length = 16 ∧
      writeFrame localMac remoteMac localEndpoint remoteEndpoint data p =
        some (sentFrame localMac remoteMac localEndpoint remoteEndpoint data tail) := by
  have hdrop : (p.drop 14).length = 20 + 8 + data.length := by
    rw [List.length_drop]
    omega
  obtain ⟨rest, hip, hrest⟩ := writeIpv4_eq localEndpoint remoteEndpoint data.length
    (show 20 ≤ (p.drop 14).length by omega)
  have hudp := writeUdp_eq localEndpoint remoteEndpoint (show 8 + data.length ≤ u16Max by omega)
    (show 8 + data.length ≤ rest.length by omega)
  refine ⟨rest.drop (8 + data.length), by rw [List.length_drop]; omega, ?_⟩
  have hview : (Ipv4Packet.payloadMut (writeUdp localEndpoint remoteEndpoint data)
      (ipv4Start data.length ++ rest)) = some (ipv4Start data.length ++
        (udpHeader localEndpoint remoteEndpoint data.length ++
          (data ++ rest.drop (8 + data.length)))) := by
    have htotal : 20 + 8 + data.length = (ipv4Start data.length ++ rest).length := by
      rw [List.length_append]
      show _ = 4 + rest.length
      omega
    rw [Ipv4Packet.payloadMut, headerLen_ipv4Start, totalLen_ipv4Start (by omega), htotal]
    exact overSlice_append_all (ipv4Start data.length) hudp
  have hframe : EthernetFrame.payloadMut (fun ip =>
      (writeIpv4 localEndpoint remoteEndpoint data.length ip).bind
      (Ipv4Packet.payloadMut (writeUdp localEndpoint remoteEndpoint data)))
      (ethHeader localMac remoteMac ++ p.drop 14) = some (sentFrame localMac remoteMac
        localEndpoint remoteEndpoint data (rest.drop (8 + data.length))) := by
    refine overSlice_append_all (ethHeader localMac remoteMac) ?_
    rw [hip, Option.bind_some, hview, sentIp]
  rw [writeFrame, writeEth_eq localMac remoteMac (by omega), Option.bind_some, hframe]

/-! ## What the receiver reads -/

section Received

variable {localEndpoint remoteEndpoint : Endpoint} {data tail : List UInt8}

/-- The protocol it reads is the low octet of the UDP length. -/
theorem nextHeader_sentIp :
    Ipv4Packet.nextHeader (sentIp localEndpoint remoteEndpoint data tail) = Ipv4Packet.udp ↔
      data.length % 256 = 9 := by
  show UInt8.ofNat (UInt16.ofNat (8 + data.length)).toNat = 0x11 ↔ _
  rw [← UInt8.toNat_inj, UInt8.toNat_ofNat', UInt16.toNat_ofNat']
  show (8 + data.length) % 2 ^ 16 % 2 ^ 8 = 17 ↔ _
  omega

/-- The sender's address it reads is the beginning of the data. -/
theorem srcAddr_sentIp (h : 4 ≤ data.length) :
    (Ipv4Packet.srcAddr (sentIp localEndpoint remoteEndpoint data tail)).octets = data.take 4 := by
  match data, h with
  | _ :: _ :: _ :: _ :: _, _ => rfl

theorem length_sentIp (htail : tail.length = 16) :
    (sentIp localEndpoint remoteEndpoint data tail).length = 20 + 8 + data.length := by
  rw [sentIp, List.length_append, List.length_append, List.length_append, htail]
  show 4 + (8 + (data.length + 16)) = _
  omega

/-- Its UDP view is the UDP packet that was written. -/
theorem payload_sentIp (htail : tail.length = 16) (hmax : 20 + 8 + data.length ≤ u16Max) :
    Ipv4Packet.payload (sentIp localEndpoint remoteEndpoint data tail) =
      some (udpHeader localEndpoint remoteEndpoint data.length ++ (data ++ tail)) := by
  have hlen : (udpHeader localEndpoint remoteEndpoint data.length ++ (data ++ tail)).length
      = 24 + data.length := by
    rw [List.length_append, List.length_append, htail]
    show 8 + (data.length + 16) = _
    omega
  have hstop : 20 + 8 + data.length = (ipv4Start data.length).length +
      (udpHeader localEndpoint remoteEndpoint data.length ++ (data ++ tail)).length := by
    rw [hlen]
    show _ = 4 + _
    omega
  rw [Ipv4Packet.payload, sentIp, headerLen_ipv4Start, totalLen_ipv4Start hmax, hstop]
  exact (slice_append (ipv4Start data.length) (Nat.le_refl _)).trans (by rw [List.take_length])

/-- The data is where the UDP view says. -/
theorem udpPayload_sentFrame (localMac remoteMac : MacAddress) (htail : tail.length = 16)
    (hmax : 20 + 8 + data.length ≤ u16Max) :
    udpPayload (sentFrame localMac remoteMac localEndpoint remoteEndpoint data tail) = some data := by
  have hip : EthernetFrame.payload (sentFrame localMac remoteMac localEndpoint remoteEndpoint data
      tail) = sentIp localEndpoint remoteEndpoint data tail := rfl
  have hroom : data.length ≤ (data ++ tail).length := by
    rw [List.length_append]
    omega
  rw [udpPayload, hip, payload_sentIp htail hmax, Option.bind_some, UdpPacket.payload,
    len_udpHeader localEndpoint remoteEndpoint (by omega)]
  exact (slice_append (udpHeader localEndpoint remoteEndpoint data.length) hroom).trans
    (by rw [List.take_left])

/-- **THE RECEIVER**: it takes the frame for UDP if the length happens to look like
    the protocol, and the data for the sender's address. -/
theorem readFrom_sentFrame (localMac remoteMac : MacAddress) {e : Endpoint}
    (hport : e.port = remoteEndpoint.port) (htail : tail.length = 16)
    (hmax : 20 + 8 + data.length ≤ u16Max) :
    readFrom e (sentFrame localMac remoteMac localEndpoint remoteEndpoint data tail) =
      if data.length % 256 = 9 then
        .ok ⟨Ipv4Packet.srcAddr (sentIp localEndpoint remoteEndpoint data tail), localEndpoint.port⟩
      else .error .queueError := by
  have hip : EthernetFrame.payload (sentFrame localMac remoteMac localEndpoint remoteEndpoint data
      tail) = sentIp localEndpoint remoteEndpoint data tail := rfl
  have heth : EthernetFrame.Checked (sentFrame localMac remoteMac localEndpoint remoteEndpoint data
      tail) := by
    show 14 ≤ (_ ++ _ : List UInt8).length
    rw [List.length_append]
    exact Nat.le_add_right 14 _
  have htype : EthernetFrame.ethertype (sentFrame localMac remoteMac localEndpoint remoteEndpoint
      data tail) = EthernetFrame.ipv4 := ofNat_word_beBytes EthernetFrame.ipv4
  have hcheck : Ipv4Packet.Checked (sentIp localEndpoint remoteEndpoint data tail) := by
    rw [Ipv4Packet.Checked, length_sentIp htail, sentIp, headerLen_ipv4Start,
      totalLen_ipv4Start hmax]
    omega
  have hudp : UdpPacket.Checked (udpHeader localEndpoint remoteEndpoint data.length ++
      (data ++ tail)) := by
    rw [UdpPacket.Checked, len_udpHeader localEndpoint remoteEndpoint (by omega), List.length_append,
      List.length_append]
    show 8 ≤ 8 + _ ∧ 8 + data.length ≤ 8 + (data.length + tail.length) ∧ _
    omega
  have hdst : UdpPacket.dstPort (udpHeader localEndpoint remoteEndpoint data.length ++
      (data ++ tail)) = e.port := (ofNat_word_beBytes remoteEndpoint.port).trans hport.symm
  have hsrc : UdpPacket.srcPort (udpHeader localEndpoint remoteEndpoint data.length ++
      (data ++ tail)) = localEndpoint.port := ofNat_word_beBytes localEndpoint.port
  rw [readFrom, if_pos heth, if_neg (not_not.mpr htype)]
  simp only [hip, if_pos hcheck, payload_sentIp htail hmax, if_pos hudp, hdst, hsrc]
  by_cases hlen : data.length % 256 = 9
  · rw [if_neg (not_not.mpr (nextHeader_sentIp.mpr hlen)), if_pos hlen,
      if_neg (not_not.mpr rfl)]
  · rw [if_pos (fun h => hlen (nextHeader_sentIp.mp h)), if_neg hlen]

end Received

/-! ## From one socket to the other -/

theorem octets_inj {a b : Ipv4Addr} : a.octets = b.octets ↔ a = b := by
  constructor
  · intro h
    cases a
    cases b
    cases h
    rfl
  · rintro rfl
    rfl

/-- A send that has what it needs builds the frame, in an mbuf that says how long
    it is, and then there is room in the batch or not. -/
theorem sendTo_built (D : Dpdk σ) (sock : UdpSocket) {s s' : σ} {localEndpoint : Endpoint}
    {m : Mbuf} (data : List UInt8) (remoteEndpoint : Endpoint) (remoteMac : MacAddress)
    (hbound : sock.localEndpoint = some localEndpoint) (hremote : remoteEndpoint.isSpecified = true)
    (hpool : sock.mempool = true) (halloc : D.pktmbufAlloc s = (some m, s'))
    (hfit : 42 + data.length ≤ m.buf.length) (hmax : 42 + data.length ≤ u16Max) :
    ∃ (f : Mbuf) (tail : List UInt8), tail.length = 16 ∧ f.inner = m.inner ∧
      f.dataLen = 42 + data.length ∧ f.pktLen = 42 + data.length ∧ f.dataLen ≤ f.buf.length ∧
      f.data = sentFrame sock.localMac remoteMac localEndpoint remoteEndpoint data tail ∧
      sendTo D sock s data remoteEndpoint remoteMac =
        match sock.txBatch.tryPush f with
        | some txBatch => some (.ok (), { sock with txBatch }, s')
        | none => some (.error .bufferFull, sock, D.pktmbufFree s' f) := by
  have hreset := D.alloc_reset s m (by rw [halloc])
  unfold u16Max at hmax
  have hdataLen : (m.extend (14 + 20 + 8 + data.length)).dataLen = 42 + data.length := by
    show (m.dataLen + (14 + 20 + 8 + data.length)) % 2 ^ 16 = _
    rw [hreset.1]
    omega
  have hpktLen : (m.extend (14 + 20 + 8 + data.length)).pktLen = 42 + data.length := by
    show (m.pktLen + (14 + 20 + 8 + data.length)) % 2 ^ 32 = _
    rw [hreset.2]
    omega
  have hdata : (m.extend (14 + 20 + 8 + data.length)).data.length = 14 + 20 + 8 + data.length := by
    rw [Mbuf.data, hdataLen]
    exact (List.length_take_of_le hfit).trans (by omega)
  obtain ⟨tail, htail, hframe⟩ := writeFrame_eq sock.localMac remoteMac localEndpoint remoteEndpoint
    hdata (by rw [hdata]; unfold u16Max; omega)
  -- the mbuf as it is queued
  obtain ⟨f, hf⟩ : ∃ f : Mbuf, f = { m.extend (14 + 20 + 8 + data.length) with
      buf := sentFrame sock.localMac remoteMac localEndpoint remoteEndpoint data tail ++
        (m.extend (14 + 20 + 8 + data.length)).buf.drop
          (m.extend (14 + 20 + 8 + data.length)).dataLen } := ⟨_, rfl⟩
  have hlen : (sentFrame sock.localMac remoteMac localEndpoint remoteEndpoint data tail).length
      = 42 + data.length := by
    rw [sentFrame, List.length_append, length_sentIp htail]
    show 14 + (20 + 8 + data.length) = _
    omega
  refine ⟨f, tail, htail, ?_, ?_, ?_, ?_, ?_, ?_⟩
  · rw [hf]
    rfl
  · rw [hf]
    exact hdataLen
  · rw [hf]
    exact hpktLen
  · rw [hf]
    show (m.extend (14 + 20 + 8 + data.length)).dataLen ≤ (_ ++ _ : List UInt8).length
    rw [hdataLen, List.length_append, hlen]
    exact Nat.le_add_right _ _
  · rw [hf]
    show (_ ++ _ : List UInt8).take (m.extend (14 + 20 + 8 + data.length)).dataLen = _
    rw [hdataLen, ← hlen, List.take_left]
  · simp only [sendTo, hbound, hremote, hpool, if_true, halloc, hframe, ← hf]

/-- If there is room in the batch, it queues the frame. -/
theorem sendTo_ok (D : Dpdk σ) (sock : UdpSocket) {s s' : σ} {localEndpoint : Endpoint}
    {m : Mbuf} (data : List UInt8) (remoteEndpoint : Endpoint) (remoteMac : MacAddress)
    (hbound : sock.localEndpoint = some localEndpoint) (hremote : remoteEndpoint.isSpecified = true)
    (hpool : sock.mempool = true) (halloc : D.pktmbufAlloc s = (some m, s'))
    (hfit : 42 + data.length ≤ m.buf.length) (hbuf : m.buf.length ≤ u16Max)
    (hroom : sock.txBatch.len < 64) :
    ∃ f sock' tail, sendTo D sock s data remoteEndpoint remoteMac = some (.ok (), sock', s') ∧
      sock'.txBatch.toList = sock.txBatch.toList ++ [f] ∧ tail.length = 16 ∧
      f.data = sentFrame sock.localMac remoteMac localEndpoint remoteEndpoint data tail := by
  obtain ⟨f, tail, htail, -, -, -, -, hdata, hsend⟩ := sendTo_built D sock data remoteEndpoint
    remoteMac hbound hremote hpool halloc hfit (Nat.le_trans hfit hbuf)
  obtain ⟨txBatch, hpush, htx⟩ := ArrayVec.tryPush_of_lt f hroom
  rw [hpush] at hsend
  exact ⟨f, { sock with txBatch }, tail, hsend, htx, htail, hdata⟩

/-- What is at the back of the batch is what is received. -/
theorem recvFrom_back (D : Dpdk σ) {sock : UdpSocket} {e : Endpoint} {front : List Mbuf} {f : Mbuf}
    (s : σ) (hbound : sock.localEndpoint = some e) (hback : sock.rxBatch.toList = front ++ [f]) :
    ∃ rxBatch, recvFrom D sock s =
      match readFrom e f.data with
      | .ok remoteEndpoint => (.ok (f, remoteEndpoint), { sock with rxBatch }, s)
      | .error err => (.error err, { sock with rxBatch }, D.pktmbufFree s f) := by
  cases hpop : sock.rxBatch.pop with
  | none =>
      rw [ArrayVec.pop_eq_none.mp hpop] at hback
      exact absurd hback.symm (List.append_ne_nil_of_right_ne_nil front (List.cons_ne_nil f []))
  | some r =>
      obtain ⟨g, rxBatch⟩ := r
      have hlast := (ArrayVec.toList_of_pop hpop).symm.trans hback
      obtain ⟨-, hg⟩ := List.append_inj' hlast rfl
      cases hg
      refine ⟨rxBatch, ?_⟩
      simp only [recvFrom, hbound, hpop]

/-- **WHEN A DATAGRAM IS READABLE**: the frame that is queued, received by a socket
    bound to the remote port, is returned with the sender's endpoint, and holds the
    data, exactly if the length of the data is 9 modulo 256 and the data begins with
    the sender's address. -/
theorem datagram_readable_iff (D : Dpdk σ) (sock : UdpSocket) {s s' : σ}
    {localEndpoint : Endpoint} {m : Mbuf} (data : List UInt8) (remoteEndpoint : Endpoint)
    (remoteMac : MacAddress) (hbound : sock.localEndpoint = some localEndpoint)
    (hremote : remoteEndpoint.isSpecified = true) (hpool : sock.mempool = true)
    (halloc : D.pktmbufAlloc s = (some m, s')) (hfit : 42 + data.length ≤ m.buf.length)
    (hbuf : m.buf.length ≤ u16Max) (hroom : sock.txBatch.len < 64) :
    ∃ f sock', sendTo D sock s data remoteEndpoint remoteMac = some (.ok (), sock', s') ∧
      sock'.txBatch.toList = sock.txBatch.toList ++ [f] ∧
      ∀ (peer : UdpSocket) (e : Endpoint) (front : List Mbuf) (u : σ),
        peer.localEndpoint = some e → e.port = remoteEndpoint.port →
        peer.rxBatch.toList = front ++ [f] →
        ((∃ peer', recvFrom D peer u = (.ok (f, localEndpoint), peer', u)) ∧
            udpPayload f.data = some data ↔
          data.length % 256 = 9 ∧ data.take 4 = localEndpoint.addr.octets) := by
  obtain ⟨f, sock', tail, hsend, htx, htail, hdata⟩ :=
    sendTo_ok D sock data remoteEndpoint remoteMac hbound hremote hpool halloc hfit hbuf hroom
  have hmax : 20 + 8 + data.length ≤ u16Max := by omega
  refine ⟨f, sock', hsend, htx, ?_⟩
  rintro peer e front u hpeer hport hback
  obtain ⟨rxBatch, hrecv⟩ := recvFrom_back D u hpeer hback
  rw [hdata, readFrom_sentFrame sock.localMac remoteMac hport htail hmax] at hrecv
  rw [hdata, udpPayload_sentFrame sock.localMac remoteMac htail hmax, hrecv]
  by_cases hlen : data.length % 256 = 9
  · have haddr : (Ipv4Packet.srcAddr (sentIp localEndpoint remoteEndpoint data tail)).octets =
        data.take 4 := srcAddr_sentIp (by omega)
    rw [if_pos hlen, ← haddr, octets_inj]
    constructor
    · rintro ⟨⟨peer', h⟩, -⟩
      have hpair := Except.ok.inj (Prod.mk.inj h).1
      exact ⟨hlen, congrArg Endpoint.addr (Prod.mk.inj hpair).2⟩
    · rintro ⟨-, h⟩
      rw [h]
      exact ⟨⟨_, rfl⟩, rfl⟩
  · rw [if_neg hlen]
    refine iff_of_false ?_ (fun h => hlen h.1)
    rintro ⟨⟨peer', h⟩, -⟩
    cases h

/-- A bound socket with nothing queued. -/
def boundTo (e : Endpoint) : UdpSocket :=
  { UdpSocket.new with localEndpoint := some e, txq := true, mempool := true }

/-- The same, with a packet received. -/
def receiving (e : Endpoint) (f : Mbuf) : UdpSocket :=
  { boundTo e with rxBatch := ArrayVec.new.push f (by decide) }

theorem length_blankMbuf (inner : Nat) : (blankMbuf inner).buf.length = 2048 :=
  List.length_replicate

/-- Nine bytes that begin with the address of the sender arrive. -/
theorem own_address_readable :
    ∃ f sock', sendTo (scriptedNic [] 0) (boundTo ⟨⟨10, 0, 0, 1⟩, 7⟩) ()
        [10, 0, 0, 1, 5, 6, 7, 8, 9] ⟨⟨10, 0, 0, 2⟩, 9⟩ ⟨2, 2, 2, 2, 2, 2⟩
        = some (.ok (), sock', ()) ∧
      (∃ peer', recvFrom (scriptedNic [] 0) (receiving ⟨⟨10, 0, 0, 2⟩, 9⟩ f) ()
        = (.ok (f, ⟨⟨10, 0, 0, 1⟩, 7⟩), peer', ())) ∧
      udpPayload f.data = some [10, 0, 0, 1, 5, 6, 7, 8, 9] := by
  obtain ⟨f, sock', hsend, -, hiff⟩ := datagram_readable_iff (scriptedNic [] 0)
    (boundTo ⟨⟨10, 0, 0, 1⟩, 7⟩) [10, 0, 0, 1, 5, 6, 7, 8, 9] ⟨⟨10, 0, 0, 2⟩, 9⟩
    ⟨2, 2, 2, 2, 2, 2⟩ rfl rfl rfl rfl (by rw [length_blankMbuf]; decide)
    (by rw [length_blankMbuf]; decide) (by decide)
  refine ⟨f, sock', hsend, ?_⟩
  exact (hiff (receiving ⟨⟨10, 0, 0, 2⟩, 9⟩ f) ⟨⟨10, 0, 0, 2⟩, 9⟩ [] () rfl rfl rfl).mpr ⟨rfl, rfl⟩

/-- Five bytes do not: the frame says protocol 13, and is refused. -/
theorem five_bytes_refused :
    ∃ f sock', sendTo (scriptedNic [] 0) (boundTo ⟨⟨10, 0, 0, 1⟩, 7⟩) () [1, 2, 3, 4, 5]
        ⟨⟨10, 0, 0, 2⟩, 9⟩ ⟨2, 2, 2, 2, 2, 2⟩ = some (.ok (), sock', ()) ∧
      sock'.txBatch.toList = [f] ∧
      (recvFrom (scriptedNic [] 0) (receiving ⟨⟨10, 0, 0, 2⟩, 9⟩ f) ()).1 = .error .queueError := by
  obtain ⟨f, sock', tail, hsend, htx, htail, hdata⟩ := sendTo_ok (scriptedNic [] 0)
    (boundTo ⟨⟨10, 0, 0, 1⟩, 7⟩) [1, 2, 3, 4, 5] ⟨⟨10, 0, 0, 2⟩, 9⟩ ⟨2, 2, 2, 2, 2, 2⟩ rfl rfl rfl
    rfl (by rw [length_blankMbuf]; decide) (by rw [length_blankMbuf]; decide) (by decide)
  refine ⟨f, sock', hsend, htx, ?_⟩
  obtain ⟨rxBatch, hrecv⟩ := recvFrom_back (scriptedNic [] 0) ()
    (show (receiving ⟨⟨10, 0, 0, 2⟩, 9⟩ f).localEndpoint = some ⟨⟨10, 0, 0, 2⟩, 9⟩ from rfl)
    (show (receiving ⟨⟨10, 0, 0, 2⟩, 9⟩ f).rxBatch.toList = [] ++ [f] from rfl)
  rw [hdata, readFrom_sentFrame _ _ rfl htail (by decide), if_neg (by decide)] at hrecv
  rw [hrecv]

end UdpSocket

end MbufUdp

end DpdkNet
