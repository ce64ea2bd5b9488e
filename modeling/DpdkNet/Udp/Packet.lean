import DpdkNet.Lib.Wire
import DpdkNet.Device.ArpCache

/-! # Views of a UDP packet

    The accessors of smoltcp's `wire` module that the mbuf `UdpSocket` uses, by
    their documented layouts.  A view is the bytes it is over: an Ethernet
    frame, the IPv4 packet that is its payload, the UDP packet that is the
    payload of that.  A setter that indexes beyond the view panics (`none`).

    Where a payload begins and ends is read from the header it follows:
    `header_len` from the low half of the first byte, in units of four octets,
    `total_len` and the UDP length from their fields. -/

namespace DpdkNet

open Wire

namespace EthernetFrame

def setDstAddr (mac : MacAddress) (p : List UInt8) : Option (List UInt8) := writeAt p 0 mac.bytes

def setSrcAddr (mac : MacAddress) (p : List UInt8) : Option (List UInt8) := writeAt p 6 mac.bytes

def setEthertype (value : UInt16) (p : List UInt8) : Option (List UInt8) :=
  writeAt p 12 (beBytes value)

def ethertype (p : List UInt8) : UInt16 := u16At p 12

/-- `EthernetProtocol::Ipv4` -/
def ipv4 : UInt16 := 0x0800

/-- `new_checked` succeeds. -/
def Checked (p : List UInt8) : Prop := 14 ≤ p.length

instance (p : List UInt8) : Decidable (Checked p) := inferInstanceAs (Decidable (14 ≤ p.length))

def payload (p : List UInt8) : List UInt8 := p.drop 14

def payloadMut (f : List UInt8 → Option (List UInt8)) (p : List UInt8) : Option (List UInt8) :=
  overSlice p 14 p.length f

end EthernetFrame

namespace Ipv4Packet

def headerLen (p : List UInt8) : Nat := (byteAt p 0 &&& 0x0f).toNat * 4

def totalLen (p : List UInt8) : Nat := wordAt p 2

def nextHeader (p : List UInt8) : UInt8 := byteAt p 9

/-- `IpProtocol::Udp` -/
def udp : UInt8 := 0x11

def srcAddr (p : List UInt8) : Ipv4Addr := ⟨byteAt p 12, byteAt p 13, byteAt p 14, byteAt p 15⟩

/-- `new_checked` succeeds: the header, and what the header says, is there. -/
def Checked (p : List UInt8) : Prop :=
  20 ≤ p.length ∧ headerLen p ≤ p.length ∧ headerLen p ≤ totalLen p ∧ totalLen p ≤ p.length

instance (p : List UInt8) : Decidable (Checked p) := by
  unfold Checked
  infer_instance

def setVersion (value : UInt8) (p : List UInt8) : Option (List UInt8) :=
  writeAt p 0 [(byteAt p 0 &&& ~~~(0xf0 : UInt8)) ||| (value <<< 4)]

/-- The length is given in octets. -/
def setHeaderLen (value : UInt8) (p : List UInt8) : Option (List UInt8) :=
  writeAt p 0 [(byteAt p 0 &&& ~~~(0x0f : UInt8)) ||| ((value / 4) &&& 0x0f)]

def setDscp (value : UInt8) (p : List UInt8) : Option (List UInt8) :=
  writeAt p 1 [(byteAt p 1 &&& ~~~(0xfc : UInt8)) ||| (value <<< 2)]

def setEcn (value : UInt8) (p : List UInt8) : Option (List UInt8) :=
  writeAt p 1 [(byteAt p 1 &&& ~~~(0x03 : UInt8)) ||| (value &&& 0x03)]

def setTotalLen (value : UInt16) (p : List UInt8) : Option (List UInt8) :=
  writeAt p 2 (beBytes value)

def setIdent (value : UInt16) (p : List UInt8) : Option (List UInt8) := writeAt p 4 (beBytes value)

def clearFlags (p : List UInt8) : Option (List UInt8) :=
  writeAt p 6 (beBytes (u16At p 6 &&& ~~~(0xe000 : UInt16)))

def setFragOffset (value : UInt16) (p : List UInt8) : Option (List UInt8) :=
  writeAt p 6 (beBytes ((u16At p 6 &&& (0xe000 : UInt16)) ||| (value >>> 3)))

def setHopLimit (value : UInt8) (p : List UInt8) : Option (List UInt8) := writeAt p 8 [value]

def setNextHeader (value : UInt8) (p : List UInt8) : Option (List UInt8) := writeAt p 9 [value]

def setChecksum (value : UInt16) (p : List UInt8) : Option (List UInt8) :=
  writeAt p 10 (beBytes value)

def setSrcAddr (ip : Ipv4Addr) (p : List UInt8) : Option (List UInt8) := writeAt p 12 ip.octets

def setDstAddr (ip : Ipv4Addr) (p : List UInt8) : Option (List UInt8) := writeAt p 16 ip.octets

/-- The sum of the 16-bit words, the last one padded. -/
def sumWords : List UInt8 → Nat
  | [] => 0
  | [a] => word a 0
  | a :: b :: rest => word a b + sumWords rest

/-- `checksum::data`: the one's complement sum. -/
def checksumData (bs : List UInt8) : UInt16 :=
  let sum := sumWords bs / 2 ^ 16 + sumWords bs % 2 ^ 16
  UInt16.ofNat (sum / 2 ^ 16 + sum % 2 ^ 16)

/-- The checksum of `header_len` bytes. -/
def fillChecksum (p : List UInt8) : Option (List UInt8) :=
  (setChecksum 0 p).bind fun p =>
    (slice p 0 (headerLen p)).bind fun header => setChecksum (~~~ checksumData header) p

def payload (p : List UInt8) : Option (List UInt8) := slice p (headerLen p) (totalLen p)

def payloadMut (f : List UInt8 → Option (List UInt8)) (p : List UInt8) : Option (List UInt8) :=
  overSlice p (headerLen p) (totalLen p) f

end Ipv4Packet

namespace UdpPacket

def srcPort (p : List UInt8) : UInt16 := u16At p 0

def dstPort (p : List UInt8) : UInt16 := u16At p 2

def len (p : List UInt8) : Nat := wordAt p 4

/-- `new_checked` succeeds. -/
def Checked (p : List UInt8) : Prop := 8 ≤ p.length ∧ len p ≤ p.length ∧ 8 ≤ len p

instance (p : List UInt8) : Decidable (Checked p) := by
  unfold Checked
  infer_instance

def setSrcPort (value : UInt16) (p : List UInt8) : Option (List UInt8) := writeAt p 0 (beBytes value)

def setDstPort (value : UInt16) (p : List UInt8) : Option (List UInt8) := writeAt p 2 (beBytes value)

def setLen (value : UInt16) (p : List UInt8) : Option (List UInt8) := writeAt p 4 (beBytes value)

def setChecksum (value : UInt16) (p : List UInt8) : Option (List UInt8) :=
  writeAt p 6 (beBytes value)

def payload (p : List UInt8) : Option (List UInt8) := slice p 8 (len p)

def payloadMut (f : List UInt8 → Option (List UInt8)) (p : List UInt8) : Option (List UInt8) :=
  overSlice p 8 (len p) f

end UdpPacket

end DpdkNet
