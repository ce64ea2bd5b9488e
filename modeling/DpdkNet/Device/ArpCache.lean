import DpdkNet.Device.Mbuf

/-! # The shared ARP cache

    `device/arp_cache.rs`: the map queue 0 writes and every other queue reads,
    its version counter, and the two frame functions at its ends.  The map is an
    association list with distinct keys; the order of its entries is the order
    in which an iteration over the `HashMap` meets them.  The hasher promises
    nothing about that order, so it is a parameter (`Hasher`): any permutation,
    chosen anew at every insertion.

    The version counter is a `usize` on a 64-bit target and wraps. -/

namespace DpdkNet

/-- An IPv4 address, by its octets. -/
structure Ipv4Addr where
  a : UInt8
  b : UInt8
  c : UInt8
  d : UInt8
  deriving DecidableEq, Repr

/-- A MAC address (6 bytes). -/
structure MacAddress where
  b0 : UInt8
  b1 : UInt8
  b2 : UInt8
  b3 : UInt8
  b4 : UInt8
  b5 : UInt8
  deriving DecidableEq, Repr

def Ipv4Addr.octets (ip : Ipv4Addr) : List UInt8 := [ip.a, ip.b, ip.c, ip.d]

def MacAddress.bytes (mac : MacAddress) : List UInt8 :=
  [mac.b0, mac.b1, mac.b2, mac.b3, mac.b4, mac.b5]

/-- The `HashMap<Ipv4Addr, MacAddress>`, entries in iteration order. -/
abbrev ArpMap := AList (fun _ : Ipv4Addr => MacAddress)

/-- Where the hash table puts its entries: some permutation of them. -/
structure Hasher where
  layout : ArpMap → ArpMap
  perm : ∀ m, (layout m).entries.Perm m.entries

/-- The hasher that keeps the order of insertion. -/
def Hasher.id : Hasher := ⟨fun m => m, fun _ => List.Perm.refl _⟩

/-- The cache: the current map and the number of inserts, modulo `2^64`. -/
structure SharedArpCache where
  inner : ArpMap
  version : UInt64

namespace SharedArpCache

/-- A new empty shared ARP cache. -/
def new : SharedArpCache := ⟨∅, 0⟩

/-- Look up a MAC address for an IP. -/
def get (c : SharedArpCache) (ip : Ipv4Addr) : Option MacAddress := c.inner.lookup ip

/-- Insert or update a MAC address for an IP.  An unchanged MAC only bumps the
    version, so that consumers re-inject it. -/
def insert (H : Hasher) (c : SharedArpCache) (ip : Ipv4Addr) (mac : MacAddress) :
    SharedArpCache :=
  if c.inner.lookup ip = some mac then { c with version := c.version + 1 }
  else { inner := H.layout (c.inner.insert ip mac), version := c.version + 1 }

@[simp] theorem version_insert (H : Hasher) (c : SharedArpCache) (ip : Ipv4Addr)
    (mac : MacAddress) : (c.insert H ip mac).version = c.version + 1 := by
  unfold insert
  split <;> rfl

end SharedArpCache

/-- Check if a packet is an ARP reply and extract the sender's IP and MAC. -/
def parseArpReply (packet : Frame) : Option (Ipv4Addr × MacAddress) :=
  let at' := fun i => packet.getD i 0
  if packet.length < 42 then none
  else if at' 12 ≠ 0x08 ∨ at' 13 ≠ 0x06 then none
  else if at' 20 ≠ 0x00 ∨ at' 21 ≠ 0x02 then none
  else some
    (⟨at' 28, at' 29, at' 30, at' 31⟩,
      ⟨at' 22, at' 23, at' 24, at' 25, at' 26, at' 27⟩)

/-- Build an ARP reply packet for injection into smoltcp: an Ethernet header
    and an ARP header, field by field in the order of their offsets. -/
def buildArpReplyForInjection (ourMac : MacAddress) (ourIp : Ipv4Addr)
    (peerMac : MacAddress) (peerIp : Ipv4Addr) : Frame :=
  -- Ethernet header: destination, source, EtherType
  ourMac.bytes ++ peerMac.bytes ++ [0x08, 0x06]
  -- hardware type, protocol type, address lengths, operation
  ++ [0x00, 0x01] ++ [0x08, 0x00] ++ [6] ++ [4] ++ [0x00, 0x02]
  -- sender (peer), then target (us)
  ++ peerMac.bytes ++ peerIp.octets
  ++ ourMac.bytes ++ ourIp.octets

@[simp] theorem length_buildArpReplyForInjection (ourMac : MacAddress) (ourIp : Ipv4Addr)
    (peerMac : MacAddress) (peerIp : Ipv4Addr) :
    (buildArpReplyForInjection ourMac ourIp peerMac peerIp).length = 42 := rfl

/-- An injected frame says exactly the pair it was built for. -/
theorem parseArpReply_build (ourMac : MacAddress) (ourIp : Ipv4Addr)
    (peerMac : MacAddress) (peerIp : Ipv4Addr) :
    parseArpReply (buildArpReplyForInjection ourMac ourIp peerMac peerIp)
      = some (peerIp, peerMac) := by
  simp [parseArpReply, buildArpReplyForInjection, MacAddress.bytes, Ipv4Addr.octets]

end DpdkNet
