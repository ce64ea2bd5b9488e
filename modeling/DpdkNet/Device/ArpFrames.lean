import DpdkNet.Lib.Wire
import DpdkNet.Device.ArpCache

/-! # ARP replies on the wire

    What makes a frame an ARP reply for IPv4 over Ethernet, field by field, and
    which of the fields `parse_arp_reply` looks at.  It takes the sender's
    addresses from the offsets they have with a hardware length of 6 and a
    protocol length of 4, and checks neither these nor the two types. -/

namespace DpdkNet

open Wire

/-- A reply, as far as `parse_arp_reply` checks: long enough, EtherType ARP,
    operation reply. -/
def LooksLikeArpReply (p : Frame) : Prop :=
  42 ≤ p.length ∧ wordAt p 12 = 0x0806 ∧ wordAt p 20 = 2

instance (p : Frame) : Decidable (LooksLikeArpReply p) := by
  unfold LooksLikeArpReply
  infer_instance

/-- The addresses are Ethernet and IPv4: hardware and protocol type, and the
    lengths of both. -/
def EthernetIpv4 (p : Frame) : Prop :=
  wordAt p 14 = 1 ∧ wordAt p 16 = 0x0800 ∧ byteAt p 18 = 6 ∧ byteAt p 19 = 4

instance (p : Frame) : Decidable (EthernetIpv4 p) := by
  unfold EthernetIpv4
  infer_instance

def senderMac (p : Frame) : MacAddress :=
  ⟨byteAt p 22, byteAt p 23, byteAt p 24, byteAt p 25, byteAt p 26, byteAt p 27⟩

def senderIp (p : Frame) : Ipv4Addr :=
  ⟨byteAt p 28, byteAt p 29, byteAt p 30, byteAt p 31⟩

/-- **THE PARSER**: it accepts what looks like a reply, and takes the sender
    fields. -/
theorem parseArpReply_eq (p : Frame) :
    parseArpReply p = if LooksLikeArpReply p then some (senderIp p, senderMac p) else none := by
  have htype : wordAt p 12 = 0x0806 ↔ byteAt p 12 = 0x08 ∧ byteAt p 13 = 0x06 :=
    word_inj (c := 0x08) (d := 0x06)
  have hop : wordAt p 20 = 2 ↔ byteAt p 20 = 0x00 ∧ byteAt p 21 = 0x02 :=
    word_inj (c := 0x00) (d := 0x02)
  show (if p.length < 42 then none
    else if byteAt p 12 ≠ 0x08 ∨ byteAt p 13 ≠ 0x06 then none
    else if byteAt p 20 ≠ 0x00 ∨ byteAt p 21 ≠ 0x02 then none
    else some (senderIp p, senderMac p)) = _
  by_cases hlen : p.length < 42
  · have hno : ¬ LooksLikeArpReply p := fun h => absurd h.1 (Nat.not_le.mpr hlen)
    rw [if_pos hlen, if_neg hno]
  · by_cases h1 : byteAt p 12 = 0x08 ∧ byteAt p 13 = 0x06
    · have h1' : ¬ (byteAt p 12 ≠ 0x08 ∨ byteAt p 13 ≠ 0x06) := by
        rw [not_or, not_not, not_not]
        exact h1
      by_cases h2 : byteAt p 20 = 0x00 ∧ byteAt p 21 = 0x02
      · have h2' : ¬ (byteAt p 20 ≠ 0x00 ∨ byteAt p 21 ≠ 0x02) := by
          rw [not_or, not_not, not_not]
          exact h2
        have hyes : LooksLikeArpReply p := ⟨Nat.not_lt.mp hlen, htype.mpr h1, hop.mpr h2⟩
        rw [if_neg hlen, if_neg h1', if_neg h2', if_pos hyes]
      · have h2' : byteAt p 20 ≠ 0x00 ∨ byteAt p 21 ≠ 0x02 := not_and_or.mp h2
        have hno : ¬ LooksLikeArpReply p := fun h => h2 (hop.mp h.2.2)
        rw [if_neg hlen, if_neg h1', if_pos h2', if_neg hno]
    · have h1' : byteAt p 12 ≠ 0x08 ∨ byteAt p 13 ≠ 0x06 := not_and_or.mp h1
      have hno : ¬ LooksLikeArpReply p := fun h => h1 (htype.mp h.2.1)
      rw [if_neg hlen, if_pos h1', if_neg hno]

/-- The frame is parsed as an Ethernet/IPv4 ARP reply exactly if it is one. -/
def Recognised (p : Frame) : Prop :=
  ∀ ip mac, parseArpReply p = some (ip, mac) ↔
    LooksLikeArpReply p ∧ EthernetIpv4 p ∧ ip = senderIp p ∧ mac = senderMac p

theorem recognised_iff (p : Frame) : Recognised p ↔ (LooksLikeArpReply p → EthernetIpv4 p) := by
  rw [Recognised, parseArpReply_eq]
  constructor
  · intro h hlooks
    rw [if_pos hlooks] at h
    exact ((h _ _).mp rfl).2.1
  · intro h ip mac
    by_cases hlooks : LooksLikeArpReply p
    · rw [if_pos hlooks, Option.some_inj, Prod.mk.injEq]
      constructor
      · rintro ⟨rfl, rfl⟩
        exact ⟨hlooks, h hlooks, rfl, rfl⟩
      · rintro ⟨-, -, rfl, rfl⟩
        exact ⟨rfl, rfl⟩
    · rw [if_neg hlooks]
      exact iff_of_false nofun (fun h' => hlooks h'.1)

/-- An injected frame says its pair, whatever is padded to it. -/
theorem parseArpReply_padded (ourMac : MacAddress) (ourIp : Ipv4Addr) (mac : MacAddress)
    (ip : Ipv4Addr) (padding : Frame) :
    parseArpReply (buildArpReplyForInjection ourMac ourIp mac ip ++ padding) = some (ip, mac) := by
  have hlen : ¬ (buildArpReplyForInjection ourMac ourIp mac ip ++ padding).length < 42 := by
    rw [List.length_append, length_buildArpReplyForInjection]
    omega
  rw [parseArpReply, if_neg hlen]
  simp [buildArpReplyForInjection, MacAddress.bytes, Ipv4Addr.octets]

/-- **WHICH FRAMES ARE RECOGNISED**: all but those that look like a reply and are
    not for Ethernet and IPv4; the frames we build always are. -/
theorem arp_replies_recognised_iff (p : Frame) (ourMac : MacAddress) (ourIp : Ipv4Addr)
    (mac : MacAddress) (ip : Ipv4Addr) (padding : Frame) :
    (Recognised p ↔ (LooksLikeArpReply p → EthernetIpv4 p)) ∧
      parseArpReply (buildArpReplyForInjection ourMac ourIp mac ip ++ padding) = some (ip, mac) :=
  ⟨recognised_iff p, parseArpReply_padded ourMac ourIp mac ip padding⟩

/-- A reply for protocol addresses of 16 bytes. -/
def longAddresses : Frame :=
  (buildArpReplyForInjection ⟨1, 1, 1, 1, 1, 1⟩ ⟨10, 0, 0, 1⟩ ⟨2, 2, 2, 2, 2, 2⟩ ⟨10, 0, 0, 2⟩).set 19 16

/-- It is accepted, its first four bytes taken for an IPv4 address. -/
theorem long_addresses_accepted :
    parseArpReply longAddresses = some (⟨10, 0, 0, 2⟩, ⟨2, 2, 2, 2, 2, 2⟩) ∧
      ¬ Recognised longAddresses := by
  refine ⟨by decide, ?_⟩
  intro h
  have hno : ¬ EthernetIpv4 longAddresses := by decide
  exact hno ((h ⟨10, 0, 0, 2⟩ ⟨2, 2, 2, 2, 2, 2⟩).mp (by decide)).2.1

end DpdkNet
