import DpdkNet.Lib.Fields
import DpdkNet.Device.ArpCache

/-! # Addresses from the operating system

    Where the addresses of a server come from: `get_default_gateway` of
    `manual/tcp.rs` reads the routing table of the kernel, and `get_neighbor_mac`
    of `lib.rs` what `ip neigh` prints.  Both look for the first line that has
    what they need and parse a number of fixed width out of it.

    The kernel writes an address as the number that its four bytes are in memory,
    so that on a little-endian machine the last byte comes first. -/

namespace DpdkNet

open RustStr

/-! ## The default gateway -/

/-- The number of an address in memory. -/
def leNat (ip : Ipv4Addr) : Nat :=
  ip.a.toNat + ip.b.toNat * 256 + ip.c.toNat * 65536 + ip.d.toNat * 16777216

/-- A number as the kernel prints it. -/
def printed (n : Nat) : List Char := hexFixed true 8 n

/-- A route, with the name of its interface and what the kernel prints behind the
    gateway. -/
structure Route where
  iface : List Char
  destination : Ipv4Addr
  gateway : Ipv4Addr
  more : List Char
  iface_ne : iface ≠ []
  iface_word : ∀ c ∈ iface, isWhitespace c = false

/-- A line of the table. -/
def Route.line (r : Route) : List Char :=
  r.iface ++ '\t' :: (printed (leNat r.destination) ++ '\t' :: (printed (leNat r.gateway)
    ++ '\t' :: r.more))

theorem printed_ne_nil (n : Nat) : printed n ≠ [] := (isDigits_hexFixed true (Nat.zero_lt_succ 7) n).1

theorem Route.fields (r : Route) :
    splitWhitespace r.line = r.iface :: printed (leNat r.destination) :: printed (leNat r.gateway)
      :: splitWhitespace r.more := by
  have htab : isWhitespace '\t' = true := rfl
  rw [line, splitWhitespace_word r.iface_ne r.iface_word htab,
    splitWhitespace_word (printed_ne_nil _) hexFixed_not_whitespace htab,
    splitWhitespace_word (printed_ne_nil _) hexFixed_not_whitespace htab]

/-- `u8::from_str_radix` -/
def u8FromStrRadix (radix : Nat) (s : List Char) : Option UInt8 :=
  ((fromStrRadix radix s).filter (· < 2 ^ 8)).map UInt8.ofNat

/-- Parse a MAC address string like "12:34:56:78:9a:bc" into bytes. -/
def parseMacAddress (macStr : List Char) : Option MacAddress :=
  match macStr.splitOn ':' with
  | [p0, p1, p2, p3, p4, p5] => do
      return ⟨← u8FromStrRadix 16 p0, ← u8FromStrRadix 16 p1, ← u8FromStrRadix 16 p2,
        ← u8FromStrRadix 16 p3, ← u8FromStrRadix 16 p4, ← u8FromStrRadix 16 p5⟩
  | _ => none

/-- Format a MAC address as a string. -/
def formatMacAddr (addr : MacAddress) : List Char :=
  [':'].intercalate (addr.bytes.map fun b => hexFixed false 2 b.toNat)

/-- The loop over the lines. -/
def neighborMacIn : List (List Char) → Option MacAddress
  | [] => none
  | line :: rest =>
      match find line "lladdr ".toList with
      | some lladdrPos => parseMacAddress ((line.drop (lladdrPos + 7)).take 17)
      | none => neighborMacIn rest

/-- The MAC address of a neighbor, from what `ip neigh show` did: whether it
    could be run, whether it succeeded, and what it wrote. -/
def getNeighborMac (output : Option (Bool × List UInt8)) : Option MacAddress :=
  match output with
  | none => none
  | some (false, _) => none
  | some (true, stdout) => neighborMacIn (lines (fromUtf8Lossy stdout))

theorem u8FromStrRadix_hexFixed (b : UInt8) : u8FromStrRadix 16 (hexFixed false 2 b.toNat) = some b := by
  have hlt : b.toNat < 2 ^ 8 := b.toNat_lt
  have hparse : fromStrRadix 16 (hexFixed false 2 b.toNat) = some b.toNat :=
    fromStrRadix_hexFixed false (Nat.zero_lt_succ _) hlt (Nat.le_trans (Nat.le_of_lt hlt) (by decide))
  rw [u8FromStrRadix, hparse, Option.filter_some, if_pos (decide_eq_true hlt), Option.map_some,
    UInt8.ofNat_toNat]

/-- **MAC ADDRESSES COME BACK** -/
theorem parseMacAddress_formatMacAddr (mac : MacAddress) :
    parseMacAddress (formatMacAddr mac) = some mac := by
  have hsplit : (formatMacAddr mac).splitOn ':' = mac.bytes.map fun b => hexFixed false 2 b.toNat := by
    refine List.splitOn_intercalate ':' ?_ (List.cons_ne_nil _ _)
    intro l hl
    obtain ⟨b, -, rfl⟩ := List.mem_map.mp hl
    exact colon_not_mem_hexFixed
  rw [parseMacAddress, hsplit]
  simp only [MacAddress.bytes, List.map_cons, List.map_nil, u8FromStrRadix_hexFixed]
  rfl

theorem length_formatMacAddr (mac : MacAddress) : (formatMacAddr mac).length = 17 := by
  simp only [formatMacAddr, MacAddress.bytes, List.map_cons, List.map_nil, List.intercalate,
    List.intersperse, List.flatten_cons, List.flatten_nil, List.length_append, length_hexFixed,
    List.length_cons, List.length_nil]

/-- A neighbor as `ip neigh` writes it: some words, the MAC address if there is
    one, and more text behind it. -/
structure Neighbor where
  words : List (List Char)
  mac : Option MacAddress
  more : List Char
  words_plain : ∀ w ∈ words, ∀ c ∈ w, PlainChar c
  words_split : ∀ w ∈ words, ' ' ∉ w
  -- the name of an interface may end like this
  words_end : ∀ w ∈ words, ¬ "lladdr".toList <:+ w
  more_plain : ∀ c ∈ more, PlainChar c
  more_word : mac = none → ' ' ∉ more

def Neighbor.tail (n : Neighbor) : List Char :=
  match n.mac with
  | none => n.more
  | some mac => "lladdr ".toList ++ (formatMacAddr mac ++ n.more)

def Neighbor.line (n : Neighbor) : List Char := n.words.flatMap (· ++ [' ']) ++ n.tail

/-- What `ip neigh` writes. -/
def neighborOutput (table : List Neighbor) : List UInt8 :=
  (table.flatMap fun n => n.line ++ ['\n']).map Char.toUInt8

theorem Neighbor.behind_line (n : Neighbor) :
    behind n.line "lladdr ".toList = n.mac.map fun mac => formatMacAddr mac ++ n.more := by
  have hskip : ∀ ws : List (List Char), (∀ w ∈ ws, ' ' ∉ w) → (∀ w ∈ ws, ¬ "lladdr".toList <:+ w) →
      behind (ws.flatMap (· ++ [' ']) ++ n.tail) "lladdr ".toList = behind n.tail "lladdr ".toList := by
    intro ws
    induction ws with
    | nil => intro _ _; rfl
    | cons w ws ih =>
        intro hsplit hend
        rw [List.forall_mem_cons] at hsplit hend
        have hword := @behind_word ' ' "lladdr".toList w (by decide) hsplit.1 hend.1
          (ws.flatMap (· ++ [' ']) ++ n.tail)
        rw [List.flatMap_cons, List.append_assoc, List.append_assoc]
        exact hword.trans (ih hsplit.2 hend.2)
  rw [line, hskip n.words n.words_split n.words_end, tail]
  cases hmac : n.mac with
  | none => exact behind_eq_none (p := "lladdr".toList) (n.more_word hmac)
  | some mac => exact behind_append (List.cons_ne_nil _ _) _

theorem neighborMacIn_cons (line : List Char) (rest : List (List Char)) :
    neighborMacIn (line :: rest)
      = match behind line "lladdr ".toList with
        | some text => parseMacAddress (text.take 17)
        | none => neighborMacIn rest := by
  rw [neighborMacIn, behind]
  cases find line "lladdr ".toList with
  | none => rfl
  | some pos => rfl

theorem neighborMacIn_map_line (table : List Neighbor) :
    neighborMacIn (table.map Neighbor.line) = table.findSome? Neighbor.mac := by
  induction table with
  | nil => rfl
  | cons n table ih =>
      rw [List.map_cons, neighborMacIn_cons, n.behind_line, List.findSome?_cons]
      cases n.mac with
      | none => exact ih
      | some mac =>
          show parseMacAddress ((formatMacAddr mac ++ n.more).take 17) = some mac
          rw [List.take_left' (length_formatMacAddr mac), parseMacAddress_formatMacAddr]

theorem plainChar_hexFixed {upper : Bool} {width n : Nat} :
    ∀ c ∈ hexFixed upper width n, PlainChar c := by
  have hall : ∀ (upper : Bool) (d : Fin 16), PlainChar (hexChar upper d) := by decide
  intro c hc
  obtain ⟨d, hd, rfl⟩ := mem_hexFixed hc
  exact hall upper ⟨d, hd⟩

theorem plainChar_formatMacAddr (mac : MacAddress) : ∀ c ∈ formatMacAddr mac, PlainChar c := by
  have hcolon : PlainChar ':' := by decide
  refine forall_mem_intercalate hcolon ?_
  intro l hl
  obtain ⟨b, -, rfl⟩ := List.mem_map.mp hl
  exact plainChar_hexFixed

theorem Neighbor.plainChar_line (n : Neighbor) : ∀ c ∈ n.line, PlainChar c := by
  have hspace : PlainChar ' ' := by decide
  have hkey : ∀ c ∈ "lladdr ".toList, PlainChar c := List.all_iff_forall_prop.mp rfl
  intro c hc
  rw [line, List.mem_append, List.mem_flatMap] at hc
  rcases hc with ⟨w, hw, hc⟩ | hc
  · rcases List.mem_append.mp hc with hc | hc
    · exact n.words_plain w hw c hc
    · rw [List.mem_singleton.mp hc]
      exact hspace
  · rw [tail] at hc
    cases hmac : n.mac with
    | none =>
        rw [hmac] at hc
        exact n.more_plain c hc
    | some mac =>
        rw [hmac] at hc
        rcases List.mem_append.mp hc with hc | hc
        · exact hkey c hc
        · rcases List.mem_append.mp hc with hc | hc
          · exact plainChar_formatMacAddr mac c hc
          · exact n.more_plain c hc

/-- **THE NEIGHBOR**: what is returned is the first MAC address of the table,
    whatever the neighbors before it and behind it are. -/
theorem neighbor_mac_of_table (table : List Neighbor) :
    getNeighborMac (some (true, neighborOutput table)) = table.findSome? Neighbor.mac := by
  have hascii : ∀ c ∈ table.flatMap fun n => n.line ++ ['\n'], c.toNat < 128 := by
    intro c hc
    obtain ⟨n, -, hc⟩ := List.mem_flatMap.mp hc
    rcases List.mem_append.mp hc with hc | hc
    · exact (n.plainChar_line c hc).lt
    · rw [List.mem_singleton.mp hc]
      decide
  have hlines : ∀ l ∈ table.map Neighbor.line, '\n' ∉ l ∧ '\r' ∉ l := by
    have hnot : ¬ PlainChar '\n' ∧ ¬ PlainChar '\r' := by decide
    intro l hl
    obtain ⟨n, -, rfl⟩ := List.mem_map.mp hl
    exact ⟨fun h => hnot.1 (n.plainChar_line _ h), fun h => hnot.2 (n.plainChar_line _ h)⟩
  show neighborMacIn (lines (fromUtf8Lossy (neighborOutput table))) = _
  rw [neighborOutput, fromUtf8Lossy_toUInt8 hascii, ← List.flatMap_map Neighbor.line (· ++ ['\n']),
    lines_flatMap hlines, neighborMacIn_map_line]

-- an interface with such a name hides the address behind it
example : neighborMacIn ["10.0.0.1 dev lladdr lladdr 0a:00:00:00:00:02 STALE".toList] = none := by
  decide

end DpdkNet
