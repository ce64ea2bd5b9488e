import DpdkNet.Lib.RustStr

/-! # ASCII text on the wire

    What the functions of `RustStr` do on the text that protocols send: bytes
    below 128, numbers in decimal digits, and lines that end with CRLF and hold
    no control character but the tab. -/

namespace RustStr

/-- What is before the first separator, and what is behind it. -/
theorem append_sep_inj {α : Type} {a : α} {u v s t : List α} (hu : a ∉ u) (hv : a ∉ v)
    (h : u ++ a :: s = v ++ a :: t) : u = v ∧ s = t := by
  induction u generalizing v with
  | nil =>
      cases v with
      | nil => exact ⟨rfl, (List.cons.inj h).2⟩
      | cons b v => exact absurd (List.mem_cons.mpr (Or.inl (List.cons.inj h).1)) hv
  | cons c u ih =>
      cases v with
      | nil => exact absurd (List.mem_cons.mpr (Or.inl (List.cons.inj h).1.symm)) hu
      | cons b v =>
          obtain ⟨rfl, htail⟩ := List.cons.inj h
          rw [List.mem_cons, not_or] at hu hv
          obtain ⟨rfl, rfl⟩ := ih hu.2 hv.2 htail
          exact ⟨rfl, rfl⟩

/-! ## ASCII -/

/-- The character of an ASCII byte. -/
def asciiChar (b : UInt8) : Char := Char.ofNat b.toNat

theorem toNat_asciiChar (b : UInt8) : (asciiChar b).toNat = b.toNat := by
  have h : b.toNat.isValidChar := Or.inl (Nat.lt_trans b.toNat_lt (by decide))
  rw [asciiChar, Char.ofNat, dif_pos h]
  rfl

theorem asciiChar_inj {a b : UInt8} (h : asciiChar a = asciiChar b) : a = b := by
  have := congrArg Char.toNat h
  rw [toNat_asciiChar, toNat_asciiChar] at this
  exact UInt8.toNat_inj.mp this

theorem utf8EncodeChar_asciiChar {b : UInt8} (h : b < 128) :
    String.utf8EncodeChar (asciiChar b) = [b] := by
  have hb : b.toNat < 128 := h
  have hsize : (asciiChar b).utf8Size = 1 := by
    rw [Char.utf8Size_eq_one_iff, UInt32.le_iff_toNat_le]
    have := toNat_asciiChar b
    show (asciiChar b).toNat ≤ 127
    omega
  rw [String.utf8EncodeChar_eq_singleton hsize]
  congr 1
  apply UInt8.toNat_inj.mp
  show (asciiChar b).toNat % 256 = b.toNat
  rw [toNat_asciiChar]
  omega

theorem utf8Encode_ascii {l : List UInt8} (h : ∀ b ∈ l, b < 128) :
    (l.map asciiChar).utf8Encode = l.toByteArray := by
  rw [List.utf8Encode, List.flatMap_map]
  congr 1
  induction l with
  | nil => rfl
  | cons b l ih =>
      rw [List.flatMap_cons, utf8EncodeChar_asciiChar (h b List.mem_cons_self),
        ih fun c hc => h c (List.mem_cons_of_mem _ hc)]
      rfl

/-- ASCII bytes decode to their characters. -/
theorem fromUtf8_ascii {l : List UInt8} (h : ∀ b ∈ l, b < 128) :
    fromUtf8 l = some (l.map asciiChar) := by
  have hv : l.toByteArray.IsValidUTF8 := ⟨l.map asciiChar, (utf8Encode_ascii h).symm⟩
  rw [fromUtf8, String.fromUTF8?, dif_pos hv, Option.map_some]
  congr 1
  have : String.fromUTF8 l.toByteArray hv = String.ofList (l.map asciiChar) := by
    rw [← String.toByteArray_inj, String.toByteArray_ofList, utf8Encode_ascii h]
    rfl
  rw [this, String.toList_ofList]

/-- ASCII bytes at the front are decoded on their own, also by the lossy
    decoder. -/
theorem fromUtf8Lossy_ascii {l : List UInt8} (h : ∀ b ∈ l, b < 128) (rest : List UInt8) :
    fromUtf8Lossy (l ++ rest) = l.map asciiChar ++ fromUtf8Lossy rest := by
  induction l with
  | nil => rfl
  | cons b l ih =>
      have hb : b < 0x80 := h b List.mem_cons_self
      rw [List.cons_append, List.map_cons, List.cons_append,
        ← ih fun c hc => h c (List.mem_cons_of_mem _ hc)]
      rw [fromUtf8Lossy.eq_def]
      exact if_pos hb

theorem bytes_eq (s : String) : bytes s = s.toList.flatMap String.utf8EncodeChar := by
  have h : s.toUTF8 = s.toList.utf8Encode := String.utf8Encode_toList.symm
  rw [bytes, h, List.utf8Encode, List.toList_data_toByteArray]

theorem asciiChar_toUInt8 {c : Char} (h : c.toNat < 128) : asciiChar c.toUInt8 = c := by
  apply Char.ext
  apply UInt32.toNat_inj.mp
  show (asciiChar c.toUInt8).toNat = c.toNat
  rw [toNat_asciiChar]
  show c.toNat % 256 = c.toNat
  omega

/-- The bytes of an ASCII string are its characters. -/
theorem map_asciiChar_bytes {s : String} (h : ∀ c ∈ s.toList, c.toNat < 128) :
    (bytes s).map asciiChar = s.toList := by
  rw [bytes_eq]
  generalize s.toList = l at h
  induction l with
  | nil => rfl
  | cons c l ih =>
      have hc := h c List.mem_cons_self
      have hb : c.toUInt8 < 128 := by
        show c.toNat % 256 < 128
        omega
      rw [List.flatMap_cons, List.map_append, ih fun d hd => h d (List.mem_cons_of_mem _ hd)]
      have := utf8EncodeChar_asciiChar hb
      rw [asciiChar_toUInt8 hc] at this
      rw [this, List.map_singleton, asciiChar_toUInt8 hc]
      rfl

/-! ## Prefixes and trimming -/

theorem stripPrefix_none_iff {s pat : List Char} : stripPrefix s pat = none ↔ ¬ pat <+: s := by
  rw [stripPrefix, ← not_iff_not, ← ne_eq, Option.ne_none_iff_exists', not_not]
  exact exists_congr fun rest => List.isPrefixOf?_eq_some_iff_append_eq

theorem stripPrefix_append (pat s : List Char) : stripPrefix (pat ++ s) pat = some s :=
  List.isPrefixOf?_eq_some_iff_append_eq.mpr rfl

/-- Trimming takes white space off a text that has none itself. -/
theorem trim_padded {u s w : List Char} (hu : ∀ c ∈ u, isWhitespace c)
    (hs : ∀ c ∈ s, isWhitespace c = false) (hw : ∀ c ∈ w, isWhitespace c) :
    trim (u ++ (s ++ w)) = s := by
  cases s with
  | nil =>
      have hall : (u ++ ([] ++ w)).dropWhile isWhitespace = [] := by
        rw [List.dropWhile_eq_nil_iff, List.nil_append, List.forall_mem_append]
        exact ⟨hu, hw⟩
      rw [trim, hall]
      rfl
  | cons c s =>
      have hc : isWhitespace c = false := hs c List.mem_cons_self
      have hrev : ∀ c ∈ w.reverse, isWhitespace c := fun c h => hw c (List.mem_reverse.mp h)
      have hself : (c :: s).reverse.dropWhile isWhitespace = (c :: s).reverse := by
        cases hr : (c :: s).reverse with
        | nil => rfl
        | cons d t =>
            have hd : isWhitespace d = false := hs d (List.mem_reverse.mp (hr ▸ List.mem_cons_self))
            rw [List.dropWhile_cons, hd, if_neg Bool.false_ne_true]
      rw [trim, List.dropWhile_append_of_pos hu, List.cons_append, List.dropWhile_cons, hc,
        if_neg Bool.false_ne_true, ← List.cons_append, List.reverse_append,
        List.dropWhile_append_of_pos hrev, hself, List.reverse_reverse]

/-! ## Numbers -/

/-- A string of one or more digits. -/
def IsDigits (radix : Nat) (cs : List Char) : Prop :=
  cs ≠ [] ∧ ∀ c ∈ cs, (toDigit radix c).isSome

instance (radix : Nat) (cs : List Char) : Decidable (IsDigits radix cs) :=
  decidable_of_iff (cs ≠ [] ∧ cs.all (fun c => (toDigit radix c).isSome) = true)
    (and_congr_right fun _ => List.all_eq_true)

/-- The number that digits denote, after those that gave `acc`. -/
def digitsValue (radix acc : Nat) (cs : List Char) : Nat :=
  cs.foldl (fun n c => n * radix + (toDigit radix c).getD 0) acc

theorem le_digitsValue {radix : Nat} (hr : 0 < radix) :
    ∀ (acc : Nat) (cs : List Char), acc ≤ digitsValue radix acc cs := by
  intro acc cs
  induction cs generalizing acc with
  | nil => exact Nat.le_refl acc
  | cons c cs ih =>
      calc acc ≤ acc * radix := Nat.le_mul_of_pos_right acc hr
        _ ≤ acc * radix + (toDigit radix c).getD 0 := Nat.le_add_right _ _
        _ ≤ digitsValue radix acc (c :: cs) := ih _

/-- **DIGITS**: the loop accepts digits only, and computes their number if it
    fits. -/
theorem digitsFrom_eq_some_iff {radix : Nat} (hr : 0 < radix) {n : Nat} :
    ∀ (cs : List Char) (acc : Nat), acc ≤ usizeMax →
      (digitsFrom radix acc cs = some n ↔
        (∀ c ∈ cs, (toDigit radix c).isSome) ∧ digitsValue radix acc cs = n ∧ n ≤ usizeMax) := by
  intro cs
  induction cs with
  | nil =>
      intro acc hacc
      rw [digitsFrom, Option.some.injEq]
      constructor
      · rintro rfl
        exact ⟨fun c hc => absurd hc List.not_mem_nil, rfl, hacc⟩
      · rintro ⟨-, h, -⟩
        exact h
  | cons c cs ih =>
      intro acc hacc
      rw [List.forall_mem_cons]
      cases hd : toDigit radix c with
      | none =>
          simp only [digitsFrom, hd]
          constructor
          · intro h
            cases h
          · rintro ⟨⟨h, -⟩, -⟩
            cases h
      | some d =>
          have hval : digitsValue radix acc (c :: cs) = digitsValue radix (acc * radix + d) cs := by
            rw [digitsValue, List.foldl_cons, hd]
            rfl
          simp only [digitsFrom, hd, hval, Option.isSome_some, true_and]
          by_cases hfit : acc * radix + d ≤ usizeMax
          · rw [if_pos hfit]
            exact ih (acc * radix + d) hfit
          · -- the numbers only grow
            rw [if_neg hfit]
            have hle := le_digitsValue hr (acc * radix + d) cs
            constructor
            · intro h
              cases h
            · rintro ⟨-, h, hn⟩
              omega

/-- **`from_str_radix`** accepts digits, also behind one plus sign, whose number
    fits. -/
theorem fromStrRadix_eq_some_iff {radix : Nat} (hr : 0 < radix) {s : List Char} {n : Nat} :
    fromStrRadix radix s = some n ↔
      ∃ cs, (s = cs ∨ s = '+' :: cs) ∧ IsDigits radix cs ∧ digitsValue radix 0 cs = n ∧
        n ≤ usizeMax := by
  have hplus : toDigit radix '+' = none := rfl
  have hiff := fun cs => digitsFrom_eq_some_iff (n := n) hr cs 0 (Nat.zero_le _)
  rw [fromStrRadix.eq_def]
  split
  · constructor
    · intro h
      cases h
    · rintro ⟨cs, h | h, hcs, -⟩
      · exact absurd h.symm hcs.1
      · cases h
  · constructor
    · intro h
      cases h
    · rintro ⟨cs, rfl | h, hcs, -⟩
      · have := hcs.2 '+' List.mem_cons_self
        rw [hplus] at this
        cases this
      · cases h
        exact absurd rfl hcs.1
  · rename_i cs hne
    rw [hiff]
    constructor
    · rintro ⟨hcs, hv⟩
      exact ⟨cs, Or.inr rfl, ⟨fun h => hne (h ▸ rfl), hcs⟩, hv⟩
    · rintro ⟨ds, rfl | h, hds, hv⟩
      · have := hds.2 '+' List.mem_cons_self
        rw [hplus] at this
        cases this
      · cases h
        exact ⟨hds.2, hv⟩
  · rename_i hnil hone hmore
    rw [hiff]
    constructor
    · rintro ⟨hcs, hv⟩
      exact ⟨s, Or.inl rfl, ⟨hnil, hcs⟩, hv⟩
    · rintro ⟨ds, rfl | rfl, hds, hv⟩
      · exact ⟨hds.2, hv⟩
      · exact absurd rfl (hmore ds)

/-- Of digits it is their number. -/
theorem fromStrRadix_digits {radix : Nat} (hr : 0 < radix) {cs : List Char}
    (hcs : IsDigits radix cs) :
    fromStrRadix radix cs
      = if digitsValue radix 0 cs ≤ usizeMax then some (digitsValue radix 0 cs) else none := by
  by_cases hfit : digitsValue radix 0 cs ≤ usizeMax
  · rw [if_pos hfit, fromStrRadix_eq_some_iff hr]
    exact ⟨cs, Or.inl rfl, hcs, rfl, hfit⟩
  · rw [if_neg hfit, Option.eq_none_iff_forall_ne_some]
    intro n hn
    obtain ⟨ds, rfl | rfl, -, hv, hle⟩ := (fromStrRadix_eq_some_iff hr).mp hn
    · exact hfit (hv ▸ hle)
    · have hplus := hcs.2 '+' List.mem_cons_self
      have hnone : toDigit radix '+' = none := rfl
      rw [hnone] at hplus
      cases hplus

/-- The digits of a radix. -/
theorem toDigit_eq_some {radix d : Nat} {c : Char} (h : toDigit radix c = some d) :
    d < radix ∧ ((48 ≤ c.toNat ∧ c.toNat ≤ 57) ∨ (97 ≤ c.toNat ∧ c.toNat ≤ 122 ∧ d = c.toNat - 97 + 10) ∨
      (65 ≤ c.toNat ∧ c.toNat ≤ 90 ∧ d = c.toNat - 65 + 10)) := by
  rw [toDigit, Option.filter_eq_some_iff] at h
  obtain ⟨h, hd⟩ := h
  refine ⟨of_decide_eq_true hd, ?_⟩
  by_cases h09 : '0' ≤ c ∧ c ≤ '9'
  · exact Or.inl h09
  · by_cases haz : 'a' ≤ c ∧ c ≤ 'z'
    · rw [if_neg h09, if_pos haz] at h
      exact Or.inr (Or.inl ⟨haz.1, haz.2, (Option.some.inj h).symm⟩)
    · by_cases hAZ : 'A' ≤ c ∧ c ≤ 'Z'
      · rw [if_neg h09, if_neg haz, if_pos hAZ] at h
        exact Or.inr (Or.inr ⟨hAZ.1, hAZ.2, (Option.some.inj h).symm⟩)
      · rw [if_neg h09, if_neg haz, if_neg hAZ] at h
        cases h

/-- The hexadecimal digits. -/
theorem toNat_of_toDigit_sixteen {c : Char} (h : (toDigit 16 c).isSome) :
    (48 ≤ c.toNat ∧ c.toNat ≤ 57) ∨ (65 ≤ c.toNat ∧ c.toNat ≤ 70) ∨
      (97 ≤ c.toNat ∧ c.toNat ≤ 102) := by
  obtain ⟨d, hd⟩ := Option.isSome_iff_exists.mp h
  obtain ⟨hlt, hc⟩ := toDigit_eq_some hd
  omega

theorem toDigit_ten {c : Char} (h : c.isDigit) : toDigit 10 c = some (c.toNat - '0'.toNat) := by
  obtain ⟨h0, h9⟩ := Char.isDigit_iff_toNat.mp h
  have hle : '0' ≤ c ∧ c ≤ '9' := ⟨h0, h9⟩
  have hlt : c.toNat - '0'.toNat < 10 := by
    have : '0'.toNat = 48 := rfl
    have : '9'.toNat = 57 := rfl
    omega
  simp only [toDigit, if_pos hle, Option.filter_some, decide_eq_true hlt, if_true]

theorem isDigits_toDigits (n : Nat) : IsDigits 10 (Nat.toDigits 10 n) := by
  refine ⟨Nat.toDigits_ne_nil, fun c hc => ?_⟩
  rw [toDigit_ten (Nat.isDigit_of_mem_toDigits (by decide) (by decide) hc)]
  rfl

theorem digitsValue_toDigits (n : Nat) : digitsValue 10 0 (Nat.toDigits 10 n) = n := by
  have key : ∀ (cs : List Char) (acc : Nat), (∀ c ∈ cs, c.isDigit) →
      digitsValue 10 acc cs = Nat.ofDigitChars 10 cs acc := by
    intro cs
    induction cs with
    | nil => intro acc _; rfl
    | cons c cs ih =>
        intro acc h
        rw [List.forall_mem_cons] at h
        rw [Nat.ofDigitChars_cons, ← ih _ h.2, digitsValue, List.foldl_cons, toDigit_ten h.1,
          Nat.mul_comm]
        rfl
  rw [key _ 0 fun c hc => Nat.isDigit_of_mem_toDigits (by decide) (by decide) hc,
    Nat.ofDigitChars_ten_toDigits]

/-- **DECIMAL ROUND TRIP** -/
theorem fromStrRadix_toString {n : Nat} (hn : n ≤ usizeMax) :
    fromStrRadix 10 (toString n).toList = some n := by
  rw [Nat.toString_eq_ofList_toDigits, String.toList_ofList, fromStrRadix_eq_some_iff (by decide)]
  exact ⟨Nat.toDigits 10 n, Or.inl rfl, isDigits_toDigits n, digitsValue_toDigits n, hn⟩

theorem toAsciiLowercase_digit {c : Char} (h : c.isDigit) : toAsciiLowercase c = c := by
  have h9 : c.toNat ≤ 57 := (Char.isDigit_iff_toNat.mp h).2
  refine if_neg ?_
  rintro ⟨hA, -⟩
  have hA' : 65 ≤ c.toNat := hA
  omega

/-- Lower case is lower case. -/
theorem toAsciiLowercase_idem (c : Char) :
    toAsciiLowercase (toAsciiLowercase c) = toAsciiLowercase c := by
  by_cases h : 'A' ≤ c ∧ c ≤ 'Z'
  · have hle : 65 ≤ c.toNat ∧ c.toNat ≤ 90 := h
    have hvalid : (c.toNat + 32).isValidChar := Or.inl (by omega)
    have hlower : (Char.ofNat (c.toNat + 32)).toNat = c.toNat + 32 := by
      rw [Char.ofNat, dif_pos hvalid]
      rfl
    rw [toAsciiLowercase.eq_def c, if_pos h, toAsciiLowercase, if_neg]
    rintro ⟨-, hz⟩
    have : (Char.ofNat (c.toNat + 32)).toNat ≤ 90 := hz
    omega
  · rw [toAsciiLowercase.eq_def c, if_neg h, toAsciiLowercase, if_neg h]

theorem not_whitespace_digit {c : Char} (h : c.isDigit) : isWhitespace c = false := by
  have h0 : 48 ≤ c.toNat := (Char.isDigit_iff_toNat.mp h).1
  have h9 : c.toNat ≤ 57 := (Char.isDigit_iff_toNat.mp h).2
  refine decide_eq_false ?_
  omega

theorem isDigit_of_mem_toString {n : Nat} {c : Char} (h : c ∈ (toString n).toList) : c.isDigit := by
  rw [Nat.toString_eq_ofList_toDigits, String.toList_ofList] at h
  exact Nat.isDigit_of_mem_toDigits (by decide) (by decide) h

/-! ## Lines that end with CRLF -/

/-- The bytes of visible ASCII, space and tab. -/
def PlainByte (b : UInt8) : Prop := b = 9 ∨ (32 ≤ b ∧ b ≤ 126)

instance : DecidablePred PlainByte := fun b => inferInstanceAs (Decidable (b = 9 ∨ (32 ≤ b ∧ b ≤ 126)))

/-- The characters of these bytes. -/
def PlainChar (c : Char) : Prop := c = '\t' ∨ (' ' ≤ c ∧ c ≤ '~')

instance : DecidablePred PlainChar :=
  fun c => inferInstanceAs (Decidable (c = '\t' ∨ (' ' ≤ c ∧ c ≤ '~')))

theorem PlainChar.lt {c : Char} (h : PlainChar c) : c.toNat < 128 := by
  rcases h with rfl | ⟨-, h⟩
  · decide
  · have h' : c.toNat ≤ 126 := h
    omega

theorem plainChar_of_isDigit {c : Char} (h : c.isDigit) : PlainChar c := by
  obtain ⟨h0, h9⟩ := Char.isDigit_iff_toNat.mp h
  have hlo : '0' ≤ c := h0
  have hhi : c ≤ '9' := h9
  exact Or.inr ⟨Char.le_trans (by decide) hlo, Char.le_trans hhi (by decide)⟩

theorem plainByte_of_plainChar {b : UInt8} (h : PlainChar (asciiChar b)) : PlainByte b := by
  rcases h with h | ⟨hlo, hhi⟩
  · exact Or.inl (asciiChar_inj h)
  · have hb := toNat_asciiChar b
    have hlo' : 32 ≤ (asciiChar b).toNat := hlo
    have hhi' : (asciiChar b).toNat ≤ 126 := hhi
    rw [hb] at hlo' hhi'
    exact Or.inr ⟨hlo', hhi'⟩

theorem plain_bytes {s : String} (h : ∀ c ∈ s.toList, PlainChar c) : ∀ b ∈ bytes s, PlainByte b := by
  intro b hb
  apply plainByte_of_plainChar
  apply h
  rw [← map_asciiChar_bytes fun c hc => (h c hc).lt]
  exact List.mem_map_of_mem hb

/-- A line of text: not empty, and plain. -/
structure PlainLine (l : List UInt8) : Prop where
  ne_nil : l ≠ []
  plain : ∀ b ∈ l, PlainByte b

def crlf : List UInt8 := [13, 10]

/-- Lines, each with its CRLF, up to and including an empty line. -/
def block : List (List UInt8) → List UInt8
  | [] => crlf
  | l :: ls => l ++ crlf ++ block ls

theorem PlainByte.lt {b : UInt8} (h : PlainByte b) : b < 128 := by
  rcases h with rfl | ⟨-, h⟩
  · decide
  · exact UInt8.lt_of_le_of_lt h (by decide)

theorem PlainByte.ne_cr {b : UInt8} (h : PlainByte b) : b ≠ 13 := by
  rintro rfl
  exact absurd h (by decide)

theorem PlainByte.ne_lf {b : UInt8} (h : PlainByte b) : b ≠ 10 := by
  rintro rfl
  exact absurd h (by decide)

theorem block_append (ls ms : List (List UInt8)) :
    block (ls ++ ms) = ls.flatMap (· ++ crlf) ++ block ms := by
  induction ls with
  | nil => rfl
  | cons l ls ih =>
      rw [List.cons_append, block, ih, List.flatMap_cons]
      simp only [List.append_assoc]

theorem crlf_ascii : ∀ b ∈ crlf, b < 128 := by
  simp only [crlf, List.forall_mem_cons]
  exact ⟨by decide, by decide, fun b hb => absurd hb List.not_mem_nil⟩

theorem block_ascii {ls : List (List UInt8)} (h : ∀ l ∈ ls, PlainLine l) :
    ∀ b ∈ block ls, b < 128 := by
  induction ls with
  | nil => exact crlf_ascii
  | cons l ls ih =>
      intro b hb
      rw [List.forall_mem_cons] at h
      rw [block, List.mem_append, List.mem_append] at hb
      rcases hb with (hb | hb) | hb
      · exact (h.1.plain b hb).lt
      · exact crlf_ascii b hb
      · exact ih h.2 b hb

/-- **LINES**: the text of a block has its lines and the empty one. -/
theorem lines_block {ls : List (List UInt8)} (h : ∀ l ∈ ls, PlainLine l) :
    lines ((block ls).map asciiChar) = ls.map (·.map asciiChar) ++ [[]] := by
  -- one line, of which a part has been read
  have one : ∀ (l line : List UInt8) (rest : List Char), (∀ b ∈ l, PlainByte b) →
      linesFrom (line.map asciiChar) ((l ++ crlf).map asciiChar ++ rest)
        = (line ++ l).map asciiChar :: linesFrom [] rest := by
    intro l
    induction l with
    | nil =>
        intro line rest _
        show linesFrom (line.map asciiChar) ('\r' :: '\n' :: rest) = _
        have hcr : ('\r' : Char) ≠ '\n' := by decide
        simp only [linesFrom, hcr, if_false, if_true, List.getLast?_concat, List.dropLast_concat,
          List.append_nil]
    | cons b l ih =>
        intro line rest hl
        rw [List.forall_mem_cons] at hl
        have hlf : asciiChar b ≠ '\n' := fun e => hl.1.ne_lf (asciiChar_inj e)
        have hstep := ih (line ++ [b]) rest hl.2
        rw [List.map_append, List.map_singleton, List.append_assoc, List.singleton_append] at hstep
        rw [← hstep, List.cons_append, List.map_cons, List.cons_append, linesFrom, if_neg hlf]
  rw [lines]
  induction ls with
  | nil => rfl
  | cons l ls ih =>
      rw [List.forall_mem_cons] at h
      rw [block, List.map_append, List.map_cons, List.cons_append, ← ih h.2]
      exact one l [] _ h.1.plain

theorem crlf_not_le {l : List UInt8} (hl : PlainLine l) (rest : List UInt8) :
    ¬ crlf <+: l ++ rest := by
  intro h
  cases l with
  | nil => exact hl.ne_nil rfl
  | cons b l =>
      have hb := (List.cons_prefix_cons.mp h).1
      exact (hl.plain b List.mem_cons_self).ne_cr hb.symm

/-- **THE EMPTY LINE**: CRLF CRLF is nowhere in a block but at its end. -/
theorem block_blank {ls : List (List UInt8)} (h : ∀ l ∈ ls, PlainLine l) {j : Nat}
    (hj : crlf ++ crlf <+: (block ls).drop j) : j + 4 = (block ls).length := by
  induction ls generalizing j with
  | nil =>
      have := hj.length_le
      rw [List.length_drop] at this
      have hc : (crlf ++ crlf).length = 4 := rfl
      have hb : (block []).length = 2 := rfl
      omega
  | cons l ls ih =>
      rw [List.forall_mem_cons] at h
      rw [block, List.append_assoc, List.drop_append] at hj
      rw [block, List.append_assoc, List.length_append]
      by_cases hlt : j < l.length
      · -- inside the line
        rw [List.drop_eq_getElem_cons hlt] at hj
        have hb := (List.cons_prefix_cons.mp hj).1
        exact absurd hb.symm (h.1.plain _ (List.getElem_mem hlt)).ne_cr
      · rw [List.drop_eq_nil_of_le (Nat.not_lt.mp hlt), List.nil_append] at hj
        generalize hk : j - l.length = k at hj
        match k with
        | 0 =>
            -- at its end: the next line would have to be the empty one
            have hnext : crlf <+: block ls := (List.prefix_append_right_inj crlf).mp hj
            cases ls with
            | nil =>
                have : (crlf ++ block []).length = 4 := rfl
                omega
            | cons l' ls =>
                rw [block, List.append_assoc] at hnext
                exact absurd hnext (crlf_not_le (h.2 l' List.mem_cons_self) _)
        | 1 =>
            have hb := (List.cons_prefix_cons.mp hj).1
            exact absurd hb (by decide)
        | k + 2 =>
            have hrec := ih h.2 (j := k) hj
            have : (crlf ++ block ls).length = (block ls).length + 2 := by
              rw [List.length_append, Nat.add_comm]
              rfl
            omega

theorem block_concat (ls : List (List UInt8)) (l : List UInt8) :
    block (ls ++ [l]) = ls.flatMap (· ++ crlf) ++ l ++ (crlf ++ crlf) := by
  rw [block_append, block, block]
  simp only [List.append_assoc]

end RustStr
