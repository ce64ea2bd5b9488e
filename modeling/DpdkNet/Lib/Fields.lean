import DpdkNet.Lib.Text

/-! # Text in fields

    Numbers in hexadecimal with a fixed number of digits, and lines that are split
    into words or at a separator, as the tables of an operating system have
    them. -/

namespace RustStr

/-! ## Hexadecimal digits -/

/-- The digit of a number below sixteen. -/
def hexChar (upper : Bool) (d : Nat) : Char :=
  if d < 10 then Char.ofNat (48 + d)
  else if upper then Char.ofNat (55 + d)
  else Char.ofNat (87 + d)

/-- The last `width` digits of a number. -/
def hexFixed (upper : Bool) : Nat → Nat → List Char
  | 0, _ => []
  | width + 1, n => hexFixed upper width (n / 16) ++ [hexChar upper (n % 16)]

theorem toDigit_hexChar (upper : Bool) {d : Nat} (hd : d < 16) :
    toDigit 16 (hexChar upper d) = some d := by
  have hall : ∀ (upper : Bool) (d : Fin 16), toDigit 16 (hexChar upper d) = some d.1 := by decide
  exact hall upper ⟨d, hd⟩

/-- Digits, all of them. -/
theorem mem_hexFixed {upper : Bool} {c : Char} :
    ∀ {width n : Nat}, c ∈ hexFixed upper width n → ∃ d, d < 16 ∧ c = hexChar upper d := by
  intro width
  induction width with
  | zero => intro n h; cases h
  | succ width ih =>
      intro n h
      rw [hexFixed, List.mem_append, List.mem_singleton] at h
      rcases h with h | h
      · exact ih h
      · exact ⟨n % 16, Nat.mod_lt _ (Nat.zero_lt_succ _), h⟩

theorem isDigits_hexFixed (upper : Bool) {width : Nat} (hw : 0 < width) (n : Nat) :
    IsDigits 16 (hexFixed upper width n) := by
  refine ⟨?_, ?_⟩
  · cases width with
    | zero => exact absurd hw (Nat.lt_irrefl _)
    | succ width => exact List.append_ne_nil_of_right_ne_nil _ (List.cons_ne_nil _ _)
  · intro c hc
    obtain ⟨d, hd, rfl⟩ := mem_hexFixed hc
    rw [toDigit_hexChar upper hd]
    rfl

theorem digitsValue_hexFixed (upper : Bool) :
    ∀ width n : Nat, digitsValue 16 0 (hexFixed upper width n) = n % 16 ^ width := by
  intro width
  induction width with
  | zero => intro n; exact (Nat.mod_one n).symm
  | succ width ih =>
      intro n
      have hlast := toDigit_hexChar upper (Nat.mod_lt n (Nat.zero_lt_succ 15))
      rw [hexFixed, digitsValue, List.foldl_append]
      show digitsValue 16 0 (hexFixed upper width (n / 16)) * 16
        + (toDigit 16 (hexChar upper (n % 16))).getD 0 = _
      rw [ih, hlast, Option.getD_some, Nat.pow_succ, Nat.mul_comm (16 ^ width) 16, Nat.mod_mul]
      omega

/-- **HEXADECIMAL ROUND TRIP** -/
theorem fromStrRadix_hexFixed (upper : Bool) {width n : Nat} (hw : 0 < width) (hn : n < 16 ^ width)
    (hfit : n ≤ usizeMax) : fromStrRadix 16 (hexFixed upper width n) = some n := by
  have hvalue : digitsValue 16 0 (hexFixed upper width n) = n := by
    rw [digitsValue_hexFixed, Nat.mod_eq_of_lt hn]
  rw [fromStrRadix_digits (Nat.zero_lt_succ 15) (isDigits_hexFixed upper hw n), hvalue, if_pos hfit]

/-- A digit is neither white space nor a colon. -/
theorem hexChar_plain (upper : Bool) {d : Nat} (hd : d < 16) :
    isWhitespace (hexChar upper d) = false ∧ hexChar upper d ≠ ':' := by
  have hall : ∀ (upper : Bool) (d : Fin 16),
      isWhitespace (hexChar upper d) = false ∧ hexChar upper d ≠ ':' := by decide
  exact hall upper ⟨d, hd⟩

theorem hexFixed_not_whitespace {upper : Bool} {width n : Nat} :
    ∀ c ∈ hexFixed upper width n, isWhitespace c = false := by
  intro c hc
  obtain ⟨d, hd, rfl⟩ := mem_hexFixed hc
  exact (hexChar_plain upper hd).1

theorem colon_not_mem_hexFixed {upper : Bool} {width n : Nat} : ':' ∉ hexFixed upper width n := by
  intro hc
  obtain ⟨d, hd, h⟩ := mem_hexFixed hc
  exact (hexChar_plain upper hd).2 h.symm

theorem length_hexFixed (upper : Bool) :
    ∀ width n : Nat, (hexFixed upper width n).length = width := by
  intro width
  induction width with
  | zero => intro n; rfl
  | succ width ih =>
      intro n
      rw [hexFixed, List.length_append, ih, List.length_singleton]

/-! ## Words -/

/-- What holds of the pieces and of the separator holds of the whole. -/
theorem forall_mem_intercalate {P : Char → Prop} {sep : Char} (hsep : P sep) {ls : List (List Char)}
    (h : ∀ l ∈ ls, ∀ c ∈ l, P c) : ∀ c ∈ [sep].intercalate ls, P c := by
  induction ls with
  | nil => intro c hc; cases hc
  | cons l ls ih =>
      rw [List.forall_mem_cons] at h
      cases ls with
      | nil =>
          rw [List.intercalate_singleton]
          exact h.1
      | cons m ls =>
          rw [List.intercalate_cons_cons, List.forall_mem_append, List.forall_mem_append,
            List.forall_mem_singleton]
          exact ⟨⟨h.1, hsep⟩, ih h.2⟩

/-- `str::split_whitespace` -/
def splitWhitespace (s : List Char) : List (List Char) :=
  (s.splitOnP isWhitespace).filter (· ≠ [])

/-- A word and the white space behind it. -/
theorem splitWhitespace_word {w : List Char} (hw : w ≠ []) (hplain : ∀ c ∈ w, isWhitespace c = false)
    {sep : Char} (hsep : isWhitespace sep = true) (rest : List Char) :
    splitWhitespace (w ++ sep :: rest) = w :: splitWhitespace rest := by
  rw [splitWhitespace, List.splitOnP_append_cons_of_forall_mem hplain sep hsep, List.filter_cons,
    if_pos (decide_eq_true hw)]
  rfl

/-! ## Substrings -/

/-- `str::find`, counted in characters. -/
def find (s pat : List Char) : Option Nat := s.tails.findIdx? (fun t => pat.isPrefixOf t)

theorem find_cons (c : Char) (s pat : List Char) :
    find (c :: s) pat = if pat <+: c :: s then some 0 else (find s pat).map (· + 1) := by
  rw [find, List.tails_cons, List.findIdx?_cons, find]
  simp only [List.isPrefixOf_iff_prefix]

/-- The text behind the first place where a pattern stands. -/
def behind (s pat : List Char) : Option (List Char) :=
  (find s pat).map fun pos => s.drop (pos + pat.length)

theorem behind_nil {pat : List Char} (hpat : pat ≠ []) : behind [] pat = none := by
  cases pat with
  | nil => exact absurd rfl hpat
  | cons c pat => rfl

theorem behind_cons {c : Char} {s pat : List Char} (h : ¬ pat <+: c :: s) :
    behind (c :: s) pat = behind s pat := by
  rw [behind, find_cons, if_neg h, behind, Option.map_map]
  congr 1
  funext pos
  show (c :: s).drop (pos + 1 + pat.length) = _
  rw [Nat.add_right_comm, List.drop_succ_cons]

/-- It stands at the front. -/
theorem behind_append {pat : List Char} (hpat : pat ≠ []) (s : List Char) :
    behind (pat ++ s) pat = some s := by
  cases pat with
  | nil => exact absurd rfl hpat
  | cons c pat =>
      have hhere : c :: pat <+: c :: (pat ++ s) := List.prefix_append (c :: pat) s
      rw [behind, List.cons_append, find_cons, if_pos hhere, Option.map_some, Nat.zero_add,
        ← List.cons_append, List.drop_left]

/-- A word and a separator is not the beginning of a text whose first word ends
    otherwise. -/
theorem not_isPrefix_of_word {sep : Char} {p w : List Char} (hp : sep ∉ p) (hw : sep ∉ w)
    (hend : ¬ p <:+ w) (rest : List Char) : ¬ p ++ [sep] <+: w ++ sep :: rest := by
  rintro ⟨t, ht⟩
  rw [List.append_assoc] at ht
  have heq := (append_sep_inj hp hw ht).1
  exact hend (heq ▸ List.suffix_refl _)

/-- **WORDS ARE SKIPPED**: a pattern that is a word and a separator does not
    stand in a word with another end, nor across two. -/
theorem behind_word {sep : Char} {p w : List Char} (hp : sep ∉ p) (hw : sep ∉ w) (hend : ¬ p <:+ w)
    (rest : List Char) : behind (w ++ sep :: rest) (p ++ [sep]) = behind rest (p ++ [sep]) := by
  induction w with
  | nil => exact behind_cons (not_isPrefix_of_word hp hw hend rest)
  | cons c w ih =>
      have hnot : ¬ p ++ [sep] <+: c :: (w ++ sep :: rest) := not_isPrefix_of_word hp hw hend rest
      rw [List.cons_append, behind_cons hnot]
      exact ih (fun h => hw (List.mem_cons_of_mem _ h))
        (fun h => hend (h.trans (List.suffix_cons c w)))

/-- Nor in a text without a separator. -/
theorem behind_eq_none {sep : Char} {p s : List Char} (hs : sep ∉ s) :
    behind s (p ++ [sep]) = none := by
  induction s with
  | nil => exact behind_nil (List.append_ne_nil_of_right_ne_nil _ (List.cons_ne_nil _ _))
  | cons c s ih =>
      have hnot : ¬ p ++ [sep] <+: c :: s := by
        intro h
        exact hs (h.subset (List.mem_append_right _ (List.mem_singleton_self sep)))
      rw [behind_cons hnot]
      exact ih fun h => hs (List.mem_cons_of_mem _ h)

/-! ## Lines -/

/-- The bytes of an ASCII text decode to it. -/
theorem fromUtf8Lossy_toUInt8 {s : List Char} (h : ∀ c ∈ s, c.toNat < 128) :
    fromUtf8Lossy (s.map Char.toUInt8) = s := by
  have hbytes : ∀ b ∈ s.map Char.toUInt8, b < 128 := by
    intro b hb
    obtain ⟨c, hc, rfl⟩ := List.mem_map.mp hb
    have := h c hc
    show c.toNat % 256 < 128
    omega
  have hdecode := fromUtf8Lossy_ascii hbytes []
  rw [List.append_nil, fromUtf8Lossy, List.append_nil, List.map_map] at hdecode
  have hchars : s.map (asciiChar ∘ Char.toUInt8) = s.map id :=
    List.map_congr_left fun c hc => asciiChar_toUInt8 (h c hc)
  rw [hdecode, hchars, List.map_id]

/-- Lines that end with LF come back. -/
theorem lines_flatMap {ls : List (List Char)} (h : ∀ l ∈ ls, '\n' ∉ l ∧ '\r' ∉ l) :
    lines (ls.flatMap (· ++ ['\n'])) = ls := by
  -- one line, of which a part has been read
  have one : ∀ (l line rest : List Char), '\n' ∉ l → '\r' ∉ line ++ l →
      linesFrom line (l ++ '\n' :: rest) = (line ++ l) :: linesFrom [] rest := by
    intro l
    induction l with
    | nil =>
        intro line rest _ hcr
        rw [List.append_nil] at hcr ⊢
        have hlast : line.getLast? ≠ some '\r' := fun e => hcr (List.mem_of_getLast? e)
        rw [List.nil_append, linesFrom, if_pos rfl, if_neg hlast]
    | cons c l ih =>
        intro line rest hlf hcr
        rw [List.mem_cons, not_or] at hlf
        have hassoc : line ++ c :: l = line ++ [c] ++ l := by
          rw [List.append_assoc, List.singleton_append]
        rw [List.cons_append, linesFrom, if_neg (Ne.symm hlf.1), hassoc]
        exact ih (line ++ [c]) rest hlf.2 (hassoc ▸ hcr)
  rw [lines]
  induction ls with
  | nil => rfl
  | cons l ls ih =>
      rw [List.forall_mem_cons] at h
      rw [List.flatMap_cons, List.append_assoc, List.singleton_append, one l [] _ h.1.1 h.1.2,
        List.nil_append, ih h.2]

end RustStr
