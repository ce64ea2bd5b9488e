import Mathlib

/-! # Strings of the Rust standard library

    Bytes, characters and numbers as `std` treats them: UTF-8 decoding, strict and
    lossy, trimming of Unicode white space, splitting into lines, ASCII case, and
    the parsing of unsigned 64-bit numbers in a radix. -/

namespace RustStr

/-- The bytes of a `&str`. -/
def bytes (s : String) : List UInt8 := s.toUTF8.data.toList

/-- `usize::MAX` on a 64-bit target. -/
def usizeMax : Nat := 2 ^ 64 - 1

/-- `isize::MAX` -/
def isizeMax : Nat := 2 ^ 63 - 1

/-! ## UTF-8 -/

/-- The replacement character, U+FFFD. -/
def replacement : Char := Char.ofNat 0xFFFD

/-- A continuation byte. -/
def isCont (c : UInt8) : Bool := 0x80 ≤ c ∧ c ≤ 0xBF

/-- The second byte of a three-byte sequence that starts with `b`. -/
def isSecond3 (b c : UInt8) : Bool :=
  if b = 0xE0 then 0xA0 ≤ c ∧ c ≤ 0xBF
  else if b = 0xED then 0x80 ≤ c ∧ c ≤ 0x9F
  else isCont c

/-- The second byte of a four-byte sequence that starts with `b`. -/
def isSecond4 (b c : UInt8) : Bool :=
  if b = 0xF0 then 0x90 ≤ c ∧ c ≤ 0xBF
  else if b = 0xF4 then 0x80 ≤ c ∧ c ≤ 0x8F
  else isCont c

/-- The payload bits of a continuation byte. -/
def low6 (c : UInt8) : Nat := c.toNat - 0x80

/-- `String::from_utf8_lossy`: every maximal part of an ill-formed sequence
    becomes one replacement character. -/
def fromUtf8Lossy : List UInt8 → List Char
  | [] => []
  | b :: bs =>
      if b < 0x80 then Char.ofNat b.toNat :: fromUtf8Lossy bs
      else if 0xC2 ≤ b ∧ b ≤ 0xDF then
        match bs with
        | c :: cs =>
            if isCont c then
              Char.ofNat ((b.toNat - 0xC0) * 64 + low6 c) :: fromUtf8Lossy cs
            else replacement :: fromUtf8Lossy (c :: cs)
        | [] => [replacement]
      else if 0xE0 ≤ b ∧ b ≤ 0xEF then
        match bs with
        | c :: d :: ds =>
            if isSecond3 b c then
              if isCont d then
                Char.ofNat (((b.toNat - 0xE0) * 64 + low6 c) * 64 + low6 d) :: fromUtf8Lossy ds
              else replacement :: fromUtf8Lossy (d :: ds)
            else replacement :: fromUtf8Lossy (c :: d :: ds)
        | [c] =>
            if isSecond3 b c then [replacement] else replacement :: fromUtf8Lossy [c]
        | [] => [replacement]
      else if 0xF0 ≤ b ∧ b ≤ 0xF4 then
        match bs with
        | c :: d :: e :: es =>
            if isSecond4 b c then
              if isCont d then
                if isCont e then
                  Char.ofNat ((((b.toNat - 0xF0) * 64 + low6 c) * 64 + low6 d) * 64 + low6 e)
                    :: fromUtf8Lossy es
                else replacement :: fromUtf8Lossy (e :: es)
              else replacement :: fromUtf8Lossy (d :: e :: es)
            else replacement :: fromUtf8Lossy (c :: d :: e :: es)
        | [c, d] =>
            if isSecond4 b c then
              if isCont d then [replacement] else replacement :: fromUtf8Lossy [d]
            else replacement :: fromUtf8Lossy [c, d]
        | [c] =>
            if isSecond4 b c then [replacement] else replacement :: fromUtf8Lossy [c]
        | [] => [replacement]
      else replacement :: fromUtf8Lossy bs
  termination_by structural xs => xs

/-- `str::from_utf8` -/
def fromUtf8 (bs : List UInt8) : Option (List Char) :=
  (String.fromUTF8? bs.toByteArray).map String.toList

/-! ## Characters -/

/-- `char::is_whitespace`: the Unicode property White_Space. -/
def isWhitespace (c : Char) : Bool :=
  let n := c.toNat
  (9 ≤ n ∧ n ≤ 13) ∨ n = 0x20 ∨ n = 0x85 ∨ n = 0xA0 ∨ n = 0x1680 ∨
    (0x2000 ≤ n ∧ n ≤ 0x200A) ∨ n = 0x2028 ∨ n = 0x2029 ∨ n = 0x202F ∨ n = 0x205F ∨ n = 0x3000

/-- `str::trim` -/
def trim (s : List Char) : List Char :=
  ((s.dropWhile isWhitespace).reverse.dropWhile isWhitespace).reverse

/-- The first piece of `str::split` at a character. -/
def splitFirst (sep : Char) (s : List Char) : List Char := s.takeWhile (· ≠ sep)

/-- The lines of a text, the current one so far given: a line ends with LF or
    CRLF, the last one may also end with the text. -/
def linesFrom : List Char → List Char → List (List Char)
  | line, [] => if line = [] then [] else [line]
  | line, c :: cs =>
      if c = '\n' then
        (if line.getLast? = some '\r' then line.dropLast else line) :: linesFrom [] cs
      else linesFrom (line ++ [c]) cs

/-- `str::lines` -/
def lines (s : List Char) : List (List Char) := linesFrom [] s

/-- `str::strip_prefix` -/
def stripPrefix (s pat : List Char) : Option (List Char) := pat.isPrefixOf? s

/-- `char::to_ascii_lowercase` -/
def toAsciiLowercase (c : Char) : Char :=
  if 'A' ≤ c ∧ c ≤ 'Z' then Char.ofNat (c.toNat + 32) else c

/-- `str::eq_ignore_ascii_case` -/
def eqIgnoreAsciiCase (s t : List Char) : Bool :=
  s.map toAsciiLowercase = t.map toAsciiLowercase

/-- `str::contains` -/
def contains (s pat : List Char) : Bool := s.tails.any (fun t => pat.isPrefixOf t)

/-! ## Numbers -/

/-- `char::to_digit` -/
def toDigit (radix : Nat) (c : Char) : Option Nat :=
  let value :=
    if '0' ≤ c ∧ c ≤ '9' then some (c.toNat - '0'.toNat)
    else if 'a' ≤ c ∧ c ≤ 'z' then some (c.toNat - 'a'.toNat + 10)
    else if 'A' ≤ c ∧ c ≤ 'Z' then some (c.toNat - 'A'.toNat + 10)
    else none
  value.filter (· < radix)

/-- The digit loop, with its overflow check. -/
def digitsFrom (radix : Nat) : Nat → List Char → Option Nat
  | acc, [] => some acc
  | acc, c :: cs =>
      match toDigit radix c with
      | none => none
      | some d => if acc * radix + d ≤ usizeMax then digitsFrom radix (acc * radix + d) cs else none

/-- `usize::from_str_radix`: not empty, one optional plus sign, digits. -/
def fromStrRadix (radix : Nat) : List Char → Option Nat
  | [] => none
  | ['+'] => none
  | '+' :: cs => digitsFrom radix 0 cs
  | cs => digitsFrom radix 0 cs

end RustStr
