import DpdkNet.Lib.Text
import DpdkNet.Http.Chunks

/-! # Streams that make the parsers panic

    The offsets that `parse_request` keeps by hand are always in bounds: a buffer
    cannot hold more than its size, and nothing is taken from it that it does not
    hold.  What is left are the sizes that a peer declares.  `Vec::with_capacity`
    is called with them before any byte of the body is read, and it panics above
    `isize::MAX`: a Content-Length or the size of a chunk that is too large ends
    the task and not the request. -/

namespace DpdkNet

open RustStr Refine

variable (H : Httparse) (K : HttpCrate)

/-- `Ok` or `Err`, and no panic. -/
def Returns {α : Type} (r : Except Fault α) : Prop :=
  (∃ a, r = .ok a) ∨ ∃ e, r = .error (.err e)

/-- The headers, or the bytes of the body behind them, declare a size that is too
    large where the parser comes to it. -/
def HugeBody (headers : HeaderMap) (s : List UInt8) : Prop :=
  if isChunked K headers then HugeChunk s
  else ∃ length, getContentLength K headers = some length ∧ isizeMax < length

/-- The stream starts with a header section and declares a body that is too
    large. -/
def DeclaresHuge (s : List UInt8) : Prop :=
  ∃ headerLen raw head, H.parse (s.take maxBufSize) = .complete headerLen raw ∧
    toHead K raw = .ok head ∧ HugeBody K head.headers (s.drop headerLen)

/-! ## Bodies and requests, by cases -/

section Cases

variable {K : HttpCrate} {headers : HeaderMap}

theorem Whole.body_of_chunked (hc : isChunked K headers = true) :
    Whole.body K headers = Whole.chunkedBody := if_pos hc

theorem Whole.body_of_length (hc : isChunked K headers = false) {length : Nat}
    (hl : getContentLength K headers = some length) :
    Whole.body K headers = Whole.exact length := by
  rw [Whole.body, hc, hl]
  rfl

theorem Whole.body_of_none (hc : isChunked K headers = false)
    (hl : getContentLength K headers = none) : Whole.body K headers = pure [] := by
  rw [Whole.body, hc, hl]
  rfl

end Cases

/-- What is done with the body: the URI is checked and the request built. -/
def Whole.finish (head : Head) (body : List UInt8) : StreamM (Option Request) :=
  if K.uriOk head.uri then
    pure (some ⟨head.method, head.uri, head.version, head.headers, body⟩)
  else throw (.err .invalidUri)

/-- A request whose header section is complete. -/
theorem Whole.request_of_head {s : List UInt8} {headerLen : Nat} {raw : RawRequest} {head : Head}
    (hparse : H.parse (s.take maxBufSize) = .complete headerLen raw)
    (hhead : toHead K raw = .ok head) :
    Whole.request H K s
      = (Whole.body K head.headers >>= Whole.finish K head) (s.drop headerLen) := by
  have h : Whole.head H K s = .ok (some head, s.drop headerLen) := by
    rw [Whole.head, hparse]
    simp only [hhead]
  rw [Whole.request, bind_of_ok h]
  rfl

/-- A request without one. -/
theorem Whole.request_of_no_head {s : List UInt8}
    (hno : ∀ headerLen raw head, H.parse (s.take maxBufSize) = .complete headerLen raw →
      toHead K raw ≠ .ok head) :
    Whole.request H K s = .ok (none, []) ∨ ∃ e, Whole.request H K s = .error (.err e) := by
  have hhead : Whole.head H K s = .ok (none, []) ∨ ∃ e, Whole.head H K s = .error (.err e) := by
    rw [Whole.head]
    cases hparse : H.parse (s.take maxBufSize) with
    | error e => exact Or.inr ⟨_, rfl⟩
    | complete n raw =>
        cases h : toHead K raw with
        | error e => exact Or.inr ⟨e, by simp only [h]⟩
        | ok head => exact absurd h (hno n raw head hparse)
    | more =>
        simp only
        split
        · exact Or.inr ⟨_, rfl⟩
        · split
          · exact Or.inl rfl
          · exact Or.inr ⟨_, rfl⟩
  rcases hhead with h | ⟨e, h⟩
  · refine Or.inl ?_
    rw [Whole.request, bind_of_ok h]
    rfl
  · exact Or.inr ⟨e, bind_of_error h⟩

/-! ## Panics -/

theorem Whole.body_panic_iff (headers : HeaderMap) (s : List UInt8) :
    Whole.body K headers s = .error .panic ↔ HugeBody K headers s := by
  rw [HugeBody]
  cases hc : isChunked K headers with
  | true =>
      rw [Whole.body_of_chunked hc, if_pos rfl]
      exact Whole.chunkedBody_panic_iff s
  | false =>
      rw [if_neg Bool.false_ne_true]
      cases hl : getContentLength K headers with
      | none =>
          rw [Whole.body_of_none hc hl]
          constructor
          · intro h
            cases h
          · rintro ⟨length, h, -⟩
            cases h
      | some length =>
          rw [Whole.body_of_length hc hl]
          constructor
          · intro h
            rcases Whole.exact_cases length s with ⟨hbig, -⟩ | ⟨hle, d, rest, rfl, rfl⟩ | hshort
            · exact ⟨length, rfl, hbig⟩
            · rw [Whole.exact_append hle] at h
              cases h
            · rw [hshort] at h
              cases h
          · rintro ⟨length', h, hbig⟩
            cases h
            exact if_pos hbig

theorem Whole.finish_ne_panic (head : Head) (body s : List UInt8) :
    Whole.finish K head body s ≠ .error .panic := by
  rw [Whole.finish]
  split
  · intro h
    cases h
  · intro h
    cases h

/-- **PANIC**: exactly on a stream that declares too large a body. -/
theorem Whole.request_panic_iff (s : List UInt8) :
    Whole.request H K s = .error .panic ↔ DeclaresHuge H K s := by
  constructor
  · intro h
    by_contra hno
    by_cases hhead : ∃ headerLen raw head, H.parse (s.take maxBufSize) = .complete headerLen raw ∧
        toHead K raw = .ok head
    · obtain ⟨headerLen, raw, head, hparse, hhead⟩ := hhead
      rw [Whole.request_of_head H K hparse hhead] at h
      rcases bind_eq_error h with h | ⟨body, t, -, h⟩
      · exact hno ⟨headerLen, raw, head, hparse, hhead, (Whole.body_panic_iff K _ _).mp h⟩
      · exact Whole.finish_ne_panic K head body t h
    · rcases Whole.request_of_no_head H K
        (fun n raw head hp hh => hhead ⟨n, raw, head, hp, hh⟩) with h' | ⟨e, h'⟩
      · rw [h'] at h
        cases h
      · rw [h'] at h
        cases h
  · rintro ⟨headerLen, raw, head, hparse, hhead, hhuge⟩
    rw [Whole.request_of_head H K hparse hhead]
    exact bind_of_error ((Whole.body_panic_iff K _ _).mpr hhuge)

/-- Both parsers fail as the request does. -/
theorem parseRequest_error_iff (fl : Flavor) (p : Parser) (f : Fault) :
    parseRequest H K fl p = .error f ↔ Whole.request H K p.pending = .error f := by
  rw [← parseRequest_refines H K fl p]
  cases parseRequest H K fl p with
  | error g => simp only [view, Except.error.injEq]
  | ok r =>
      constructor
      · intro h
        cases h
      · intro h
        cases h

theorem returns_iff (fl : Flavor) (p : Parser) :
    Returns (parseRequest H K fl p) ↔ ¬ DeclaresHuge H K p.pending := by
  rw [← Whole.request_panic_iff, ← parseRequest_error_iff H K fl]
  have hfuel : parseRequest H K fl p ≠ .error .outOfFuel := by
    rw [ne_eq, parseRequest_error_iff]
    exact Whole.ends_request H K p.pending
  constructor
  · rintro (⟨a, h⟩ | ⟨e, h⟩) hpanic
    · rw [hpanic] at h
      cases h
    · rw [hpanic] at h
      cases h
  · intro hpanic
    cases h : parseRequest H K fl p with
    | ok a => exact Or.inl ⟨a, rfl⟩
    | error f =>
        cases f with
        | err e => exact Or.inr ⟨e, rfl⟩
        | panic => exact absurd h hpanic
        | outOfFuel => exact absurd h hfuel

/-- **NO STREAM BUT THESE**: in every state of the parsers, whatever the bytes and
    the reads that bring them, `parse_request` of both returns `Ok` or `Err`
    exactly if the stream does not declare too large a body. -/
theorem parse_request_returns_iff (p : Parser) :
    (Returns (HttpParser.parseRequest H K p) ∧ Returns (KimojioHttpParser.parseRequest H K p)) ↔
      ¬ DeclaresHuge H K p.pending := by
  constructor
  · rintro ⟨h, -⟩
    exact (returns_iff H K .tokio p).mp h
  · intro h
    exact ⟨(returns_iff H K .tokio p).mpr h, (returns_iff H K .kimojio p).mpr h⟩

/-! ## One header section -/

/-- `HeaderValue::to_str` succeeds on visible ASCII, spaces and tabs. -/
def isText (v : HeaderValue) : Bool := v.all fun b => b == 9 || (32 ≤ b && b < 127)

/-- The `http` crate on header sections of plain text: names in lower case, and a
    value is text if it is visible ASCII, spaces and tabs. -/
def textCrate : HttpCrate where
  methodFromBytes m := some m
  headerNameFromBytes n := some (String.ofList (n.toList.map toAsciiLowercase))
  headerValueFromBytes v := some v
  uriOk _ := true
  toStr v := if isText v then some (v.map asciiChar) else none
  canonicalReason _ := none

/-- A header section whose Content-Length is `usize::MAX`. -/
def hugeLength : List UInt8 :=
  bytes "POST / HTTP/1.1\r\nContent-Length: 18446744073709551615\r\n\r\n"

def hugeLengthParser : Httparse :=
  sectionParser hugeLength
    ⟨some "POST", some "/", some 1, [("Content-Length", bytes "18446744073709551615")]⟩

/-- A Content-Length of `usize::MAX` and no body at all make both parsers
    panic. -/
theorem huge_length_panics :
    HttpParser.parseRequest hugeLengthParser textCrate (.new (Delivery.whole hugeLength))
        = .error .panic ∧
      KimojioHttpParser.parseRequest hugeLengthParser textCrate (.new (Delivery.whole hugeLength))
        = .error .panic := by
  have hhuge : DeclaresHuge hugeLengthParser textCrate
      (Parser.new (Delivery.whole hugeLength)).pending :=
    ⟨hugeLength.length, _, _, rfl, rfl, 18446744073709551615, rfl, by decide⟩
  have hpanic := (Whole.request_panic_iff hugeLengthParser textCrate _).mpr hhuge
  exact ⟨(parseRequest_error_iff _ _ .tokio _ _).mpr hpanic,
    (parseRequest_error_iff _ _ .kimojio _ _).mpr hpanic⟩

end DpdkNet
