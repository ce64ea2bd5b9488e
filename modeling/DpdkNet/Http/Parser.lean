import DpdkNet.Lib.Delivery
import DpdkNet.Lib.Refine
import DpdkNet.Http.Message

/-! # The two request parsers

    `HttpParser` of `custom_http.rs` and `KimojioHttpParser` of
    `kimojio_server.rs` are the same code but for one thing: what is missing of
    a body is read with tokio's `read_exact` by the first and in slices of at
    most 8192 bytes by the second.  Here it is one parser with a `Flavor`.

    A parser is its buffer (the valid bytes `buf[..len]` and the size
    `buf.len()`) and the reader behind it.  A panic and an error end a
    computation; loops carry fuel, always more than the bytes that are left. -/

namespace DpdkNet

open RustStr

/-- Initial buffer size for reading headers. -/
def initialBufSize : Nat := 1024

/-- Maximum buffer size for headers (64 KB). -/
def maxBufSize : Nat := 64 * 1024

/-- The buffer: it starts at 1 KB and doubles, up to 64 KB. -/
structure Buf where
  data : List UInt8
  cap : Nat
  le : data.length ≤ cap
  cap_pow : ∃ i ≤ 6, cap = initialBufSize * 2 ^ i

namespace Buf

def new : Buf where
  data := []
  cap := initialBufSize
  le := Nat.zero_le _
  cap_pow := ⟨0, Nat.zero_le _, rfl⟩

/-- `copy_within(n..len, 0); len -= n` -/
def drop (b : Buf) (n : Nat) : Buf :=
  { b with
    data := b.data.drop n
    le := by
      rw [List.length_drop]
      exact Nat.le_trans (Nat.sub_le _ _) b.le }

/-- `len = 0` -/
def clear (b : Buf) : Buf := { b with data := [], le := Nat.zero_le _ }

/-- Make room for a read: double a full buffer, unless it is at its maximum. -/
def grow (b : Buf) : Option Buf :=
  if b.data.length = b.cap then
    if h : maxBufSize ≤ b.cap then none
    else some
      { b with
        cap := b.cap * 2
        le := by have := b.le; omega
        cap_pow := by
          obtain ⟨i, hi, hcap⟩ := b.cap_pow
          have hlt : i < 6 := by
            rcases Nat.lt_or_eq_of_le hi with h' | h'
            · exact h'
            · subst h'
              exact absurd (Nat.le_of_eq hcap.symm) h
          exact ⟨i + 1, hlt, by rw [hcap, Nat.pow_succ, Nat.mul_assoc]⟩ }
  else some b

/-- Append what a read put behind the valid bytes. -/
def extend (b : Buf) (c : List UInt8) (h : c.length ≤ b.cap - b.data.length) : Buf :=
  { b with
    data := b.data ++ c
    le := by
      have := b.le
      rw [List.length_append]
      omega }

end Buf

/-- A parser: its buffer and the reader. -/
structure Parser where
  buf : Buf
  reader : Delivery UInt8

def Parser.new (reader : Delivery UInt8) : Parser := ⟨.new, reader⟩

/-- Everything not consumed yet: the buffer, then what the reader will deliver. -/
def Parser.pending (p : Parser) : List UInt8 := p.buf.data ++ p.reader.content

/-- Why a computation ends early. -/
inductive Fault where
  | err (e : ParseError)
  | panic
  | outOfFuel
  deriving DecidableEq, Repr

abbrev ParseM := StateT Parser (Except Fault)

/-- How the rest of a body is read: the size of the slice offered to the reader
    when `n` bytes are missing. -/
structure Flavor where
  offer : Nat → Nat
  offer_pos : ∀ n, 0 < n → 0 < offer n
  offer_le : ∀ n, offer n ≤ n

/-- tokio's `read_exact` offers all that is missing. -/
def Flavor.tokio : Flavor := ⟨id, fun _ h => h, fun _ => Nat.le_refl _⟩

/-- The kimojio loops offer at most 8192 bytes at a time. -/
def Flavor.kimojio : Flavor :=
  ⟨fun n => min n 8192, fun _ h => Nat.lt_min.mpr ⟨h, by decide⟩, fun _ => Nat.min_le_left _ _⟩

/-! ## Primitives -/

/-- `&self.buf[..self.len]` -/
def valid : ParseM (List UInt8) := fun p => .ok (p.buf.data, p)

/-- Remove bytes from the front of the buffer; panics if they are not there. -/
def consumeBuf (n : Nat) : ParseM Unit := fun p =>
  if n ≤ p.buf.data.length then .ok ((), { p with buf := p.buf.drop n }) else .error .panic

/-- `self.len = 0` -/
def clearBuf : ParseM Unit := fun p => .ok ((), { p with buf := p.buf.clear })

/-- `Vec::with_capacity`: panics above `isize::MAX`. -/
def withCapacity (n : Nat) : ParseM Unit := fun p =>
  if isizeMax < n then .error .panic else .ok ((), p)

/-- Read more data into the buffer. -/
def readMore : ParseM Nat := fun p =>
  match p.buf.grow with
  | none => .error (.err .headersTooLarge)
  | some b =>
      .ok ((p.reader.read (b.cap - b.data.length)).1.length,
        ⟨b.extend (p.reader.read (b.cap - b.data.length)).1 (p.reader.length_read_le _),
          (p.reader.read (b.cap - b.data.length)).2⟩)

/-- Read `n` bytes past the buffer. -/
def readRest (fl : Flavor) (n : Nat) : ParseM (List UInt8) := fun p =>
  match p.reader.fill fl.offer n n [] with
  | none => .error (.err .connectionClosed)
  | some (data, reader) => .ok (data, { p with reader })

/-! ## Headers -/

/-- What the header section says. -/
structure Head where
  method : String
  uri : String
  version : Version
  headers : HeaderMap

variable (H : Httparse) (K : HttpCrate)

/-- Convert headers to a `HeaderMap`. -/
def headerMap : List (String × List UInt8) → HeaderMap → Except ParseError HeaderMap
  | [], m => .ok m
  | h :: hs, m =>
      match K.headerNameFromBytes h.1 with
      | none => .error .invalidHeader
      | some name =>
          match K.headerValueFromBytes h.2 with
          | none => .error .invalidHeader
          | some value => headerMap hs (m.insert name value)

/-- Check and convert the parsed fields, in the order of the source. -/
def toHead (raw : RawRequest) : Except ParseError Head := do
  let method ←
    match K.methodFromBytes (raw.method.getD "") with
    | some method => pure method
    | none => throw .invalidMethod
  let version ←
    match raw.version with
    | some 0 => pure Version.http10
    | some 1 => pure Version.http11
    | _ => throw .invalidVersion
  let headers ← headerMap K raw.headers []
  pure ⟨method, raw.path.getD "/", version, headers⟩

/-- The loop of `parse_headers`. -/
def parseHeadersLoop : Nat → ParseM (Option (Head × Nat))
  | 0 => throw .outOfFuel
  | fuel + 1 => do
      let data ← valid
      match H.parse data with
      | .error e => throw (.err (.parse e))
      | .complete headerLen raw =>
          match toHead K raw with
          | .error e => throw (.err e)
          | .ok head => pure (some (head, headerLen))
      | .more =>
          if data.length = 0 then
            -- first read: is the connection closed?
            let n ← readMore
            if n = 0 then pure none else parseHeadersLoop fuel
          else
            let n ← readMore
            if n = 0 then throw (.err .connectionClosed) else parseHeadersLoop fuel

/-- Read data until the headers are complete and parse them. -/
def parseHeaders : ParseM (Option (Head × Nat)) := fun p =>
  parseHeadersLoop H K (p.reader.content.length + 1) p

/-! ## Bodies -/

/-- Read an exact number of bytes, from the buffer first. -/
def readExact (fl : Flavor) (len : Nat) : ParseM (List UInt8) := do
  withCapacity len
  let data ← valid
  let fromBuf := min data.length len
  consumeBuf fromBuf
  if fromBuf < len then
    let rest ← readRest fl (len - fromBuf)
    pure (data.take fromBuf ++ rest)
  else pure (data.take fromBuf)

/-- Read a fixed-size body. -/
def readFixedBody (fl : Flavor) (length : Nat) : ParseM (List UInt8) := readExact fl length

/-- Remove a trailing CR and decode. -/
def finishLine (line : List UInt8) : List Char :=
  fromUtf8Lossy (if line.getLast? = some 13 then line.dropLast else line)

/-- The loop of `read_line`. -/
def readLineLoop : Nat → List UInt8 → ParseM (List Char)
  | 0, _ => throw .outOfFuel
  | fuel + 1, line => do
      let data ← valid
      match data.findIdx? (· == 10) with
      | some pos =>
          consumeBuf (pos + 1)
          pure (finishLine (line ++ data.take pos))
      | none =>
          clearBuf
          let n ← readMore
          if n = 0 then throw (.err .connectionClosed) else readLineLoop fuel (line ++ data)

/-- Read a line (up to CRLF). -/
def readLine : ParseM (List Char) := fun p =>
  readLineLoop (p.reader.content.length + 1) [] p

/-- The size that a chunk's first line announces. -/
def chunkSize (sizeLine : List Char) : Option Nat :=
  fromStrRadix 16 (trim (splitFirst ';' sizeLine))

/-- The loop of `read_chunked_body`. -/
def readChunkedLoop (fl : Flavor) : Nat → List UInt8 → ParseM (List UInt8)
  | 0, _ => throw .outOfFuel
  | fuel + 1, body => do
      let sizeLine ← readLine
      match chunkSize sizeLine with
      | none => throw (.err .invalidContentLength)
      | some size =>
          if size = 0 then
            let _ ← readLine
            pure body
          else
            let chunk ← readExact fl size
            let _ ← readLine
            readChunkedLoop fl fuel (body ++ chunk)

/-- Read a chunked transfer-encoded body. -/
def readChunkedBody (fl : Flavor) : ParseM (List UInt8) := fun p =>
  readChunkedLoop fl (p.pending.length + 1) [] p

/-- Read the request body. -/
def readBody (fl : Flavor) (headers : HeaderMap) : ParseM (List UInt8) :=
  if isChunked K headers then readChunkedBody fl
  else
    match getContentLength K headers with
    | some length => readFixedBody fl length
    | none => pure []

/-- Parse a request; `none` if the connection was closed before any data. -/
def parseRequest (fl : Flavor) : ParseM (Option Request) := do
  match ← parseHeaders H K with
  | none => pure none
  | some (head, headerLen) =>
      consumeBuf headerLen
      let body ← readBody K fl head.headers
      if K.uriOk head.uri then
        pure (some ⟨head.method, head.uri, head.version, head.headers, body⟩)
      else throw (.err .invalidUri)

/-- `HttpParser::parse_request` -/
def HttpParser.parseRequest : ParseM (Option Request) := DpdkNet.parseRequest H K .tokio

/-- `KimojioHttpParser::parse_request` -/
def KimojioHttpParser.parseRequest : ParseM (Option Request) := DpdkNet.parseRequest H K .kimojio

/-- `KimojioHttpParser::reset` -/
def KimojioHttpParser.reset (p : Parser) : Parser := { p with buf := p.buf.clear }

end DpdkNet
