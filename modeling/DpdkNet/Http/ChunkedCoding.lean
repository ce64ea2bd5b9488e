import DpdkNet.Http.ChunkedGrammar

/-! # Encoding and decoding of chunked bodies

    A sender cuts a body into chunks, spells the size of each in hex as it likes
    and may put an extension behind a size.  The decoder gets the body back from
    every such encoding, wherever the bytes are cut into what is buffered and what
    is still to be read, and does not touch what follows. -/

namespace DpdkNet

open RustStr Refine

/-- A spelling of the size `n`: hex digits of either case, with any number of
    leading zeros, and an extension of any text without a line feed. -/
structure SizeSpelling (n : Nat) where
  digits : List UInt8
  ext : Option (List UInt8)
  isHex : IsDigits 16 (digits.map asciiChar)
  value : digitsValue 16 0 (digits.map asciiChar) = n
  noLf : ∀ text, ext = some text → 10 ∉ text

/-- A semicolon and the extension, if there is one. -/
def extBytes : Option (List UInt8) → List UInt8
  | none => []
  | some text => 59 :: text

namespace SizeSpelling

variable {n : Nat}

/-- The line, up to its line feed. -/
def raw (z : SizeSpelling n) : List UInt8 := z.digits ++ (extBytes z.ext ++ [13])

theorem raw_noLf (z : SizeSpelling n) : 10 ∉ z.raw := by
  have hdigits : 10 ∉ z.digits := fun hm =>
    (hexDigit_byte (z.isHex.2 _ (List.mem_map_of_mem hm))).2.1 rfl
  have hext : 10 ∉ extBytes z.ext := by
    cases h : z.ext with
    | none => exact List.not_mem_nil
    | some text =>
        rw [extBytes, List.mem_cons, not_or]
        exact ⟨by decide, z.noLf text h⟩
  rw [raw, List.mem_append, List.mem_append, not_or, not_or]
  exact ⟨hdigits, hext, lf_not_mem_cr⟩

def line (z : SizeSpelling n) : Line := ⟨z.raw, z.raw_noLf⟩

/-- **SIZES**: every spelling is read as the size it spells. -/
theorem announces (z : SizeSpelling n) (hn : n ≤ usizeMax) : chunkSize z.line.text = some n := by
  have hext : extBytes z.ext = [] ∨ ∃ s rest, Rfc.Bws s ∧ extBytes z.ext = s ++ 59 :: rest := by
    cases z.ext with
    | none => exact Or.inl rfl
    | some text => exact Or.inr ⟨[], text, fun b hb => absurd hb List.not_mem_nil, rfl⟩
  show chunkSize (finishLine z.raw) = some n
  rw [raw, chunkSize_finishLine z.isHex hext, fromStrRadix_digits (by decide) z.isHex, z.value,
    if_pos hn]

end SizeSpelling

/-- A chunk and the spelling of its size.  Its data is a byte slice, so not longer
    than `isize::MAX`. -/
structure EncodedChunk where
  data : List UInt8
  size : SizeSpelling data.length
  nonempty : data ≠ []
  slice : data.length ≤ isizeMax

def EncodedChunk.bytes (c : EncodedChunk) : List UInt8 := c.size.line.bytes ++ (c.data ++ crlf)

/-- Chunks, then the zero chunk. -/
structure ChunkedEncoding where
  chunks : List EncodedChunk
  zero : SizeSpelling 0

namespace ChunkedEncoding

def body (e : ChunkedEncoding) : List UInt8 := e.chunks.flatMap EncodedChunk.data

def bytes (e : ChunkedEncoding) : List UInt8 :=
  e.chunks.flatMap EncodedChunk.bytes ++ (e.zero.line.bytes ++ crlf)

end ChunkedEncoding

/-! ## Encodings are readings -/

/-- The line behind the data of a chunk, and the one behind the zero chunk. -/
def crLine : Line := ⟨[13], lf_not_mem_cr⟩

def EncodedChunk.chunk (c : EncodedChunk) : Chunk where
  size := c.size.line
  data := c.data
  after := crLine
  announced := c.size.announces (Nat.le_trans c.slice (by decide))
  nonempty := c.nonempty
  fits := c.slice

/-- What the decoder makes of an encoding. -/
def ChunkedEncoding.reading (e : ChunkedEncoding) : ChunkedReading where
  chunks := e.chunks.map EncodedChunk.chunk
  last := e.zero.line
  trailer := crLine
  announced := e.zero.announces (Nat.zero_le _)

theorem ChunkedEncoding.bytes_reading (e : ChunkedEncoding) : e.reading.bytes = e.bytes := by
  show (e.chunks.map EncodedChunk.chunk).flatMap Chunk.bytes ++ _ = _
  rw [List.flatMap_map]
  rfl

theorem ChunkedEncoding.body_reading (e : ChunkedEncoding) : e.reading.body = e.body := by
  show (e.chunks.map EncodedChunk.chunk).flatMap Chunk.data = _
  rw [List.flatMap_map]
  rfl

/-- **DECODING UNDOES ENCODING**: with the bytes of an encoding and anything behind
    them in the buffer and the reads to come, `read_chunked_body` of both parsers
    returns the body and leaves what is behind. -/
theorem readChunkedBody_encoded (e : ChunkedEncoding) (s : List UInt8) (p : Parser)
    (hp : p.pending = e.bytes ++ s) :
    (∃ p', readChunkedBody .tokio p = .ok (e.body, p') ∧ p'.pending = s) ∧
      ∃ p', readChunkedBody .kimojio p = .ok (e.body, p') ∧ p'.pending = s := by
  have hread : ∀ fl, ∃ p', readChunkedBody fl p = .ok (e.body, p') ∧ p'.pending = s := by
    intro fl
    have h := readChunkedBody_refines fl p
    rw [hp, ← e.bytes_reading, Whole.chunkedBody_reading, e.body_reading] at h
    exact view_eq_ok h
  exact ⟨hread .tokio, hread .kimojio⟩

/-- Two lines in one chunk, its size with a leading zero and an extension. -/
def twoLines : ChunkedEncoding where
  chunks := [{
    data := bytes "one\r\ntwo\r\n"
    size := ⟨bytes "0A", some (bytes "n=\"1\""), by decide, by decide, by
      intro text h
      cases h
      decide⟩
    nonempty := by decide
    slice := by decide }]
  zero := ⟨bytes "0", none, by decide, by decide, nofun⟩

/-- It is read from two pieces, the first of which ends within the line feeds of
    the data. -/
theorem twoLines_cut_in_data :
    twoLines.bytes = bytes "0A;n=\"1\"\r\none\r\ntwo\r\n\r\n0\r\n\r\n" ∧
    ∃ p', readChunkedBody .tokio (.new ⟨[twoLines.bytes.take 14, twoLines.bytes.drop 14 ++ bytes "GET"],
        by decide⟩) = .ok (bytes "one\r\ntwo\r\n", p') ∧ p'.pending = bytes "GET" :=
  ⟨by decide, (readChunkedBody_encoded twoLines (bytes "GET") _ (by decide)).1⟩

end DpdkNet
