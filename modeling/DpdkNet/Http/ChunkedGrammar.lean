import DpdkNet.Lib.Text
import DpdkNet.Http.Chunks

/-! # The chunked coding of RFC 9112

    Section 7.1 as a predicate on bytes, with chunk extensions and a trailer
    section, and what of it `read_chunked_body` checks.  The decoder looks at
    sizes only: it trims them, takes a sign, drops what is between the data and
    the next line feed, and reads one line after the last chunk whatever it is.
    What it accepts is a chunked body exactly if every line it has read is one
    that the grammar has there. -/

namespace DpdkNet

open RustStr Refine

/-! ## The grammar -/

namespace Rfc

/-- `tchar` -/
def isTchar (b : UInt8) : Bool :=
  (48 ≤ b ∧ b ≤ 57) ∨ (65 ≤ b ∧ b ≤ 90) ∨ (97 ≤ b ∧ b ≤ 122) ∨
    b ∈ [33, 35, 36, 37, 38, 39, 42, 43, 45, 46, 94, 95, 96, 124, 126]

/-- `token` -/
def Token (l : List UInt8) : Prop := l ≠ [] ∧ ∀ b ∈ l, isTchar b

/-- `BWS`, spaces and tabs. -/
def Bws (l : List UInt8) : Prop := ∀ b ∈ l, b = 32 ∨ b = 9

/-- `VCHAR`, `obs-text`, space or tab. -/
def isFieldByte (b : UInt8) : Bool := b = 9 ∨ (32 ≤ b ∧ b ≠ 127)

/-- What stands between the quotes of a `quoted-string`. -/
inductive Quoted : List UInt8 → Prop where
  | nil : Quoted []
  | text {b : UInt8} {l : List UInt8} : isFieldByte b → b ≠ 34 → b ≠ 92 → Quoted l → Quoted (b :: l)
  | pair {b : UInt8} {l : List UInt8} : isFieldByte b → Quoted l → Quoted (92 :: b :: l)

/-- `BWS "=" BWS chunk-ext-val` -/
inductive ExtValue : List UInt8 → Prop where
  | token {s t v : List UInt8} : Bws s → Bws t → Token v → ExtValue (s ++ 61 :: (t ++ v))
  | quoted {s t v : List UInt8} : Bws s → Bws t → Quoted v →
      ExtValue (s ++ 61 :: (t ++ 34 :: (v ++ [34])))

/-- `chunk-ext` -/
inductive ChunkExt : List UInt8 → Prop where
  | nil : ChunkExt []
  | name {s t name rest : List UInt8} : Bws s → Bws t → Token name → ChunkExt rest →
      ChunkExt (s ++ 59 :: (t ++ (name ++ rest)))
  | value {s t name val rest : List UInt8} : Bws s → Bws t → Token name → ExtValue val →
      ChunkExt rest → ChunkExt (s ++ 59 :: (t ++ (name ++ (val ++ rest))))

/-- `chunk-size [ chunk-ext ] CR`, the chunk size being `n`: the line that starts
    a chunk, without its line feed. -/
inductive SizeLine : List UInt8 → Nat → Prop where
  | mk {size ext : List UInt8} : IsDigits 16 (size.map asciiChar) → ChunkExt ext →
      SizeLine (size ++ (ext ++ [13])) (digitsValue 16 0 (size.map asciiChar))

/-- `field-line` -/
def FieldLine (l : List UInt8) : Prop :=
  ∃ name value, Token name ∧ (∀ b ∈ value, isFieldByte b) ∧ l = name ++ 58 :: value

/-- `chunked-body`, with the data of its chunks: chunks, each with its data and
    CRLF, a last chunk, the trailer section, and CRLF. -/
inductive ChunkedBody : List UInt8 → List UInt8 → Prop where
  | last {size : List UInt8} {fields : List (List UInt8)} : SizeLine size 0 →
      (∀ l ∈ fields, FieldLine l) →
      ChunkedBody (size ++ 10 :: (fields.flatMap (· ++ crlf) ++ crlf)) []
  | chunk {size data rest body : List UInt8} : SizeLine size data.length → data ≠ [] →
      ChunkedBody rest body → ChunkedBody (size ++ 10 :: (data ++ (crlf ++ rest))) (data ++ body)

/-! ## Its lines -/

theorem Token.noLf {l : List UInt8} (h : Token l) : 10 ∉ l := fun hm => absurd (h.2 10 hm) (by decide)

theorem Bws.noLf {l : List UInt8} (h : Bws l) : 10 ∉ l := fun hm => absurd (h 10 hm) (by decide)

theorem Quoted.noLf {l : List UInt8} (h : Quoted l) : 10 ∉ l := by
  induction h with
  | nil => exact List.not_mem_nil
  | text hb _ _ _ ih =>
      rw [List.mem_cons, not_or]
      refine ⟨?_, ih⟩
      rintro rfl
      exact absurd hb (by decide)
  | pair hb _ ih =>
      rw [List.mem_cons, List.mem_cons, not_or, not_or]
      refine ⟨by decide, ?_, ih⟩
      rintro rfl
      exact absurd hb (by decide)

theorem ExtValue.noLf {l : List UInt8} (h : ExtValue l) : 10 ∉ l := by
  cases h with
  | token hs ht hv =>
      simp only [List.mem_append, List.mem_cons, not_or]
      exact ⟨hs.noLf, by decide, ht.noLf, hv.noLf⟩
  | quoted hs ht hv =>
      simp only [List.mem_append, List.mem_cons, not_or]
      exact ⟨hs.noLf, by decide, ht.noLf, by decide, hv.noLf, by decide, List.not_mem_nil⟩

theorem ChunkExt.noLf {l : List UInt8} (h : ChunkExt l) : 10 ∉ l := by
  induction h with
  | nil => exact List.not_mem_nil
  | name hs ht hn _ ih =>
      simp only [List.mem_append, List.mem_cons, not_or]
      exact ⟨hs.noLf, by decide, ht.noLf, hn.noLf, ih⟩
  | value hs ht hn hv _ ih =>
      simp only [List.mem_append, List.mem_cons, not_or]
      exact ⟨hs.noLf, by decide, ht.noLf, hn.noLf, hv.noLf, ih⟩

/-- An extension starts with a semicolon, after spaces and tabs. -/
theorem ChunkExt.start {l : List UInt8} (h : ChunkExt l) :
    l = [] ∨ ∃ s rest, Bws s ∧ l = s ++ 59 :: rest := by
  cases h with
  | nil => exact Or.inl rfl
  | name hs => exact Or.inr ⟨_, _, hs, rfl⟩
  | value hs => exact Or.inr ⟨_, _, hs, rfl⟩

theorem FieldLine.noLf {l : List UInt8} (h : FieldLine l) : 10 ∉ l := by
  obtain ⟨name, value, hn, hv, rfl⟩ := h
  rw [List.mem_append, List.mem_cons, not_or, not_or]
  exact ⟨hn.noLf, by decide, fun hm => absurd (hv 10 hm) (by decide)⟩

end Rfc

/-- A hex digit is ASCII, and neither white space nor punctuation. -/
theorem hexDigit_byte {b : UInt8} (h : (toDigit 16 (asciiChar b)).isSome) :
    b < 128 ∧ b ≠ 10 ∧ asciiChar b ≠ ';' ∧ isWhitespace (asciiChar b) = false := by
  have hrange := toNat_of_toDigit_sixteen h
  have hb := toNat_asciiChar b
  refine ⟨?_, ?_, ?_, ?_⟩
  · show b.toNat < 128
    omega
  · rintro rfl
    have : (10 : UInt8).toNat = 10 := rfl
    omega
  · intro hc
    rw [hc] at hrange
    revert hrange
    decide
  · refine decide_eq_false ?_
    omega

theorem bws_char {s : List UInt8} (h : Rfc.Bws s) :
    (∀ b ∈ s, b < 128) ∧ ∀ c ∈ s.map asciiChar, isWhitespace c = true ∧ c ≠ ';' := by
  constructor
  · intro b hb
    rcases h b hb with rfl | rfl
    · decide
    · decide
  · intro c hc
    obtain ⟨b, hb, rfl⟩ := List.mem_map.mp hc
    rcases h b hb with rfl | rfl
    · decide
    · decide

theorem Rfc.SizeLine.noLf {raw : List UInt8} {n : Nat} (h : SizeLine raw n) : 10 ∉ raw := by
  cases h with
  | mk hsize hext =>
      simp only [List.mem_append, List.mem_singleton, not_or]
      refine ⟨fun hm => ?_, hext.noLf, by decide⟩
      exact (hexDigit_byte (hsize.2 _ (List.mem_map_of_mem hm))).2.1 rfl

/-- What `read_chunked_body` makes of the text before the first semicolon. -/
theorem chunkSize_padded {size s : List UInt8} (hsize : IsDigits 16 (size.map asciiChar))
    (hs : Rfc.Bws s) {rest : List Char} (hrest : rest = [] ∨ ∃ t, rest = ';' :: t) :
    chunkSize (size.map asciiChar ++ (s.map asciiChar ++ rest))
      = fromStrRadix 16 (size.map asciiChar) := by
  have hdigit : ∀ c ∈ size.map asciiChar, c ≠ ';' ∧ isWhitespace c = false := by
    intro c hc
    have h := hsize.2 c hc
    obtain ⟨b, -, rfl⟩ := List.mem_map.mp hc
    exact (hexDigit_byte h).2.2
  have hspace := (bws_char hs).2
  have hsplit : splitFirst ';' (size.map asciiChar ++ (s.map asciiChar ++ rest))
      = [] ++ (size.map asciiChar ++ s.map asciiChar) := by
    have hend : rest.takeWhile (· ≠ ';') = [] := by
      rcases hrest with rfl | ⟨t, rfl⟩
      · rfl
      · exact List.takeWhile_cons_of_neg (by decide)
    rw [splitFirst,
      List.takeWhile_append_of_pos fun c hc => decide_eq_true (hdigit c hc).1,
      List.takeWhile_append_of_pos fun c hc => decide_eq_true (hspace c hc).2,
      hend, List.append_nil, List.nil_append]
  rw [chunkSize, hsplit, trim_padded (fun c hc => absurd hc List.not_mem_nil)
    (fun c hc => (hdigit c hc).2) (fun c hc => (hspace c hc).1)]

/-- What it makes of a line with digits and an extension, if there is one. -/
theorem chunkSize_finishLine {size ext : List UInt8} (hsize : IsDigits 16 (size.map asciiChar))
    (hext : ext = [] ∨ ∃ s rest, Rfc.Bws s ∧ ext = s ++ 59 :: rest) :
    chunkSize (finishLine (size ++ (ext ++ [13]))) = fromStrRadix 16 (size.map asciiChar) := by
  have hascii : ∀ b ∈ size, b < 128 :=
    fun b hb => (hexDigit_byte (hsize.2 _ (List.mem_map_of_mem hb))).1
  have hfinish : finishLine (size ++ (ext ++ [13])) = fromUtf8Lossy (size ++ ext) := by
    rw [finishLine, ← List.append_assoc, List.getLast?_concat, List.dropLast_concat, if_pos rfl]
  rw [hfinish, fromUtf8Lossy_ascii hascii]
  rcases hext with rfl | ⟨s, rest, hs, rfl⟩
  · exact chunkSize_padded hsize (s := []) (fun b hb => absurd hb List.not_mem_nil) (Or.inl rfl)
  · have hsemi : fromUtf8Lossy (59 :: rest) = ';' :: fromUtf8Lossy rest :=
      fromUtf8Lossy_ascii (l := [59]) (fun b hb => by rw [List.mem_singleton.mp hb]; decide) rest
    rw [fromUtf8Lossy_ascii (bws_char hs).1, hsemi]
    exact chunkSize_padded hsize hs (Or.inr ⟨_, rfl⟩)

/-- A size line of the grammar is read as its number, if it is read at all. -/
theorem chunkSize_sizeLine {raw : List UInt8} {n m : Nat} (h : Rfc.SizeLine raw n)
    (hm : chunkSize (finishLine raw) = some m) : n = m := by
  cases h with
  | mk hsize hext =>
      rw [chunkSize_finishLine hsize hext.start, fromStrRadix_digits (by decide) hsize] at hm
      split at hm
      · exact Option.some.inj hm
      · cases hm

/-! ## Readings -/

/-- Every line is one that the grammar has at its place. -/
structure ChunkedReading.Strict (r : ChunkedReading) : Prop where
  sizes : ∀ c ∈ r.chunks, ∃ n, Rfc.SizeLine c.size.raw n
  afters : ∀ c ∈ r.chunks, c.after.raw = [13]
  last : ∃ n, Rfc.SizeLine r.last.raw n
  trailer : r.trailer.raw = [13]

theorem lf_not_mem_cr : (10 : UInt8) ∉ [13] := by decide

/-- The first line of a text is unique. -/
theorem Line.eq_of_append {l : Line} {raw s t : List UInt8} (hraw : 10 ∉ raw)
    (h : l.bytes ++ s = raw ++ 10 :: t) : l.raw = raw ∧ s = t := by
  rw [l.bytes_append] at h
  exact append_sep_inj l.noLf hraw h

/-- After the last chunk the grammar has one line only if it is empty. -/
theorem trailer_of_grammar {l : Line} {fields : List (List UInt8)}
    (hfields : ∀ f ∈ fields, Rfc.FieldLine f)
    (h : l.bytes = fields.flatMap (· ++ crlf) ++ crlf) : l.raw = [13] := by
  cases fields with
  | nil =>
      have h' : l.bytes ++ [] = [13] ++ 10 :: [] := by rw [List.append_nil]; exact h
      exact (Line.eq_of_append lf_not_mem_cr h').1
  | cons f fields =>
      have hf : 10 ∉ f ++ [13] := by
        rw [List.mem_append, not_or]
        exact ⟨(hfields f List.mem_cons_self).noLf, lf_not_mem_cr⟩
      have h' : l.bytes ++ [] = (f ++ [13]) ++ 10 :: (fields.flatMap (· ++ crlf) ++ crlf) := by
        rw [List.append_nil, h, List.flatMap_cons, crlf]
        simp only [List.append_assoc, List.cons_append, List.nil_append]
      have hnil := (Line.eq_of_append hf h').2
      rw [crlf] at hnil
      exact absurd hnil.symm (List.append_ne_nil_of_right_ne_nil _ (List.cons_ne_nil _ _))

/-- A chunked body is a last chunk with what follows it, or starts with a
    chunk. -/
theorem Rfc.ChunkedBody.inv {c b : List UInt8} (h : ChunkedBody c b) :
    (∃ (size : List UInt8) (fields : List (List UInt8)), SizeLine size 0 ∧
      (∀ l ∈ fields, FieldLine l) ∧
      c = size ++ 10 :: (fields.flatMap (· ++ crlf) ++ crlf) ∧ b = []) ∨
    (∃ size data rest body : List UInt8, SizeLine size data.length ∧ data ≠ [] ∧
      ChunkedBody rest body ∧
      c = size ++ 10 :: (data ++ (crlf ++ rest)) ∧ b = data ++ body) := by
  cases h with
  | last hsize hfields => exact Or.inl ⟨_, _, hsize, hfields, rfl, rfl⟩
  | chunk hsize hne hrest => exact Or.inr ⟨_, _, _, _, hsize, hne, hrest, rfl, rfl⟩

/-- A chunk that the grammar has at the front of the bytes has strict lines. -/
theorem Chunk.strict_of_grammar {c : Chunk} {size data s t : List UInt8}
    (hsize : Rfc.SizeLine size data.length)
    (h : c.bytes ++ s = size ++ 10 :: (data ++ (crlf ++ t))) :
    c.size.raw = size ∧ c.data = data ∧ c.after.raw = [13] ∧ s = t := by
  rw [Chunk.bytes, List.append_assoc, List.append_assoc] at h
  obtain ⟨hraw, hrest⟩ := Line.eq_of_append hsize.noLf h
  have hann := c.announced
  rw [Line.text, hraw] at hann
  have hlen : data.length = c.data.length := chunkSize_sizeLine hsize hann
  obtain ⟨hdata, hafter⟩ := List.append_inj hrest hlen.symm
  obtain ⟨hcr, hs⟩ := Line.eq_of_append lf_not_mem_cr hafter
  exact ⟨hraw, hdata, hcr, hs⟩

theorem ChunkedReading.strict_cons {c : Chunk} {r : ChunkedReading} :
    (r.cons c).Strict ↔ (∃ n, Rfc.SizeLine c.size.raw n) ∧ c.after.raw = [13] ∧ r.Strict := by
  constructor
  · rintro ⟨hsizes, hafters, hlast, htrailer⟩
    have hs := List.forall_mem_cons.mp hsizes
    have ha := List.forall_mem_cons.mp hafters
    exact ⟨hs.1, ha.1, ⟨hs.2, ha.2, hlast, htrailer⟩⟩
  · rintro ⟨hsize, hafter, hsizes, hafters, hlast, htrailer⟩
    exact ⟨List.forall_mem_cons.mpr ⟨hsize, hsizes⟩, List.forall_mem_cons.mpr ⟨hafter, hafters⟩,
      hlast, htrailer⟩

/-- A reading that is a chunked body of the grammar has strict lines. -/
theorem ChunkedReading.strict_of_chunkedBody (r : ChunkedReading) :
    Rfc.ChunkedBody r.bytes r.body → r.Strict := by
  induction r using ChunkedReading.induction with
  | nil last trailer hlast =>
      intro h
      rcases h.inv with ⟨size, fields, hsize, hfields, hbytes, -⟩ | ⟨_, data, _, body, _, hne, _, _, hbody⟩
      · obtain ⟨hraw, hrest⟩ := Line.eq_of_append hsize.noLf hbytes
        exact ⟨fun c hc => absurd hc List.not_mem_nil, fun c hc => absurd hc List.not_mem_nil,
          ⟨0, hraw ▸ hsize⟩, trailer_of_grammar hfields hrest⟩
      · exact absurd hbody.symm (List.append_ne_nil_of_left_ne_nil hne body)
  | cons c r ih =>
      intro h
      rw [bytes_cons, body_cons] at h
      rcases h.inv with ⟨_, _, _, _, _, hbody⟩ | ⟨size, data, rest, body, hsize, hne, hrest, hbytes, hbody⟩
      · exact absurd hbody (List.append_ne_nil_of_left_ne_nil c.nonempty _)
      · obtain ⟨hraw, hdata, hafter, rfl⟩ := Chunk.strict_of_grammar hsize hbytes
        rw [hdata, List.append_cancel_left_eq] at hbody
        rw [← hbody] at hrest
        exact strict_cons.mpr ⟨⟨data.length, hraw ▸ hsize⟩, hafter, ih hrest⟩

/-- A reading with strict lines is a chunked body of the grammar. -/
theorem ChunkedReading.chunkedBody_of_strict (r : ChunkedReading) :
    r.Strict → Rfc.ChunkedBody r.bytes r.body := by
  induction r using ChunkedReading.induction with
  | nil last trailer hlast =>
      rintro ⟨-, -, ⟨n, hsize⟩, htrailer⟩
      have h0 : n = 0 := chunkSize_sizeLine hsize hlast
      rw [h0] at hsize
      have hnone : ∀ l ∈ ([] : List (List UInt8)), Rfc.FieldLine l :=
        fun l hl => absurd hl List.not_mem_nil
      have hbytes : bytes ⟨[], last, trailer, hlast⟩
          = last.raw ++ 10 :: ([].flatMap (· ++ crlf) ++ crlf) := by
        rw [bytes, List.flatMap_nil, List.nil_append, Line.bytes_append, Line.bytes, htrailer]
        rfl
      rw [hbytes]
      exact Rfc.ChunkedBody.last hsize hnone
  | cons c r ih =>
      intro h
      obtain ⟨⟨n, hsize⟩, hafter, hr⟩ := strict_cons.mp h
      have hn : n = c.data.length := chunkSize_sizeLine hsize c.announced
      rw [hn] at hsize
      have hbytes : c.bytes ++ r.bytes = c.size.raw ++ 10 :: (c.data ++ (crlf ++ r.bytes)) := by
        rw [Chunk.bytes, List.append_assoc, Line.bytes_append, List.append_assoc, Line.bytes, hafter]
        rfl
      rw [bytes_cons, body_cons, hbytes]
      exact Rfc.ChunkedBody.chunk hsize c.nonempty (ih hr)

/-! ## The decoders -/

/-- A body is returned for the bytes of a chunked body of the grammar only, and
    whatever else happens is an error. -/
def AcceptsChunkedBody (p : Parser) (result : Except Fault (List UInt8 × Parser)) : Prop :=
  match result with
  | .ok (body, p') => ∃ c, p.pending = c ++ p'.pending ∧ Rfc.ChunkedBody c body
  | .error f => ∃ e, f = .err e

theorem acceptsChunkedBody_iff (fl : Flavor) (p : Parser) :
    AcceptsChunkedBody p (readChunkedBody fl p) ↔
      ¬ HugeChunk p.pending ∧ ∀ r : ChunkedReading, r.bytes <+: p.pending → r.Strict := by
  have href := readChunkedBody_refines fl p
  rw [← Whole.chunkedBody_panic_iff]
  cases hres : readChunkedBody fl p with
  | ok a =>
      obtain ⟨body, p'⟩ := a
      rw [hres] at href
      have hok : Whole.chunkedBody p.pending = .ok (body, p'.pending) := href.symm
      constructor
      · rintro ⟨c, hc, hbody⟩
        refine ⟨fun hpanic => ?_, ?_⟩
        · rw [hok] at hpanic
          cases hpanic
        · -- there is only one reading of the stream
          rintro r ⟨t, ht⟩
          have hr := Whole.chunkedBody_reading r t
          rw [ht, hok] at hr
          cases hr
          have hbytes : r.bytes = c := by
            rw [← ht] at hc
            exact List.append_cancel_right hc
          exact r.strict_of_chunkedBody (hbytes ▸ hbody)
      · rintro ⟨-, hstrict⟩
        obtain ⟨r, hr, rfl⟩ := Whole.chunkedBody_ok hok
        exact ⟨r.bytes, hr, r.chunkedBody_of_strict (hstrict r ⟨_, hr.symm⟩)⟩
  | error f =>
      rw [hres] at href
      have herr : Whole.chunkedBody p.pending = .error f := href.symm
      have hfuel : f ≠ .outOfFuel := by
        rintro rfl
        exact Whole.chunkedLoop_ends (p.pending.length + 1) [] p.pending (Nat.lt_succ_self _) herr
      rw [herr]
      constructor
      · rintro ⟨e, rfl⟩
        refine ⟨fun h => (by cases h), ?_⟩
        rintro r ⟨t, ht⟩
        have hr := Whole.chunkedBody_reading r t
        rw [ht, herr] at hr
        cases hr
      · rintro ⟨hpanic, -⟩
        cases f with
        | err e => exact ⟨e, rfl⟩
        | panic => exact absurd rfl hpanic
        | outOfFuel => exact absurd rfl hfuel

/-- **ONLY THESE STREAMS**: whatever has been buffered and however the rest
    arrives, both decoders return a body only for a chunked body of RFC 9112, with
    its data, and an error otherwise, exactly if no size on the way is too large
    to allocate and every line of what they would accept is strict. -/
theorem chunked_bodies_wellFormed_iff (p : Parser) :
    (AcceptsChunkedBody p (readChunkedBody .tokio p) ∧
      AcceptsChunkedBody p (readChunkedBody .kimojio p)) ↔
      ¬ HugeChunk p.pending ∧ ∀ r : ChunkedReading, r.bytes <+: p.pending → r.Strict := by
  rw [acceptsChunkedBody_iff, acceptsChunkedBody_iff, and_self]

/-- A chunk of five bytes with a sixth behind its data. -/
def sixInFive : ChunkedReading where
  chunks := [⟨⟨bytes "5\r", by decide⟩, bytes "hello", ⟨bytes "X\r", by decide⟩, by decide,
    by decide, by decide⟩]
  last := ⟨bytes "0\r", by decide⟩
  trailer := ⟨bytes "\r", by decide⟩
  announced := by decide

/-- The sixth byte is dropped and the body accepted. -/
theorem six_in_five_accepted :
    ¬ AcceptsChunkedBody (.new (Delivery.whole (bytes "5\r\nhelloX\r\n0\r\n\r\n")))
        (readChunkedBody .tokio (.new (Delivery.whole (bytes "5\r\nhelloX\r\n0\r\n\r\n")))) ∧
      ¬ AcceptsChunkedBody (.new (Delivery.whole (bytes "5\r\nhelloX\r\n0\r\n\r\n")))
        (readChunkedBody .kimojio
          (.new (Delivery.whole (bytes "5\r\nhelloX\r\n0\r\n\r\n")))) := by
  have hloose : ¬ ∀ r : ChunkedReading,
      r.bytes <+: (Parser.new (Delivery.whole (bytes "5\r\nhelloX\r\n0\r\n\r\n"))).pending →
        r.Strict := by
    intro h
    have hafter := (h sixInFive ⟨[], rfl⟩).afters _ List.mem_cons_self
    cases hafter
  constructor
  · intro h
    exact hloose ((acceptsChunkedBody_iff _ _).mp h).2
  · intro h
    exact hloose ((acceptsChunkedBody_iff _ _).mp h).2

end DpdkNet
