import DpdkNet.Lib.Text
import DpdkNet.Http.ReadBoundaries

/-! # The raw client of the benchmark

    `raw_client.rs` reads a response with as little parsing as possible: it looks
    for the blank line in what has arrived, takes the Content-Length from what is
    before it, and reads until that many bytes are behind it.  The buffer is
    doubled when it is full and kept for the next response.

    The server's side is `serialize_response`, written independently.  The two
    agree: a response that arrives in any pieces is read to its end and no
    further. -/

namespace DpdkNet.Bench

open RustStr

/-! ## The header section -/

/-- Find the end of HTTP headers (position after `\r\n\r\n`). -/
def findHeaderEnd (data : List UInt8) : Option Nat :=
  ((List.range (data.length - 3)).find? fun i =>
    (data.drop i).take 4 == bytes "\r\n\r\n").map (· + 4)

/-- The number in the first line that is a Content-Length. -/
def contentLengthIn : List (List Char) → Option Nat
  | [] => none
  | line :: rest =>
      match stripPrefix (line.map toAsciiLowercase) "content-length:".toList with
      | some value => fromStrRadix 10 (trim value)
      | none => contentLengthIn rest

/-- Parse Content-Length from headers. -/
def parseContentLength (headers : List UInt8) : Option Nat :=
  match fromUtf8 headers with
  | none => none
  | some headersStr => contentLengthIn (lines headersStr)

/-! ## Reading a response -/

inductive ReadError where
  | unexpectedEof (message : String)
  | outOfFuel
  deriving DecidableEq, Repr

/-- The variables of the read loop: `buf[..total_read]` and `buf.len()`. -/
structure ReadState where
  data : List UInt8
  cap : Nat
  headersEnd : Option Nat
  contentLength : Option Nat
  stream : Delivery UInt8

namespace ReadState

def new (cap : Nat) (stream : Delivery UInt8) : ReadState := ⟨[], cap, none, none, stream⟩

/-- `total_read += s.read(&mut buf[total_read..])` -/
def read (st : ReadState) : ReadState :=
  { st with
    data := st.data ++ (st.stream.read (st.cap - st.data.length)).1
    stream := (st.stream.read (st.cap - st.data.length)).2 }

/-- Look for the end of headers, unless it is known. -/
def lookForHeaders (st : ReadState) : ReadState :=
  match st.headersEnd with
  | some _ => st
  | none =>
      match findHeaderEnd st.data with
      | none => st
      | some pos =>
          { st with headersEnd := some pos, contentLength := parseContentLength (st.data.take pos) }

/-- Is the response complete?  Without a Content-Length it is once the headers
    are. -/
def complete (st : ReadState) : Bool :=
  match st.headersEnd with
  | none => false
  | some hdrEnd =>
      match st.contentLength with
      | some cl => cl ≤ st.data.length - hdrEnd
      | none => true

/-- Double a full buffer. -/
def grow (st : ReadState) : ReadState :=
  if st.cap ≤ st.data.length then { st with cap := st.cap * 2 } else st

@[simp] theorem read_data (st : ReadState) :
    st.read.data = st.data ++ (st.stream.read (st.cap - st.data.length)).1 := rfl
@[simp] theorem read_cap (st : ReadState) : st.read.cap = st.cap := rfl

/-- Looking for the headers moves nothing. -/
theorem lookForHeaders_frame (st : ReadState) :
    st.lookForHeaders.data = st.data ∧ st.lookForHeaders.cap = st.cap ∧
      st.lookForHeaders.stream = st.stream := by
  rw [lookForHeaders]
  split
  · exact ⟨rfl, rfl, rfl⟩
  · split
    · exact ⟨rfl, rfl, rfl⟩
    · exact ⟨rfl, rfl, rfl⟩

theorem grow_frame (st : ReadState) :
    st.grow.data = st.data ∧ st.grow.headersEnd = st.headersEnd ∧
      st.grow.contentLength = st.contentLength ∧ st.grow.stream = st.stream := by
  rw [grow]
  split
  · exact ⟨rfl, rfl, rfl, rfl⟩
  · exact ⟨rfl, rfl, rfl, rfl⟩

/-- After growing there is room. -/
theorem lt_grow {st : ReadState} (hcap : 0 < st.cap) (hle : st.data.length ≤ st.cap) :
    st.grow.data.length < st.grow.cap := by
  rw [grow]
  by_cases h : st.cap ≤ st.data.length
  · rw [if_pos h]
    show st.data.length < st.cap * 2
    omega
  · rw [if_neg h]
    omega

end ReadState

/-- The first loop: until the response is complete. -/
def readLoop : Nat → ReadState → Except ReadError ReadState
  | 0, _ => .error .outOfFuel
  | fuel + 1, st =>
      if st.read.data.length = st.data.length then
        .error (.unexpectedEof "connection closed")
      else if st.read.lookForHeaders.complete then .ok st.read.lookForHeaders
      else readLoop fuel st.read.lookForHeaders.grow

/-- The second loop: what is missing of the body is read and discarded. -/
def discardLoop (cap cl : Nat) : Nat → Nat → Nat → Delivery UInt8 →
    Except ReadError (Nat × Delivery UInt8)
  | 0, _, _, _ => .error .outOfFuel
  | fuel + 1, bodyReceived, totalRead, stream =>
      if bodyReceived < cl then
        let r := stream.read (min (cl - bodyReceived) cap)
        if r.1.length = 0 then .ok (totalRead, r.2)
        else discardLoop cap cl fuel (bodyReceived + r.1.length) (totalRead + r.1.length) r.2
      else .ok (totalRead, stream)

/-- What a response has been read as, the buffer's size, and the rest of the
    connection. -/
structure ResponseRead where
  totalRead : Nat
  headersEnd : Option Nat
  contentLength : Option Nat
  cap : Nat
  stream : Delivery UInt8

/-- Read one response from the connection. -/
def readResponse (cap : Nat) (stream : Delivery UInt8) : Except ReadError ResponseRead := do
  let st ← readLoop (stream.content.length + 1) (.new cap stream)
  match st.headersEnd, st.contentLength with
  | some hdrEnd, some cl =>
      let r ← discardLoop st.cap cl (st.stream.content.length + 1) (st.data.length - hdrEnd)
        st.data.length st.stream
      pure ⟨r.1, st.headersEnd, st.contentLength, st.cap, r.2⟩
  | _, _ => pure ⟨st.data.length, st.headersEnd, st.contentLength, st.cap, st.stream⟩

/-! ## The blank line -/

theorem bytes_blank : bytes "\r\n\r\n" = crlf ++ crlf := rfl

/-- Four bytes within the header section are the blank line only at its end. -/
theorem blank_at {ls : List (List UInt8)} (hls : ∀ l ∈ ls, PlainLine l) {data body : List UInt8}
    (hd : data <+: block ls ++ body) {i : Nat} (hi : i + 4 ≤ (block ls).length)
    (hblank : (data.drop i).take 4 = crlf ++ crlf) : i + 4 = (block ls).length := by
  apply block_blank hls
  have hsub : crlf ++ crlf <+: (block ls ++ body).drop i := by
    rw [← hblank]
    exact (List.take_prefix 4 _).trans (hd.drop i)
  rw [List.drop_append_of_le_length (by omega)] at hsub
  refine List.prefix_of_prefix_length_le hsub (List.prefix_append _ _) ?_
  rw [List.length_drop]
  show 4 ≤ _
  omega

/-- **FIND HEADER END**: of the first bytes of a response it finds the end of the
    header section, as soon as it is there. -/
theorem findHeaderEnd_block {ls : List (List UInt8)} (hls : ∀ l ∈ ls, PlainLine l) (hne : ls ≠ [])
    {data body : List UInt8} (hd : data <+: block ls ++ body) :
    findHeaderEnd data
      = if (block ls).length ≤ data.length then some (block ls).length else none := by
  obtain ⟨init, l, rfl⟩ := List.eq_nil_or_concat' ls |>.resolve_left hne
  obtain ⟨front, hfront⟩ : ∃ front, block (init ++ [l]) = front ++ (crlf ++ crlf) :=
    ⟨_, block_concat init l⟩
  have hlen : (block (init ++ [l])).length = front.length + 4 := by
    rw [hfront, List.length_append]
    rfl
  rw [findHeaderEnd, bytes_blank]
  by_cases hin : (block (init ++ [l])).length ≤ data.length
  · rw [if_pos hin]
    have hfind : (List.range (data.length - 3)).find?
        (fun i => (data.drop i).take 4 == crlf ++ crlf) = some front.length := by
      rw [List.find?_range_eq_some]
      refine ⟨?_, ?_, ?_⟩
      · obtain ⟨rest, rfl⟩ : block (init ++ [l]) <+: data :=
          List.prefix_of_prefix_length_le (List.prefix_append _ _) hd hin
        rw [hfront, List.append_assoc, List.drop_left, beq_iff_eq]
        rfl
      · rw [List.mem_range]
        omega
      · intro j hj
        rw [Bool.not_eq_true', beq_eq_false_iff_ne]
        intro hblank
        have := blank_at hls hd (by omega) hblank
        omega
    rw [hfind, Option.map_some, hlen]
  · rw [if_neg hin, Option.map_eq_none_iff, List.find?_eq_none]
    intro i hi hblank
    rw [List.mem_range] at hi
    have := blank_at hls hd (i := i) (by omega) (beq_iff_eq.mp hblank)
    omega

/-! ## What the server writes -/

/-- What the http crate admits as a header name, in lower case: visible ASCII
    without the colon. -/
def NameChar (c : Char) : Prop := '!' ≤ c ∧ c ≤ '~' ∧ c ≠ ':' ∧ ¬ ('A' ≤ c ∧ c ≤ 'Z')

instance : DecidablePred NameChar :=
  fun c => inferInstanceAs (Decidable ('!' ≤ c ∧ c ≤ '~' ∧ c ≠ ':' ∧ ¬ ('A' ≤ c ∧ c ≤ 'Z')))

/-- A response without a Content-Length, with header values of visible ASCII,
    spaces and tabs. -/
structure PlainResponse (r : Response) : Prop where
  names : ∀ e ∈ r.headers, ∀ c ∈ e.1.toList, NameChar c
  values : ∀ e ∈ r.headers, ∀ b ∈ e.2, PlainByte b
  noLength : r.headers.containsKey "content-length" = false
  size : r.body.length ≤ usizeMax

/-- The reason phrases of the http crate are visible ASCII and spaces. -/
def PlainReasons (K : HttpCrate) : Prop :=
  ∀ status reason, K.canonicalReason status = some reason → ∀ c ∈ reason.toList, PlainChar c

variable (K : HttpCrate)

def statusLine (r : Response) : List UInt8 :=
  bytes (versionStr r.version) ++ bytes " " ++ bytes (toString r.status) ++ bytes " "
    ++ bytes (reasonPhrase K r.status)

def headerLine (e : HeaderName × HeaderValue) : List UInt8 := bytes e.1 ++ bytes ": " ++ e.2

def lengthLine (r : Response) : List UInt8 :=
  bytes "Content-Length: " ++ bytes (toString r.body.length)

/-- The lines of the header section. -/
def headLines (r : Response) : List (List UInt8) :=
  statusLine K r :: (r.headers.map headerLine ++ [lengthLine r])

theorem block_headLines_ne_nil (r : Response) : block (headLines K r) ≠ [] := by
  rw [headLines, block]
  exact List.append_ne_nil_of_left_ne_nil (List.append_ne_nil_of_right_ne_nil _ (by decide)) _

theorem serializeResponse_eq {r : Response} (hr : PlainResponse r) :
    serializeResponse K r = block (headLines K r) ++ r.body := by
  have hcrlf : bytes "\r\n" = crlf := rfl
  have hheaders : serializeHeaders r.headers = (r.headers.map headerLine).flatMap (· ++ crlf) := by
    rw [List.flatMap_map]
    rfl
  rw [serializeResponse, hr.noLength, if_neg Bool.false_ne_true, headLines, block, block_append,
    hheaders, hcrlf, block, block, statusLine, lengthLine]
  simp only [List.append_assoc]

theorem NameChar.plain {c : Char} (h : NameChar c) : PlainChar c :=
  Or.inr ⟨Char.le_trans (by decide) h.1, h.2.1⟩

theorem plain_versionStr (v : Version) : ∀ c ∈ (versionStr v).toList, PlainChar c := by
  cases v <;> exact List.all_iff_forall_prop.mp rfl

theorem plain_reasonPhrase {K : HttpCrate} (hK : PlainReasons K) (status : Nat) :
    ∀ c ∈ (reasonPhrase K status).toList, PlainChar c := by
  rw [reasonPhrase]
  cases h : K.canonicalReason status with
  | none => exact List.all_iff_forall_prop.mp rfl
  | some reason => exact hK status reason h

theorem plainLine_statusLine {K : HttpCrate} (hK : PlainReasons K) (r : Response) :
    PlainLine (statusLine K r) := by
  have hspace := plain_bytes (s := " ") (List.all_iff_forall_prop.mp rfl)
  have hversion := plain_bytes (plain_versionStr r.version)
  have hstatus := plain_bytes (s := toString r.status)
    fun c hc => plainChar_of_isDigit (isDigit_of_mem_toString hc)
  have hreason := plain_bytes (plain_reasonPhrase hK r.status)
  refine ⟨?_, ?_⟩
  · rw [statusLine]
    exact List.append_ne_nil_of_left_ne_nil (List.append_ne_nil_of_right_ne_nil _ (by decide)) _
  · simp only [statusLine, List.forall_mem_append]
    exact ⟨⟨⟨⟨hversion, hspace⟩, hstatus⟩, hspace⟩, hreason⟩

theorem plainLine_headerLine {r : Response} (hr : PlainResponse r) {e : HeaderName × HeaderValue}
    (he : e ∈ r.headers) : PlainLine (headerLine e) := by
  refine ⟨?_, ?_⟩
  · rw [headerLine]
    exact List.append_ne_nil_of_left_ne_nil (List.append_ne_nil_of_right_ne_nil _ (by decide)) _
  · simp only [headerLine, List.forall_mem_append]
    exact ⟨⟨plain_bytes fun c hc => (hr.names e he c hc).plain,
      plain_bytes (List.all_iff_forall_prop.mp rfl)⟩, hr.values e he⟩

theorem plainLine_lengthLine (r : Response) : PlainLine (lengthLine r) := by
  refine ⟨?_, ?_⟩
  · rw [lengthLine]
    exact List.append_ne_nil_of_left_ne_nil (by decide) _
  · simp only [lengthLine, List.forall_mem_append]
    exact ⟨plain_bytes (List.all_iff_forall_prop.mp rfl), plain_bytes fun c hc =>
      plainChar_of_isDigit (isDigit_of_mem_toString hc)⟩

/-- No header produces an early blank line. -/
theorem plainLine_headLines {K : HttpCrate} (hK : PlainReasons K) {r : Response}
    (hr : PlainResponse r) : ∀ l ∈ headLines K r, PlainLine l := by
  rw [headLines, List.forall_mem_cons, List.forall_mem_append, List.forall_mem_singleton]
  refine ⟨plainLine_statusLine hK r, fun l hl => ?_, plainLine_lengthLine r⟩
  obtain ⟨e, he, rfl⟩ := List.mem_map.mp hl
  exact plainLine_headerLine hr he

/-! ## The line of the length -/

theorem contentLengthIn_append {ls rest : List (List Char)}
    (h : ∀ l ∈ ls, stripPrefix (l.map toAsciiLowercase) "content-length:".toList = none) :
    contentLengthIn (ls ++ rest) = contentLengthIn rest := by
  induction ls with
  | nil => rfl
  | cons l ls ih =>
      rw [List.forall_mem_cons] at h
      simp only [List.cons_append, contentLengthIn, h.1]
      exact ih h.2

theorem statusLine_not_length (r : Response) :
    stripPrefix (((statusLine K r).map asciiChar).map toAsciiLowercase) "content-length:".toList
      = none := by
  have hstart : ∀ v : Version, ∃ rest, bytes (versionStr v) = 72 :: rest := by
    intro v
    cases v <;> exact ⟨_, rfl⟩
  obtain ⟨rest, hrest⟩ := hstart r.version
  rw [stripPrefix_none_iff, statusLine, hrest]
  intro h
  exact absurd (List.cons_prefix_cons.mp h).1 (by decide)

theorem toAsciiLowercase_name {c : Char} (h : NameChar c) : toAsciiLowercase c = c :=
  if_neg h.2.2.2

theorem headerLine_not_length {r : Response} (hr : PlainResponse r) {e : HeaderName × HeaderValue}
    (he : e ∈ r.headers) :
    stripPrefix (((headerLine e).map asciiChar).map toAsciiLowercase) "content-length:".toList
      = none := by
  have hname : ((bytes e.1).map asciiChar).map toAsciiLowercase = e.1.toList := by
    rw [map_asciiChar_bytes fun c hc => (hr.names e he c hc).plain.lt]
    exact (List.map_congr_left fun c hc => toAsciiLowercase_name (hr.names e he c hc)).trans
      (List.map_id _)
  rw [stripPrefix_none_iff, headerLine, List.append_assoc, List.map_append, List.map_append, hname]
  intro h
  have hcolon : ':' ∉ e.1.toList := fun hc => (hr.names e he ':' hc).2.2.1 rfl
  obtain ⟨rest, hrest⟩ := h
  have heq : "content-length".toList = e.1.toList :=
    (append_sep_inj (by decide) hcolon hrest).1
  have hkey : r.headers.containsKey "content-length" = true := by
    rw [HeaderMap.containsKey, List.any_eq_true]
    exact ⟨e, he, decide_eq_true (String.toList_inj.mp heq).symm⟩
  rw [hr.noLength] at hkey
  cases hkey

theorem lengthLine_value {r : Response} (hr : PlainResponse r) (rest : List (List Char)) :
    contentLengthIn ((lengthLine r).map asciiChar :: rest) = some r.body.length := by
  have hdigit : ∀ c ∈ (toString r.body.length).toList, c.isDigit :=
    fun c hc => isDigit_of_mem_toString hc
  have hlower : ((lengthLine r).map asciiChar).map toAsciiLowercase
      = "content-length:".toList ++ ' ' :: (toString r.body.length).toList := by
    have hname : ((bytes "Content-Length: ").map asciiChar).map toAsciiLowercase
        = "content-length:".toList ++ [' '] := by decide
    have hsame : (toString r.body.length).toList.map toAsciiLowercase
        = (toString r.body.length).toList :=
      (List.map_congr_left fun c hc => toAsciiLowercase_digit (hdigit c hc)).trans (List.map_id _)
    rw [lengthLine, List.map_append, List.map_append, hname,
      map_asciiChar_bytes fun c hc => (plainChar_of_isDigit (hdigit c hc)).lt, hsame,
      List.append_assoc, List.singleton_append]
  simp only [contentLengthIn, hlower, stripPrefix_append]
  have htrim : trim (' ' :: (toString r.body.length).toList) = (toString r.body.length).toList := by
    have := trim_padded (u := [' ']) (w := []) (fun c hc => by rw [List.mem_singleton.mp hc]; rfl)
      (fun c hc => not_whitespace_digit (hdigit c hc)) (fun c hc => absurd hc List.not_mem_nil)
    rwa [List.append_nil] at this
  rw [htrim, fromStrRadix_toString hr.size]

/-- **PARSE CONTENT LENGTH**: of the header section it reads the length of the
    body. -/
theorem parseContentLength_head {K : HttpCrate} (hK : PlainReasons K) {r : Response}
    (hr : PlainResponse r) : parseContentLength (block (headLines K r)) = some r.body.length := by
  have hlines := plainLine_headLines hK hr
  rw [parseContentLength, fromUtf8_ascii (block_ascii hlines)]
  simp only [lines_block hlines]
  rw [headLines, List.map_cons, List.map_append, List.map_singleton, ← List.cons_append,
    List.append_assoc, contentLengthIn_append]
  · exact lengthLine_value hr _
  · rw [List.forall_mem_cons]
    refine ⟨statusLine_not_length K r, fun l hl => ?_⟩
    rw [List.map_map] at hl
    obtain ⟨e, he, rfl⟩ := List.mem_map.mp hl
    exact headerLine_not_length hr he

/-! ## The loop -/

/-- What the loop relies on of a response. -/
structure Framed (head body : List UInt8) : Prop where
  find : ∀ data, data <+: head ++ body →
    findHeaderEnd data = if head.length ≤ data.length then some head.length else none
  length : parseContentLength head = some body.length

theorem framed_response {K : HttpCrate} (hK : PlainReasons K) {r : Response} (hr : PlainResponse r) :
    Framed (block (headLines K r)) r.body where
  find := fun _ hd => findHeaderEnd_block (plainLine_headLines hK hr) (List.cons_ne_nil _ _) hd
  length := parseContentLength_head hK hr

/-- The state while a response is read, `qs` being what follows it: the data is
    its beginning, and the header section is known once it is there. -/
structure Reading (head body : List UInt8) (qs : List (List UInt8)) (st : ReadState) : Prop where
  split : ∃ ps, st.stream.pieces = ps ++ qs ∧ st.data ++ ps.flatten = head ++ body
  headersEnd : st.headersEnd = if head.length ≤ st.data.length then some head.length else none
  contentLength : st.contentLength
    = if head.length ≤ st.data.length then some body.length else none

namespace Reading

variable {head body : List UInt8} {qs : List (List UInt8)} {st : ReadState}

theorem isPrefix (h : Reading head body qs st) : st.data <+: head ++ body := by
  obtain ⟨ps, -, hps⟩ := h.split
  exact ⟨ps.flatten, hps⟩

/-- Complete is what is all there. -/
theorem complete_iff (h : Reading head body qs st) :
    st.complete = true ↔ st.data = head ++ body := by
  have hlen := h.isPrefix.length_le
  rw [List.length_append] at hlen
  rw [ReadState.complete, h.headersEnd, h.contentLength]
  constructor
  · intro hc
    apply h.isPrefix.eq_of_length_le
    rw [List.length_append]
    by_cases hin : head.length ≤ st.data.length
    · simp only [if_pos hin, decide_eq_true_eq] at hc
      omega
    · simp only [if_neg hin, Bool.false_eq_true] at hc
  · intro hd
    have hin : head.length ≤ st.data.length := by
      rw [hd, List.length_append]
      exact Nat.le_add_right _ _
    simp only [if_pos hin, decide_eq_true_eq]
    rw [hd, List.length_append]
    omega

/-- The headers are found as soon as they are there. -/
theorem lookForHeaders_found (hf : Framed head body) (hpre : st.data <+: head ++ body) {n : Nat}
    (hn : n ≤ st.data.length)
    (hend : st.headersEnd = if head.length ≤ n then some head.length else none)
    (hcl : st.contentLength = if head.length ≤ n then some body.length else none) :
    st.lookForHeaders.headersEnd
        = (if head.length ≤ st.data.length then some head.length else none) ∧
      st.lookForHeaders.contentLength
        = (if head.length ≤ st.data.length then some body.length else none) := by
  rw [ReadState.lookForHeaders]
  by_cases hknown : head.length ≤ n
  · -- known before
    have hin : head.length ≤ st.data.length := Nat.le_trans hknown hn
    rw [if_pos hknown] at hend hcl
    simp only [hend]
    rw [if_pos hin, if_pos hin]
    exact ⟨rfl, hcl⟩
  · rw [if_neg hknown] at hend hcl
    simp only [hend, hf.find st.data hpre]
    by_cases hin : head.length ≤ st.data.length
    · have htake : st.data.take head.length = head := by
        obtain ⟨rest, hrest⟩ : head <+: st.data :=
          List.prefix_of_prefix_length_le (List.prefix_append _ _) hpre hin
        rw [← hrest]
        exact List.take_left
      simp only [if_pos hin, true_and]
      rw [htake, hf.length]
    · simp only [if_neg hin]
      exact ⟨hend, hcl⟩

/-- **STEP**: one read of what is missing, and a look for the headers. -/
theorem read (hf : Framed head body) (h : Reading head body qs st)
    (hroom : st.data.length < st.cap) (hmiss : st.data ≠ head ++ body) :
    Reading head body qs st.read.lookForHeaders ∧
      st.data.length < st.read.data.length ∧ st.read.data.length ≤ st.cap := by
  obtain ⟨ps, hpieces, hps⟩ := h.split
  have hne : ps ≠ [] := by
    rintro rfl
    rw [List.flatten_nil, List.append_nil] at hps
    exact hmiss hps
  obtain ⟨hc, ps', hpieces', hps'⟩ :=
    Delivery.read_pieces hpieces hne (Nat.sub_pos_of_lt hroom)
  have hlonger := List.length_pos_of_ne_nil hc
  have hfit := st.stream.length_read_le (st.cap - st.data.length)
  have hgrown : st.read.data.length
      = st.data.length + (st.stream.read (st.cap - st.data.length)).1.length := by
    rw [ReadState.read_data, List.length_append]
  have hsplit : st.read.data ++ ps'.flatten = head ++ body := by
    rw [ReadState.read_data, List.append_assoc, hps', hps]
  obtain ⟨hdata, -, hstream⟩ := st.read.lookForHeaders_frame
  have hbefore : st.data.length ≤ st.read.data.length := by omega
  have hfound := lookForHeaders_found hf ⟨_, hsplit⟩ hbefore h.headersEnd h.contentLength
  refine ⟨⟨⟨ps', ?_, ?_⟩, ?_, ?_⟩, by omega, by omega⟩
  · rw [hstream]
    exact hpieces'
  · rw [hdata]
    exact hsplit
  · rw [hdata]
    exact hfound.1
  · rw [hdata]
    exact hfound.2

/-- All there: what follows has not been touched. -/
theorem rest (h : Reading head body qs st) (hd : st.data = head ++ body) :
    st.stream.pieces = qs := by
  obtain ⟨ps, hpieces, hps⟩ := h.split
  rw [hd, List.append_right_eq_self, List.flatten_eq_nil_iff] at hps
  cases ps with
  | nil => exact hpieces
  | cons p ps =>
      have hp : p ∈ st.stream.pieces := by
        rw [hpieces]
        exact List.mem_cons_self
      exact absurd (hps p List.mem_cons_self) (st.stream.nonempty p hp)

end Reading

/-- **RUN**: the loop ends with the whole response and nothing else. -/
theorem readLoop_reading {head body : List UInt8} {qs : List (List UInt8)}
    (hf : Framed head body) :
    ∀ (fuel : Nat) (st : ReadState), Reading head body qs st → st.data.length < st.cap →
      st.data ≠ head ++ body → (head ++ body).length - st.data.length ≤ fuel →
      ∃ st', readLoop fuel st = .ok st' ∧ Reading head body qs st' ∧ st'.data = head ++ body ∧
        st'.data.length ≤ st'.cap := by
  intro fuel
  induction fuel with
  | zero =>
      intro st h _ hmiss hfuel
      exact absurd (h.isPrefix.eq_of_length_le (Nat.sub_eq_zero_iff_le.mp (Nat.le_zero.mp hfuel))) hmiss
  | succ fuel ih =>
      intro st h hroom hmiss hfuel
      obtain ⟨hnext, hlonger, hfit⟩ := h.read hf hroom hmiss
      obtain ⟨hdata, hcap, -⟩ := st.read.lookForHeaders_frame
      rw [readLoop, if_neg (Nat.ne_of_gt hlonger)]
      by_cases hall : st.read.lookForHeaders.data = head ++ body
      · rw [if_pos (hnext.complete_iff.mpr hall)]
        refine ⟨_, rfl, hnext, hall, ?_⟩
        rw [hdata, hcap]
        exact hfit
      · rw [if_neg fun hc => hall (hnext.complete_iff.mp hc)]
        obtain ⟨gdata, gend, gcl, gstream⟩ := st.read.lookForHeaders.grow_frame
        refine ih _ ⟨?_, ?_, ?_⟩ ?_ ?_ ?_
        · rw [gdata, gstream]
          exact hnext.split
        · rw [gdata, gend]
          exact hnext.headersEnd
        · rw [gdata, gcl]
          exact hnext.contentLength
        · apply ReadState.lt_grow
          · rw [hcap, ReadState.read_cap]
            omega
          · rw [hdata, hcap]
            exact hfit
        · rw [gdata]
          exact hall
        · rw [gdata, hdata]
          omega

/-- **READ RESPONSE**: a framed response that comes in the pieces `ps` is read to
    its end; the pieces behind it stay. -/
theorem readResponse_framed {head body : List UInt8} (hf : Framed head body) (hne : head ≠ [])
    {cap : Nat} (hcap : 0 < cap) {stream : Delivery UInt8} {ps qs : List (List UInt8)}
    (hpieces : stream.pieces = ps ++ qs) (hps : ps.flatten = head ++ body) :
    ∃ res, readResponse cap stream = .ok res ∧ res.totalRead = (head ++ body).length ∧
      res.headersEnd = some head.length ∧ res.contentLength = some body.length ∧
      res.stream.pieces = qs ∧ 0 < res.cap := by
  have hpos : ¬ head.length ≤ ([] : List UInt8).length := by
    rw [List.length_nil, Nat.le_zero, List.length_eq_zero_iff]
    exact hne
  have hstart : Reading head body qs (.new cap stream) :=
    ⟨⟨ps, hpieces, by rw [ReadState.new, List.nil_append, hps]⟩, (if_neg hpos).symm,
      (if_neg hpos).symm⟩
  have hfuel : (head ++ body).length ≤ stream.content.length := by
    rw [Delivery.content, hpieces, List.flatten_append, hps]
    exact (List.prefix_append _ _).length_le
  obtain ⟨st, hloop, hst, hall, hfit⟩ := readLoop_reading hf (stream.content.length + 1)
    (.new cap stream) hstart hcap
    (fun h => List.append_ne_nil_of_left_ne_nil hne body h.symm)
    (Nat.le_succ_of_le (Nat.le_trans (Nat.sub_le _ _) hfuel))
  have hlen : st.data.length = head.length + body.length := by rw [hall, List.length_append]
  have hin : head.length ≤ st.data.length := by omega
  have hend : st.headersEnd = some head.length := by rw [hst.headersEnd, if_pos hin]
  have hcl : st.contentLength = some body.length := by rw [hst.contentLength, if_pos hin]
  -- nothing is left for the second loop
  have hdiscard : discardLoop st.cap body.length (st.stream.content.length + 1)
      (st.data.length - head.length) st.data.length st.stream = .ok (st.data.length, st.stream) := by
    rw [discardLoop, if_neg (by omega)]
  refine ⟨⟨st.data.length, st.headersEnd, st.contentLength, st.cap, st.stream⟩, ?_, ?_, hend, hcl,
    hst.rest hall, ?_⟩
  · rw [readResponse, hloop]
    simp only [hend, hcl, bind, Except.bind, hdiscard]
    rfl
  · rw [hall]
  · have := List.length_pos_of_ne_nil hne
    show 0 < st.cap
    omega

/-- **THE CLIENT READS WHAT THE SERVER WRITES**: in whatever pieces a response
    comes and whatever follows it, the client reads exactly its bytes, finds the
    place where the body starts and the length of the body, and leaves what
    follows. -/
theorem readResponse_serializeResponse (hK : PlainReasons K) (r : Response) (hr : PlainResponse r)
    (cap : Nat) (hcap : 0 < cap) (stream : Delivery UInt8) (ps qs : List (List UInt8))
    (hpieces : stream.pieces = ps ++ qs) (hps : ps.flatten = serializeResponse K r) :
    ∃ res bodyStart, readResponse cap stream = .ok res ∧
      res.totalRead = (serializeResponse K r).length ∧ res.stream.pieces = qs ∧
      (serializeResponse K r).drop bodyStart = r.body ∧
      bodyStart + r.body.length = (serializeResponse K r).length ∧
      res.headersEnd = some bodyStart ∧
      findHeaderEnd (serializeResponse K r) = some bodyStart ∧
      res.contentLength = some r.body.length ∧
      parseContentLength ((serializeResponse K r).take bodyStart) = some r.body.length := by
  have hf := framed_response hK hr
  rw [serializeResponse_eq K hr] at hps ⊢
  obtain ⟨res, hread, htotal, hend, hcl, hrest, -⟩ :=
    readResponse_framed hf (block_headLines_ne_nil K r) hcap hpieces hps
  refine ⟨res, (block (headLines K r)).length, hread, htotal, hrest, List.drop_left,
    List.length_append.symm, hend, ?_, hcl, ?_⟩
  · have hle : (block (headLines K r)).length ≤ (block (headLines K r) ++ r.body).length :=
      (List.prefix_append _ _).length_le
    rw [hf.find _ (List.prefix_refl _), if_pos hle]
  · rw [List.take_left, hf.length]

/-- A small response. -/
def hello : Response where
  version := .http11
  status := 200
  headers := [("content-type", bytes "text/plain")]
  body := bytes "hello"

/-- A response in two reads, the first of seven bytes, with another behind it. -/
theorem hello_read_in_two :
    ∃ res bodyStart, readResponse 16384
        ⟨[(serializeResponse asciiCrate hello).take 7, (serializeResponse asciiCrate hello).drop 7]
          ++ [serializeResponse asciiCrate hello], by decide⟩ = .ok res ∧
      res.totalRead = (serializeResponse asciiCrate hello).length ∧
      res.stream.pieces = [serializeResponse asciiCrate hello] ∧
      (serializeResponse asciiCrate hello).drop bodyStart = bytes "hello" := by
  have hreasons : PlainReasons asciiCrate := by
    intro status reason h
    simp only [asciiCrate] at h
    split at h
    · cases h
      exact List.all_iff_forall_prop.mp rfl
    · cases h
  have hplain : PlainResponse hello := by
    refine ⟨?_, ?_, by decide, by decide⟩
    · rw [hello, List.forall_mem_singleton]
      exact List.all_iff_forall_prop.mp rfl
    · rw [hello, List.forall_mem_singleton]
      exact List.all_iff_forall_prop.mp rfl
  obtain ⟨res, bodyStart, hread, htotal, hrest, hbody, -⟩ :=
    readResponse_serializeResponse asciiCrate hreasons hello hplain 16384 (by decide)
      ⟨[(serializeResponse asciiCrate hello).take 7, (serializeResponse asciiCrate hello).drop 7]
        ++ [serializeResponse asciiCrate hello], by decide⟩ _ _ rfl (by decide)
  exact ⟨res, bodyStart, hread, htotal, hrest, hbody⟩

/-! ## A connection -/

/-- The loop of `run_connection` while the connection lasts: one response after
    the other, with the buffer kept.  The result is what is recorded of them. -/
def readResponses : Nat → Nat → Delivery UInt8 → Except ReadError (List Nat)
  | 0, _, _ => .ok []
  | n + 1, cap, stream => do
      let res ← readResponse cap stream
      let rest ← readResponses n res.cap res.stream
      pure (res.totalRead :: rest)

/-- **RUN**: responses that arrive one behind the other, each in its own pieces,
    are told apart. -/
theorem readResponses_serialized {K : HttpCrate} (hK : PlainReasons K) {rs : List Response}
    {pss : List (List (List UInt8))}
    (hrs : List.Forall₂ (fun r ps => PlainResponse r ∧ ps.flatten = serializeResponse K r) rs pss) :
    ∀ {cap : Nat} {stream : Delivery UInt8}, 0 < cap → stream.pieces = pss.flatten →
      readResponses rs.length cap stream
        = .ok (rs.map fun r => (serializeResponse K r).length) := by
  induction hrs with
  | nil => intro cap stream _ _; rfl
  | cons hr _ ih =>
      intro cap stream hcap hpieces
      obtain ⟨hplain, hps⟩ := hr
      rw [serializeResponse_eq K hplain] at hps
      rw [List.flatten_cons] at hpieces
      obtain ⟨res, hread, htotal, -, -, hrest, hcap'⟩ :=
        readResponse_framed (framed_response hK hplain) (block_headLines_ne_nil K _) hcap hpieces hps
      rw [List.length_cons, readResponses, hread]
      simp only [bind, Except.bind, ih hcap' hrest]
      rw [List.map_cons, serializeResponse_eq K hplain, ← htotal]
      rfl

end DpdkNet.Bench
