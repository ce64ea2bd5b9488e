import DpdkNet.Http.Parser

/-! # Parsing a stream that is all there

    The same protocol without buffers and reads: a computation over the bytes
    that are left.  This is what the parsers compute, and all they compute:
    each function of `Parser` refines the one of the same name here, along
    `Parser.pending`, whatever the pieces in which the bytes arrive and
    whichever way the rest of a body is read.

    The one trace the buffer leaves is its limit: a header section has to be
    complete within the first 64 KB. -/

namespace DpdkNet

open RustStr Refine

abbrev StreamM := StateT (List UInt8) (Except Fault)

variable (H : Httparse) (K : HttpCrate)

namespace Whole

/-- The header section at the front of the stream. -/
def head : StreamM (Option Head) := fun s =>
  match H.parse (s.take maxBufSize) with
  | .error e => .error (.err (.parse e))
  | .complete headerLen raw =>
      match toHead K raw with
      | .error e => .error (.err e)
      | .ok head => .ok (some head, s.drop headerLen)
  | .more =>
      if maxBufSize ≤ s.length then .error (.err .headersTooLarge)
      else if s = [] then .ok (none, [])
      else .error (.err .connectionClosed)

/-- The line at the front of the stream. -/
def line : StreamM (List Char) := fun s =>
  match s.findIdx? (· == 10) with
  | some pos => .ok (finishLine (s.take pos), s.drop (pos + 1))
  | none => .error (.err .connectionClosed)

/-- The first `len` bytes of the stream. -/
def exact (len : Nat) : StreamM (List UInt8) := fun s =>
  if isizeMax < len then .error .panic
  else if len ≤ s.length then .ok (s.take len, s.drop len)
  else .error (.err .connectionClosed)

def chunkedLoop : Nat → List UInt8 → StreamM (List UInt8)
  | 0, _ => throw .outOfFuel
  | fuel + 1, body => do
      let sizeLine ← line
      match chunkSize sizeLine with
      | none => throw (.err .invalidContentLength)
      | some size =>
          if size = 0 then
            let _ ← line
            pure body
          else
            let chunk ← exact size
            let _ ← line
            chunkedLoop fuel (body ++ chunk)

def chunkedBody : StreamM (List UInt8) := fun s => chunkedLoop (s.length + 1) [] s

def body (headers : HeaderMap) : StreamM (List UInt8) :=
  if isChunked K headers then chunkedBody
  else
    match getContentLength K headers with
    | some length => exact length
    | none => pure []

/-- A request at the front of the stream. -/
def request : StreamM (Option Request) := do
  match ← head H K with
  | none => pure none
  | some head =>
      let body ← body K head.headers
      if K.uriOk head.uri then
        pure (some ⟨head.method, head.uri, head.version, head.headers, body⟩)
      else throw (.err .invalidUri)

end Whole

/-! ## Reading more -/

theorem Buf.cap_le (b : Buf) : b.cap ≤ maxBufSize := by
  obtain ⟨i, hi, hcap⟩ := b.cap_pow
  rw [hcap]
  calc initialBufSize * 2 ^ i ≤ initialBufSize * 2 ^ 6 :=
        Nat.mul_le_mul_left _ (Nat.pow_le_pow_right (by decide) hi)
    _ = maxBufSize := rfl

theorem Buf.length_le (b : Buf) : b.data.length ≤ maxBufSize := Nat.le_trans b.le b.cap_le

theorem Buf.cap_pos (b : Buf) : 0 < b.cap := by
  obtain ⟨i, -, hcap⟩ := b.cap_pow
  rw [hcap]
  exact Nat.mul_pos (by decide) (Nat.pow_pos (by decide))

/-- A buffer can grow unless it holds 64 KB; then it has room and its bytes. -/
theorem Buf.grow_cases (b : Buf) :
    (b.grow = none ∧ b.data.length = maxBufSize) ∨
    (∃ b', b.grow = some b' ∧ b'.data = b.data ∧ b'.data.length < b'.cap) := by
  have hle := b.le
  have hpos := b.cap_pos
  rw [grow]
  by_cases hfull : b.data.length = b.cap
  · rw [if_pos hfull]
    by_cases hmax : maxBufSize ≤ b.cap
    · rw [dif_pos hmax]
      refine Or.inl ⟨rfl, ?_⟩
      have := b.cap_le
      omega
    · rw [dif_neg hmax]
      refine Or.inr ⟨_, rfl, rfl, ?_⟩
      show b.data.length < b.cap * 2
      omega
  · rw [if_neg hfull]
    exact Or.inr ⟨b, rfl, rfl, by omega⟩

/-- **READ MORE**: the buffer is full at its maximum, or the stream has ended, or
    the next bytes of it are appended to the buffer. -/
theorem readMore_cases (p : Parser) :
    (p.buf.data.length = maxBufSize ∧ readMore p = .error (.err .headersTooLarge)) ∨
    (p.buf.data.length < maxBufSize ∧ p.reader.content = [] ∧
      ∃ p', readMore p = .ok (0, p') ∧ p'.pending = p.buf.data) ∨
    (∃ c p', c ≠ [] ∧ readMore p = .ok (c.length, p') ∧ p'.buf.data = p.buf.data ++ c ∧
      c ++ p'.reader.content = p.reader.content) := by
  rcases p.buf.grow_cases with ⟨hg, hmax⟩ | ⟨b, hg, hdata, hroom⟩
  · exact Or.inl ⟨hmax, by simp only [readMore, hg]⟩
  · have hpos : 0 < b.cap - b.data.length := Nat.sub_pos_of_lt hroom
    have hcap := b.cap_le
    by_cases he : (p.reader.read (b.cap - b.data.length)).1 = []
    · refine Or.inr (Or.inl ⟨?_, (p.reader.read_eq_nil_iff hpos).mp he, ?_⟩)
      · rw [← hdata]
        exact Nat.lt_of_lt_of_le hroom hcap
      · have happ := p.reader.read_append (b.cap - b.data.length)
        have hlen : (p.reader.read (b.cap - b.data.length)).1.length = 0 := by rw [he]; rfl
        rw [(p.reader.read_eq_nil_iff hpos).mp he, he] at happ
        simp only [readMore, hg]
        refine ⟨_, congrArg (fun n => Except.ok (n, _)) hlen, ?_⟩
        show (b.data ++ (p.reader.read (b.cap - b.data.length)).1)
          ++ (p.reader.read (b.cap - b.data.length)).2.content = _
        have hrest : (p.reader.read (b.cap - b.data.length)).2.content = [] := happ
        rw [he, hrest, List.append_nil, List.append_nil, hdata]
    · refine Or.inr (Or.inr ⟨(p.reader.read (b.cap - b.data.length)).1,
        ⟨b.extend (p.reader.read (b.cap - b.data.length)).1 (p.reader.length_read_le _),
          (p.reader.read (b.cap - b.data.length)).2⟩, he, ?_, ?_, ?_⟩)
      · simp only [readMore, hg]
      · show b.data ++ _ = _
        rw [hdata]
      · exact p.reader.read_append _

theorem valid_eq (p : Parser) : valid p = .ok (p.buf.data, p) := rfl

theorem consumeBuf_of_le {p : Parser} {n : Nat} (h : n ≤ p.buf.data.length) :
    consumeBuf n p = .ok ((), { p with buf := p.buf.drop n }) := if_pos h

/-- Read, and see whether the stream has ended. -/
theorem readMore_then {α : Type} (ended more : ParseM α) (p : Parser) :
    (readMore >>= fun n => if n = 0 then ended else more) p =
      match readMore p with
      | .error e => .error e
      | .ok (n, p') => if n = 0 then ended p' else more p' := by
  cases hr : readMore p with
  | error e => exact bind_of_error hr
  | ok r =>
      obtain ⟨n, p'⟩ := r
      rw [bind_of_ok hr]
      by_cases hn : n = 0
      · rw [if_pos hn]
        exact (if_pos hn).symm
      · rw [if_neg hn]
        exact (if_neg hn).symm

/-! ## Headers -/

/-- What happens once `parse_headers` is done: its bytes leave the buffer. -/
def takeHead : Option (Head × Nat) → ParseM (Option Head)
  | none => pure none
  | some (head, headerLen) => do
      consumeBuf headerLen
      pure (some head)

/-- Bytes that are known decide, if they decide at all, for the whole stream. -/
theorem parse_take (s : List UInt8) (rest : List UInt8) (hs : s.length ≤ maxBufSize) :
    ∃ q, (s ++ rest).take maxBufSize = s ++ q := by
  rw [List.take_append, List.take_of_length_le hs]
  exact ⟨_, rfl⟩

/-- One round of the loop. -/
theorem parseHeadersLoop_succ (fuel : Nat) (p : Parser) :
    parseHeadersLoop H K (fuel + 1) p =
      match H.parse p.buf.data with
      | .error e => .error (.err (.parse e))
      | .complete headerLen raw =>
          match toHead K raw with
          | .error e => .error (.err e)
          | .ok head => .ok (some (head, headerLen), p)
      | .more =>
          match readMore p with
          | .error e => .error e
          | .ok (n, p') =>
              if n = 0 then
                if p.buf.data.length = 0 then .ok (none, p')
                else .error (.err .connectionClosed)
              else parseHeadersLoop H K fuel p' := by
  rw [parseHeadersLoop, bind_of_ok (valid_eq p)]
  cases H.parse p.buf.data with
  | error e => rfl
  | complete n raw =>
      cases hhead : toHead K raw with
      | error e => simp only [hhead]; rfl
      | ok head => simp only [hhead]; rfl
  | more =>
      by_cases h0 : p.buf.data.length = 0
      · simp only [h0, if_true]
        exact readMore_then _ _ p
      · simp only [h0, if_false]
        exact readMore_then _ _ p

/-- The head of a stream whose first bytes are in the buffer and decide
    nothing. -/
theorem Whole.head_of_more {p : Parser} (hmore : H.parse p.buf.data = .more)
    (hs : p.pending = p.buf.data) :
    Whole.head H K p.pending =
      if maxBufSize ≤ p.buf.data.length then .error (.err .headersTooLarge)
      else if p.buf.data = [] then .ok (none, []) else .error (.err .connectionClosed) := by
  rw [Whole.head, hs, List.take_of_length_le p.buf.length_le, hmore]

/-- **HEADERS**: the loop, with more fuel than bytes to come, finds the header
    section at the front of the stream. -/
theorem parseHeadersLoop_view :
    ∀ (fuel : Nat) (p : Parser), p.reader.content.length < fuel →
      view Parser.pending ((parseHeadersLoop H K fuel >>= takeHead) p)
        = Whole.head H K p.pending := by
  intro fuel
  induction fuel with
  | zero => intro p hp; exact absurd hp (Nat.not_lt_zero _)
  | succ fuel ih =>
      intro p hfuel
      obtain ⟨q, hq⟩ := parse_take p.buf.data p.reader.content p.buf.length_le
      have hq' : p.pending.take maxBufSize = p.buf.data ++ q := hq
      show view Parser.pending
        (parseHeadersLoop H K (fuel + 1) p >>= fun r => takeHead r.1 r.2) = _
      rw [parseHeadersLoop_succ]
      cases hparse : H.parse p.buf.data with
      | error e =>
          rw [Whole.head, hq', H.error_stable q hparse]
          rfl
      | complete n raw =>
          rw [Whole.head, hq', H.complete_stable q hparse]
          cases hhead : toHead K raw with
          | error e =>
              simp only [hhead]
              rfl
          | ok head =>
              have hn := H.complete_le hparse
              simp only [hhead]
              show view Parser.pending ((consumeBuf n >>= fun _ => pure (some head)) p) = _
              rw [bind_of_ok (consumeBuf_of_le hn)]
              show Except.ok (some head, p.buf.data.drop n ++ p.reader.content) = _
              rw [← List.drop_append_of_le_length hn]
              rfl
      | more =>
          rcases readMore_cases p with ⟨hfull, hr⟩ | ⟨hlt, hend, p', hr, hp'⟩ | ⟨c, p', hc, hr, hd, hrest⟩
          · -- the buffer is full: so are the first 64 KB of the stream
            have htake : p.pending.take maxBufSize = p.buf.data := by
              rw [← hfull]
              exact List.take_left
            have hlen : maxBufSize ≤ p.pending.length := by
              rw [Parser.pending, List.length_append, hfull]
              exact Nat.le_add_right _ _
            simp only [hr]
            rw [Whole.head, htake, hparse]
            simp only [hlen, if_true]
            rfl
          · have hpend : p.pending = p.buf.data := by
              rw [Parser.pending, hend, List.append_nil]
            rw [Whole.head_of_more H K hparse hpend, if_neg (Nat.not_le.mpr hlt)]
            simp only [hr, if_true]
            by_cases h0 : p.buf.data = []
            · rw [if_pos h0, if_pos (by rw [h0]; rfl)]
              show Except.ok (none, p'.pending) = _
              rw [hp', h0]
            · rw [if_neg h0, if_neg (fun h => h0 (List.length_eq_zero_iff.mp h))]
              rfl
          · -- some bytes arrived: the stream is the same, less is to come
            have hpend : p'.pending = p.pending := by
              rw [Parser.pending, Parser.pending, hd, List.append_assoc, hrest]
            have hpos := List.length_pos_of_ne_nil hc
            have hlen := congrArg List.length hrest
            rw [List.length_append] at hlen
            simp only [hr, Nat.ne_of_gt hpos, if_false]
            rw [← hpend]
            exact ih p' (by omega)

/-! ## Lines -/

/-- One round of the loop. -/
theorem readLineLoop_succ (fuel : Nat) (line : List UInt8) (p : Parser) :
    readLineLoop (fuel + 1) line p =
      match p.buf.data.findIdx? (· == 10) with
      | some pos =>
          if pos + 1 ≤ p.buf.data.length then
            .ok (finishLine (line ++ p.buf.data.take pos), { p with buf := p.buf.drop (pos + 1) })
          else .error .panic
      | none =>
          match readMore { p with buf := p.buf.clear } with
          | .error e => .error e
          | .ok (n, p') =>
              if n = 0 then .error (.err .connectionClosed)
              else readLineLoop fuel (line ++ p.buf.data) p' := by
  have hclear : clearBuf p = .ok ((), { p with buf := p.buf.clear }) := rfl
  rw [readLineLoop, bind_of_ok (valid_eq p)]
  cases p.buf.data.findIdx? (· == 10) with
  | some pos =>
      by_cases h : pos + 1 ≤ p.buf.data.length
      · simp only [h, if_true]
        exact bind_of_ok (consumeBuf_of_le h)
      · simp only [h, if_false]
        exact bind_of_error (if_neg h)
  | none =>
      simp only
      rw [bind_of_ok hclear]
      exact readMore_then _ _ { p with buf := p.buf.clear }

/-- The front of a stream without a line feed. -/
theorem Whole.findIdx?_append {line : List UInt8} (hline : 10 ∉ line) (s : List UInt8) :
    (line ++ s).findIdx? (· == 10) = (s.findIdx? (· == 10)).map (· + line.length) := by
  have hnone : line.findIdx? (· == 10) = none := by
    rw [List.findIdx?_eq_none_iff]
    intro x hx
    rw [beq_eq_false_iff_ne]
    rintro rfl
    exact hline hx
  rw [List.findIdx?_append, hnone, Option.none_or]

/-- **LINES**: what has been collected and what is pending make up the line. -/
theorem readLineLoop_view :
    ∀ (fuel : Nat) (line : List UInt8) (p : Parser), p.reader.content.length < fuel →
      10 ∉ line → view Parser.pending (readLineLoop fuel line p)
        = Whole.line (line ++ p.pending) := by
  intro fuel
  induction fuel with
  | zero => intro line p hp _; exact absurd hp (Nat.not_lt_zero _)
  | succ fuel ih =>
      intro line p hfuel hline
      rw [readLineLoop_succ]
      cases hf : p.buf.data.findIdx? (· == 10) with
      | some pos =>
          obtain ⟨hlt, -⟩ := List.findIdx?_eq_some_iff_getElem.mp hf
          have hfind : (line ++ p.pending).findIdx? (· == 10) = some (pos + line.length) := by
            rw [Whole.findIdx?_append hline, Parser.pending, List.findIdx?_append, hf]
            rfl
          have htake : (line ++ p.pending).take (pos + line.length)
              = line ++ p.buf.data.take pos := by
            rw [Nat.add_comm, List.take_length_add_append, Parser.pending,
              List.take_append_of_le_length (Nat.le_of_lt hlt)]
          have hdrop : (line ++ p.pending).drop (pos + line.length + 1)
              = p.buf.data.drop (pos + 1) ++ p.reader.content := by
            rw [Nat.add_right_comm, Nat.add_comm, List.drop_length_add_append, Parser.pending,
              List.drop_append_of_le_length hlt]
          have hle : pos + 1 ≤ p.buf.data.length := hlt
          simp only [hle, if_true]
          rw [Whole.line, hfind]
          simp only [htake, hdrop]
          rfl
      | none =>
          have hdata : 10 ∉ p.buf.data := by
            intro hm
            have := List.findIdx?_eq_none_iff.mp hf 10 hm
            cases this
          have hline' : 10 ∉ line ++ p.buf.data := by
            rw [List.mem_append, not_or]
            exact ⟨hline, hdata⟩
          rcases readMore_cases { p with buf := p.buf.clear } with
            ⟨hfull, -⟩ | ⟨-, hend, p', hr, -⟩ | ⟨c, p', hc, hr, hd, hrest⟩
          · cases hfull
          · have hend' : p.reader.content = [] := hend
            simp only [hr, if_true]
            rw [Whole.line, Parser.pending, hend', List.append_nil,
              ← List.append_nil (line ++ p.buf.data), Whole.findIdx?_append hline']
            rfl
          · have hrest' : c ++ p'.reader.content = p.reader.content := hrest
            have hpos := List.length_pos_of_ne_nil hc
            have hlen := congrArg List.length hrest'
            rw [List.length_append] at hlen
            have hpend : (line ++ p.buf.data) ++ p'.pending = line ++ p.pending := by
              have hd' : p'.buf.data = c := hd
              rw [Parser.pending, Parser.pending, hd', hrest', List.append_assoc]
            simp only [hr, Nat.ne_of_gt hpos, if_false]
            rw [← hpend]
            exact ih (line ++ p.buf.data) p' (by omega) hline'

theorem readLine_refines : Refines Parser.pending readLine Whole.line :=
  fun p => readLineLoop_view (p.reader.content.length + 1) [] p (Nat.lt_succ_self _)
    List.not_mem_nil

/-! ## Bodies -/

/-- **EXACT READS**: the buffer first, then the reader, in whatever slices. -/
theorem readExact_refines (fl : Flavor) (len : Nat) :
    Refines Parser.pending (readExact fl len) (Whole.exact len) := by
  intro p
  have hm : min p.buf.data.length len ≤ p.buf.data.length := Nat.min_le_left _ _
  rw [Whole.exact, readExact]
  by_cases hbig : isizeMax < len
  · have hcap : withCapacity len p = .error .panic := if_pos hbig
    rw [if_pos hbig, bind_of_error hcap]
    rfl
  · have hcap : withCapacity len p = .ok ((), p) := if_neg hbig
    rw [if_neg hbig, bind_of_ok hcap, bind_of_ok (valid_eq p), bind_of_ok (consumeBuf_of_le hm)]
    by_cases hin : len ≤ p.buf.data.length
    · -- all of it is in the buffer
      have hmin : min p.buf.data.length len = len := Nat.min_eq_right hin
      have hlen : len ≤ p.pending.length := by
        rw [Parser.pending, List.length_append]
        omega
      rw [hmin, if_neg (Nat.lt_irrefl _), if_pos hlen]
      show Except.ok (p.buf.data.take len, p.buf.data.drop len ++ p.reader.content) = _
      rw [Parser.pending, List.take_append_of_le_length hin, List.drop_append_of_le_length hin]
    · have hmin : min p.buf.data.length len = p.buf.data.length :=
        Nat.min_eq_left (Nat.le_of_lt (Nat.not_le.mp hin))
      rw [hmin, if_pos (Nat.not_le.mp hin), List.take_length]
      obtain ⟨hok, hshort⟩ := Delivery.fill_eq fl.offer_pos fl.offer_le
        (len - p.buf.data.length) (len - p.buf.data.length) [] p.reader (Nat.le_refl _)
      show view Parser.pending (readRest fl (len - p.buf.data.length)
        { p with buf := p.buf.drop p.buf.data.length } >>= fun r => .ok (p.buf.data ++ r.1, r.2)) = _
      have hplen : p.pending.length = p.buf.data.length + p.reader.content.length := by
        rw [Parser.pending, List.length_append]
      by_cases henough : len ≤ p.pending.length
      · obtain ⟨d', hfill, hd'⟩ := hok (by omega)
        rw [if_pos henough, readRest]
        simp only [hfill]
        show Except.ok (p.buf.data ++ ([] ++ p.reader.content.take (len - p.buf.data.length)),
          p.buf.data.drop p.buf.data.length ++ d'.content) = _
        rw [List.drop_length, List.nil_append, List.nil_append, hd', Parser.pending,
          List.take_append, List.drop_append, List.take_of_length_le (Nat.le_of_not_le hin),
          List.drop_eq_nil_of_le (Nat.le_of_not_le hin), List.nil_append]
      · rw [if_neg henough, readRest]
        simp only [hshort (by omega)]
        rfl

theorem readChunkedLoop_refines (fl : Flavor) :
    ∀ (fuel : Nat) (body : List UInt8),
      Refines Parser.pending (readChunkedLoop fl fuel body) (Whole.chunkedLoop fuel body) := by
  intro fuel
  induction fuel with
  | zero => intro body; exact refines_throw _
  | succ fuel ih =>
      intro body
      refine readLine_refines.bind fun sizeLine => ?_
      cases chunkSize sizeLine with
      | none => exact refines_throw _
      | some size =>
          refine Refines.ite (fun _ => ?_) (fun _ => ?_)
          · exact readLine_refines.bind fun _ => refines_pure body
          · exact (readExact_refines fl size).bind fun chunk =>
              readLine_refines.bind fun _ => ih (body ++ chunk)

theorem readChunkedBody_refines (fl : Flavor) :
    Refines Parser.pending (readChunkedBody fl) Whole.chunkedBody :=
  fun p => readChunkedLoop_refines fl (p.pending.length + 1) [] p

theorem readBody_refines (fl : Flavor) (headers : HeaderMap) :
    Refines Parser.pending (readBody K fl headers) (Whole.body K headers) := by
  refine Refines.ite (fun _ => ?_) (fun _ => ?_)
  · exact readChunkedBody_refines fl
  · cases getContentLength K headers with
    | none => exact refines_pure []
    | some length => exact readExact_refines fl length

/-! ## Requests -/

/-- Parsing the headers, then taking their bytes off the buffer. -/
theorem takeHead_refines :
    Refines Parser.pending (parseHeaders H K >>= takeHead) (Whole.head H K) :=
  fun p => parseHeadersLoop_view H K (p.reader.content.length + 1) p (Nat.lt_succ_self _)

/-- What follows the head: the body, and the check of the URI. -/
def finishRequest (fl : Flavor) : Option Head → ParseM (Option Request)
  | none => pure none
  | some head => do
      let body ← readBody K fl head.headers
      if K.uriOk head.uri then
        pure (some ⟨head.method, head.uri, head.version, head.headers, body⟩)
      else throw (.err .invalidUri)

theorem parseRequest_eq (fl : Flavor) :
    parseRequest H K fl = (parseHeaders H K >>= takeHead) >>= finishRequest K fl := by
  rw [bind_assoc, parseRequest]
  refine congrArg _ (funext fun r => ?_)
  cases r with
  | none => rfl
  | some r =>
      obtain ⟨head, n⟩ := r
      show _ = (consumeBuf n >>= fun _ => pure (some head)) >>= finishRequest K fl
      rw [bind_assoc]
      rfl

/-- **REFINEMENT**: both parsers compute the request at the front of the stream
    and leave what is behind it. -/
theorem parseRequest_refines (fl : Flavor) :
    Refines Parser.pending (parseRequest H K fl) (Whole.request H K) := by
  rw [parseRequest_eq]
  refine (takeHead_refines H K).bind fun r => ?_
  cases r with
  | none => exact refines_pure none
  | some head =>
      refine (readBody_refines K fl head.headers).bind fun body => ?_
      exact Refines.ite (fun _ => refines_pure _) (fun _ => refines_throw _)

end DpdkNet
