import DpdkNet.Http.Connection

/-! # Requests one at a time

    A client that waits for each response before it sends the next request: what
    it sends arrives in any pieces, but no piece holds bytes of two requests.

    Both parsers read only while their request is incomplete.  So a request
    whose bytes are all there is parsed without waiting for more, and nothing of
    what comes later is in the buffer when it is done.  On such a connection the
    reset of the kimojio parser is harmless, and every request is answered. -/

namespace DpdkNet

open RustStr Refine

variable (H : Httparse) (K : HttpCrate)

/-! ## No read ahead -/

/-- `m` does to a parser what `w` does to a stream of which only the front is
    there: what is in the buffer and in the pieces `ps`.  The pieces behind them
    stay as they are. -/
def Stays {α : Type} (m : ParseM α) (w : StreamM α) : Prop :=
  ∀ (qs ps : List (List UInt8)) (p : Parser) (a : α) (s : List UInt8),
    p.reader.pieces = ps ++ qs → w (p.buf.data ++ ps.flatten) = .ok (a, s) →
    ∃ ps' p', m p = .ok (a, p') ∧ p'.reader.pieces = ps' ++ qs ∧ p'.buf.data ++ ps'.flatten = s

section Rules

variable {α β : Type} {m : ParseM α} {w : StreamM α} {f : α → ParseM β} {g : α → StreamM β}

theorem stays_pure (a : α) : Stays (pure a) (pure a) := by
  intro qs ps p b s hp hw
  cases hw
  exact ⟨ps, p, rfl, hp, rfl⟩

theorem stays_throw (e : Fault) : Stays (throw e : ParseM α) (throw e) := by
  intro qs ps p b s hp hw
  cases hw

theorem Stays.bind (hm : Stays m w) (hf : ∀ a, Stays (f a) (g a)) : Stays (m >>= f) (w >>= g) := by
  intro qs ps p b s hp hw
  obtain ⟨a, s₁, hw₁, hw₂⟩ := bind_eq_ok hw
  obtain ⟨ps₁, p₁, hm₁, hp₁, rfl⟩ := hm qs ps p a s₁ hp hw₁
  obtain ⟨ps₂, p₂, hf₂, hp₂, hs⟩ := hf a qs ps₁ p₁ b s hp₁ hw₂
  exact ⟨ps₂, p₂, (bind_of_ok hm₁).trans hf₂, hp₂, hs⟩

end Rules

/-- A read while some of the front is not in the buffer yet. -/
theorem readMore_stays {qs ps : List (List UInt8)} {p : Parser} (hp : p.reader.pieces = ps ++ qs)
    (hps : ps ≠ []) (hroom : p.buf.data.length < maxBufSize) :
    ∃ c ps' p', c ≠ [] ∧ readMore p = .ok (c.length, p') ∧ p'.buf.data = p.buf.data ++ c ∧
      p'.reader.pieces = ps' ++ qs ∧ c ++ ps'.flatten = ps.flatten := by
  rcases p.buf.grow_cases with ⟨-, hfull⟩ | ⟨b, hg, hdata, hlt⟩
  · omega
  · obtain ⟨hne, ps', hp', hflat⟩ := Delivery.read_pieces hp hps (Nat.sub_pos_of_lt hlt)
    refine ⟨(p.reader.read (b.cap - b.data.length)).1, ps',
      ⟨b.extend (p.reader.read (b.cap - b.data.length)).1 (p.reader.length_read_le _),
        (p.reader.read (b.cap - b.data.length)).2⟩, hne, ?_, ?_, hp', hflat⟩
    · simp only [readMore, hg]
    · show b.data ++ _ = _
      rw [hdata]

/-- **LINES**. -/
theorem readLineLoop_stays {qs : List (List UInt8)} :
    ∀ (fuel : Nat) (line : List UInt8) (ps : List (List UInt8)) (p : Parser) (a : List Char)
      (s : List UInt8), ps.flatten.length < fuel → 10 ∉ line → p.reader.pieces = ps ++ qs →
      Whole.line (line ++ (p.buf.data ++ ps.flatten)) = .ok (a, s) →
      ∃ ps' p', readLineLoop fuel line p = .ok (a, p') ∧ p'.reader.pieces = ps' ++ qs ∧
        p'.buf.data ++ ps'.flatten = s := by
  intro fuel
  induction fuel with
  | zero => intro line ps p a s hfuel; exact absurd hfuel (Nat.not_lt_zero _)
  | succ fuel ih =>
      intro line ps p a s hfuel hline hp hw
      rw [readLineLoop_succ]
      cases hf : p.buf.data.findIdx? (· == 10) with
      | some pos =>
          obtain ⟨hlt, -⟩ := List.findIdx?_eq_some_iff_getElem.mp hf
          have hfind : (line ++ (p.buf.data ++ ps.flatten)).findIdx? (· == 10)
              = some (pos + line.length) := by
            rw [Whole.findIdx?_append hline, List.findIdx?_append, hf]
            rfl
          have htake : (line ++ (p.buf.data ++ ps.flatten)).take (pos + line.length)
              = line ++ p.buf.data.take pos := by
            rw [Nat.add_comm, List.take_length_add_append,
              List.take_append_of_le_length (Nat.le_of_lt hlt)]
          have hdrop : (line ++ (p.buf.data ++ ps.flatten)).drop (pos + line.length + 1)
              = p.buf.data.drop (pos + 1) ++ ps.flatten := by
            rw [Nat.add_right_comm, Nat.add_comm, List.drop_length_add_append,
              List.drop_append_of_le_length hlt]
          have hle : pos + 1 ≤ p.buf.data.length := hlt
          rw [Whole.line, hfind] at hw
          simp only [htake, hdrop] at hw
          cases hw
          simp only [hle, if_true]
          exact ⟨ps, _, rfl, hp, rfl⟩
      | none =>
          have hdata : 10 ∉ p.buf.data := by
            intro hm
            have := List.findIdx?_eq_none_iff.mp hf 10 hm
            cases this
          have hline' : 10 ∉ line ++ p.buf.data := by
            rw [List.mem_append, not_or]
            exact ⟨hline, hdata⟩
          -- the line feed is still to come
          have hps : ps ≠ [] := by
            rintro rfl
            rw [List.flatten_nil, List.append_nil, Whole.line,
              ← List.append_nil (line ++ p.buf.data), Whole.findIdx?_append hline'] at hw
            cases hw
          obtain ⟨c, ps', p', hc, hr, hd, hp', hflat⟩ :=
            readMore_stays (p := { p with buf := p.buf.clear }) hp hps (Nat.zero_lt_succ _)
          have hd' : p'.buf.data = c := hd
          have hpos := List.length_pos_of_ne_nil hc
          have hlen := congrArg List.length hflat
          rw [List.length_append] at hlen
          simp only [hr, Nat.ne_of_gt hpos, if_false]
          refine ih (line ++ p.buf.data) ps' p' a s (by omega) hline' hp' ?_
          rw [hd', hflat, List.append_assoc]
          exact hw

theorem readLine_stays : Stays readLine Whole.line := by
  intro qs ps p a s hp hw
  refine readLineLoop_stays (p.reader.content.length + 1) [] ps p a s ?_ List.not_mem_nil hp hw
  rw [Delivery.content, hp, List.flatten_append, List.length_append]
  omega

/-- **EXACT READS**. -/
theorem readExact_stays (fl : Flavor) (len : Nat) : Stays (readExact fl len) (Whole.exact len) := by
  intro qs ps p a s hp hw
  have hm : min p.buf.data.length len ≤ p.buf.data.length := Nat.min_le_left _ _
  rw [Whole.exact] at hw
  by_cases hbig : isizeMax < len
  · rw [if_pos hbig] at hw
    cases hw
  · have hcap : withCapacity len p = .ok ((), p) := if_neg hbig
    rw [if_neg hbig] at hw
    by_cases henough : len ≤ (p.buf.data ++ ps.flatten).length
    · rw [if_pos henough] at hw
      cases hw
      rw [readExact, bind_of_ok hcap, bind_of_ok (valid_eq p), bind_of_ok (consumeBuf_of_le hm)]
      by_cases hin : len ≤ p.buf.data.length
      · -- all of it is in the buffer
        rw [Nat.min_eq_right hin, if_neg (Nat.lt_irrefl _), List.take_append_of_le_length hin,
          List.drop_append_of_le_length hin]
        exact ⟨ps, _, rfl, hp, rfl⟩
      · have hlt := Nat.not_le.mp hin
        rw [Nat.min_eq_left (Nat.le_of_lt hlt), if_pos hlt, List.take_length]
        rw [List.length_append] at henough
        obtain ⟨d', ps', hfill, hd', hrest⟩ := Delivery.fill_pieces fl.offer_pos fl.offer_le
          (len - p.buf.data.length) (len - p.buf.data.length) [] p.reader ps (Nat.le_refl _) hp
          (by omega)
        refine ⟨ps', ⟨p.buf.drop p.buf.data.length, d'⟩, ?_, hd', ?_⟩
        · show (readRest fl (len - p.buf.data.length) { p with buf := p.buf.drop p.buf.data.length }
            >>= fun r => .ok (p.buf.data ++ r.1, r.2)) = _
          rw [readRest]
          simp only [hfill]
          show Except.ok (p.buf.data ++ ([] ++ ps.flatten.take (len - p.buf.data.length)), _) = _
          rw [List.nil_append, List.take_append, List.take_of_length_le (Nat.le_of_lt hlt)]
        · show p.buf.data.drop p.buf.data.length ++ ps'.flatten = _
          rw [List.drop_length, hrest, List.drop_append, List.drop_eq_nil_of_le (Nat.le_of_lt hlt)]
    · rw [if_neg henough] at hw
      cases hw

/-- **CHUNKS**; the loop may have more fuel than the stream needs. -/
theorem readChunkedLoop_stays (fl : Flavor) :
    ∀ (n fuel : Nat) (body : List UInt8), n ≤ fuel →
      Stays (readChunkedLoop fl fuel body) (Whole.chunkedLoop n body) := by
  intro n
  induction n with
  | zero =>
      intro fuel body _ qs ps p a s _ hw
      cases hw
  | succ n ih =>
      intro fuel body hle
      cases fuel with
      | zero => exact absurd hle (Nat.not_succ_le_zero _)
      | succ fuel =>
          refine readLine_stays.bind fun sizeLine => ?_
          cases chunkSize sizeLine with
          | none => exact stays_throw _
          | some size =>
              by_cases hsize : size = 0
              · simp only [hsize, if_true]
                exact readLine_stays.bind fun _ => stays_pure body
              · simp only [hsize, if_false]
                exact (readExact_stays fl size).bind fun chunk =>
                  readLine_stays.bind fun _ => ih fuel (body ++ chunk) (Nat.le_of_succ_le_succ hle)

theorem readBody_stays (fl : Flavor) (headers : HeaderMap) :
    Stays (readBody K fl headers) (Whole.body K headers) := by
  rw [readBody, Whole.body]
  by_cases hchunked : isChunked K headers = true
  · rw [if_pos hchunked, if_pos hchunked]
    intro qs ps p a s hp hw
    refine readChunkedLoop_stays fl ((p.buf.data ++ ps.flatten).length + 1) (p.pending.length + 1)
      [] ?_ qs ps p a s hp hw
    rw [Parser.pending, Delivery.content, hp, List.flatten_append, List.length_append,
      List.length_append, List.length_append]
    omega
  · rw [if_neg hchunked, if_neg hchunked]
    cases getContentLength K headers with
    | none => exact stays_pure []
    | some length => exact readExact_stays fl length

/-- Bytes that fill the buffer, or are all there is, and decide nothing do not
    begin with a header section. -/
theorem Whole.head_of_undecided {data rest : List UInt8} (hmore : H.parse data = .more)
    (h : (data ++ rest).take maxBufSize = data) (head : Head) (s : List UInt8) :
    Whole.head H K (data ++ rest) ≠ .ok (some head, s) := by
  intro hw
  rw [Whole.head, h, hmore] at hw
  simp only at hw
  split at hw
  · cases hw
  · split at hw
    · cases hw
    · cases hw

/-- **HEADERS**. -/
theorem parseHeadersLoop_stays {qs : List (List UInt8)} :
    ∀ (fuel : Nat) (ps : List (List UInt8)) (p : Parser) (head : Head) (s : List UInt8),
      ps.flatten.length < fuel → p.reader.pieces = ps ++ qs →
      Whole.head H K (p.buf.data ++ ps.flatten) = .ok (some head, s) →
      ∃ ps' p', (parseHeadersLoop H K fuel >>= takeHead) p = .ok (some head, p') ∧
        p'.reader.pieces = ps' ++ qs ∧ p'.buf.data ++ ps'.flatten = s := by
  intro fuel
  induction fuel with
  | zero => intro ps p head s hfuel; exact absurd hfuel (Nat.not_lt_zero _)
  | succ fuel ih =>
      intro ps p head s hfuel hp hw
      obtain ⟨q, hq⟩ := parse_take p.buf.data ps.flatten p.buf.length_le
      show ∃ ps' p', (parseHeadersLoop H K (fuel + 1) p >>= fun r => takeHead r.1 r.2) = _ ∧ _
      rw [parseHeadersLoop_succ]
      cases hparse : H.parse p.buf.data with
      | error e =>
          rw [Whole.head, hq, H.error_stable q hparse] at hw
          cases hw
      | complete n raw =>
          have hn := H.complete_le hparse
          rw [Whole.head, hq, H.complete_stable q hparse] at hw
          cases hhead : toHead K raw with
          | error e =>
              simp only [hhead] at hw
              cases hw
          | ok head' =>
              simp only [hhead] at hw
              cases hw
              simp only [hhead]
              refine ⟨ps, { p with buf := p.buf.drop n }, ?_, hp, ?_⟩
              · show (consumeBuf n >>= fun _ => pure (some head)) p = _
                rw [bind_of_ok (consumeBuf_of_le hn)]
                rfl
              · exact (List.drop_append_of_le_length hn).symm
      | more =>
          -- the section is not complete: some of it is still to come
          have hps : ps ≠ [] := by
            rintro rfl
            have hall : (p.buf.data ++ ([] : List (List UInt8)).flatten).take maxBufSize
                = p.buf.data := by
              rw [List.flatten_nil, List.append_nil]
              exact List.take_of_length_le p.buf.length_le
            exact Whole.head_of_undecided H K hparse hall head s hw
          have hroom : p.buf.data.length < maxBufSize := by
            refine Nat.lt_of_le_of_ne p.buf.length_le fun hfull => ?_
            refine Whole.head_of_undecided H K hparse ?_ head s hw
            rw [← hfull]
            exact List.take_left
          obtain ⟨c, ps', p', hc, hr, hd, hp', hflat⟩ := readMore_stays hp hps hroom
          have hpos := List.length_pos_of_ne_nil hc
          have hlen := congrArg List.length hflat
          rw [List.length_append] at hlen
          simp only [hr, Nat.ne_of_gt hpos, if_false]
          refine ih ps' p' head s (by omega) hp' ?_
          rw [hd, List.append_assoc, hflat]
          exact hw

/-- **NO READ AHEAD**: a request whose bytes are in the buffer and in the pieces
    `ps` is parsed from these; nothing behind them is read. -/
theorem parseRequest_stays (fl : Flavor) {qs ps : List (List UInt8)} {p : Parser} {req : Request}
    {s : List UInt8} (hp : p.reader.pieces = ps ++ qs)
    (hw : Whole.request H K (p.buf.data ++ ps.flatten) = .ok (some req, s)) :
    ∃ ps' p', parseRequest H K fl p = .ok (some req, p') ∧ p'.reader.pieces = ps' ++ qs ∧
      p'.buf.data ++ ps'.flatten = s := by
  obtain ⟨r, s₁, hhead, hrest⟩ := bind_eq_ok hw
  cases r with
  | none => cases hrest
  | some head =>
      have hfuel : ps.flatten.length < p.reader.content.length + 1 := by
        rw [Delivery.content, hp, List.flatten_append, List.length_append]
        omega
      obtain ⟨ps₁, p₁, hm₁, hp₁, rfl⟩ :=
        parseHeadersLoop_stays H K (p.reader.content.length + 1) ps p head s₁ hfuel hp hhead
      have hfinish : Stays (finishRequest K fl (some head))
          (do
            let body ← Whole.body K head.headers
            if K.uriOk head.uri then
              pure (some ⟨head.method, head.uri, head.version, head.headers, body⟩)
            else throw (.err .invalidUri)) := by
        refine (readBody_stays K fl head.headers).bind fun body => ?_
        by_cases huri : K.uriOk head.uri = true
        · rw [if_pos huri, if_pos huri]
          exact stays_pure _
        · rw [if_neg huri, if_neg huri]
          exact stays_throw _
      obtain ⟨ps₂, p₂, hm₂, hp₂, hs⟩ := hfinish qs ps₁ p₁ (some req) s hp₁ hrest
      refine ⟨ps₂, p₂, ?_, hp₂, hs⟩
      rw [parseRequest_eq]
      have hhead' : (parseHeaders H K >>= takeHead) p = .ok (some head, p₁) := hm₁
      rw [bind_of_ok hhead']
      exact hm₂

/-! ## One request after the other -/

/-- A request and the pieces in which it arrives, with nothing of another in
    them. -/
structure Sent where
  pieces : List (List UInt8)
  req : Request
  whole : Whole.request H K pieces.flatten = .ok (some req, [])

variable {H K}

/-- It is there to be parsed, and nothing is left of it. -/
theorem Sent.parse (fl : Flavor) (e : Sent H K) {qs : List (List UInt8)} {p : Parser}
    (hbuf : p.buf.data = []) (hp : p.reader.pieces = e.pieces ++ qs) :
    ∃ p', parseRequest H K fl p = .ok (some e.req, p') ∧ p'.buf.data = [] ∧
      p'.reader.pieces = qs := by
  have hw : Whole.request H K (p.buf.data ++ e.pieces.flatten) = .ok (some e.req, []) := by
    rw [hbuf]
    exact e.whole
  obtain ⟨ps', p', hparse, hp', hnil⟩ := parseRequest_stays H K fl hp hw
  obtain ⟨hbuf', hps'⟩ := List.append_eq_nil_iff.mp hnil
  refine ⟨p', hparse, hbuf', ?_⟩
  cases ps' with
  | nil => exact hp'
  | cons c cs =>
      -- a piece is never empty
      have hc : c ∈ p'.reader.pieces := by
        rw [hp']
        exact List.mem_cons_self
      exact absurd (List.flatten_eq_nil_iff.mp hps' c List.mem_cons_self) (p'.reader.nonempty c hc)

/-- **RUN**: whichever the parser and whether or not it is reset in between, the
    requests are answered in turn, and then what follows them. -/
theorem serve_in_turn (handler : Handler) (fails : Nat → Option String) (fl : Flavor)
    {reset : Parser → Parser} {qs : List (List UInt8)}
    (hreset : ∀ p, p.buf.data = [] → (reset p).buf.data = [] ∧ (reset p).reader = p.reader)
    (hqs : ∀ req s, Whole.request H K qs.flatten ≠ .ok (some req, s)) :
    ∀ (es : List (Sent H K)) (n : Nat) (calls : List Request) (written : List (List UInt8))
      (p : Parser), es.length < n → p.buf.data = [] →
      p.reader.pieces = (es.map Sent.pieces).flatten ++ qs →
      serve K handler fails (parseRequest H K fl) reset n calls written p
        = answer K handler fails
            (es.map (fun e => .request e.req []) ++ Whole.outcomes H K 1 qs.flatten) calls written := by
  intro es
  induction es with
  | nil =>
      intro n calls written p hn hbuf hp
      obtain ⟨n, rfl⟩ := Nat.exists_eq_succ_of_ne_zero (Nat.ne_of_gt hn)
      have hpend : p.pending = qs.flatten := by
        rw [Parser.pending, hbuf, Delivery.content, hp]
        rfl
      rw [serve, List.map_nil, List.nil_append, Whole.outcomes]
      cases hparse : parseRequest H K fl p with
      | error f =>
          have hw := whole_of_parse_error H K hparse
          rw [hpend] at hw
          rw [hw]
          rfl
      | ok r =>
          have hw := whole_of_parse_ok H K hparse
          rw [hpend] at hw
          obtain ⟨_ | req, p'⟩ := r
          · rw [hw]
            rfl
          · exact absurd hw (hqs req _)
  | cons e es ih =>
      intro n calls written p hn hbuf hp
      obtain ⟨n, rfl⟩ := Nat.exists_eq_succ_of_ne_zero (Nat.ne_of_gt (Nat.zero_lt_of_lt hn))
      rw [List.map_cons, List.flatten_cons, List.append_assoc] at hp
      obtain ⟨p', hparse, hbuf', hp'⟩ := e.parse fl hbuf hp
      rw [serve, hparse, List.map_cons, List.cons_append, answer]
      simp only
      cases fails written.length with
      | some m => rfl
      | none =>
          by_cases hk : keepAlive K e.req = true
          · obtain ⟨hbuf'', hreader⟩ := hreset p' hbuf'
            simp only [hk, if_true]
            refine ih n _ _ (reset p') (Nat.lt_of_succ_lt_succ hn) hbuf'' ?_
            rw [hreader]
            exact hp'
          · simp only [hk, Bool.false_eq_true, if_false]

/-- Every request has a byte. -/
theorem length_sent_le
    (hpos : ∀ {q : List UInt8} {n : Nat} {raw : RawRequest}, H.parse q = .complete n raw → 0 < n) :
    ∀ es : List (Sent H K), es.length ≤ (es.map Sent.pieces).flatten.flatten.length := by
  intro es
  induction es with
  | nil => exact Nat.le_refl _
  | cons e es ih =>
      have hlt := Whole.request_lt H K hpos e.whole
      rw [List.map_cons, List.flatten_cons, List.flatten_append, List.length_append,
        List.length_cons]
      omega

/-- A server that resets its parser in a harmless way, or not at all. -/
theorem serve_new_in_turn (handler : Handler) (fails : Nat → Option String) (fl : Flavor)
    {reset : Parser → Parser}
    (hreset : ∀ p, p.buf.data = [] → (reset p).buf.data = [] ∧ (reset p).reader = p.reader)
    (hpos : ∀ {q : List UInt8} {n : Nat} {raw : RawRequest}, H.parse q = .complete n raw → 0 < n)
    (es : List (Sent H K)) {qs : List (List UInt8)}
    (hqs : ∀ req s, Whole.request H K qs.flatten ≠ .ok (some req, s))
    {d : Delivery UInt8} (hd : d.pieces = (es.map Sent.pieces).flatten ++ qs) :
    serve K handler fails (parseRequest H K fl) reset (d.content.length + 1) [] [] (.new d)
      = answer K handler fails
          (es.map (fun e => .request e.req []) ++ Whole.outcomes H K 1 qs.flatten) [] [] := by
  have hfuel : es.length < d.content.length + 1 := by
    have := length_sent_le hpos es
    rw [Delivery.content, hd, List.flatten_append, List.length_append]
    omega
  exact serve_in_turn handler fails fl hreset hqs es _ [] [] (.new d) hfuel rfl hd

theorem KimojioHttpParser.reset_empty (p : Parser) (_ : p.buf.data = []) :
    (reset p).buf.data = [] ∧ (reset p).reader = p.reader := ⟨rfl, rfl⟩

/-- **NO PIPELINING**: on a connection on which no read returns bytes of two
    requests, both servers call the handler on the requests in turn and write
    the responses, up to the first request that is not kept alive or the first
    write that fails, and then deal with what follows the last. -/
theorem requests_in_turn_answered (handler : Handler) (fails : Nat → Option String)
    (hpos : ∀ {q : List UInt8} {n : Nat} {raw : RawRequest}, H.parse q = .complete n raw → 0 < n)
    (es : List (Sent H K)) (qs : List (List UInt8))
    (hqs : ∀ req s, Whole.request H K qs.flatten ≠ .ok (some req, s))
    (d : Delivery UInt8) (hd : d.pieces = (es.map Sent.pieces).flatten ++ qs) :
    handleHttpConnection H K handler fails d
        = answer K handler fails
            (es.map (fun e => .request e.req []) ++ Whole.outcomes H K 1 qs.flatten) [] [] ∧
    handleConnection H K handler fails d
        = answer K handler fails
            (es.map (fun e => .request e.req []) ++ Whole.outcomes H K 1 qs.flatten) [] [] := by
  constructor
  · exact serve_new_in_turn handler fails .kimojio KimojioHttpParser.reset_empty hpos es hqs hd
  · exact serve_new_in_turn handler fails .tokio (fun p hp => ⟨hp, rfl⟩) hpos es hqs hd

/-! ## Connections that are kept alive -/

/-- The responses to requests that come after these calls. -/
def replies (K : HttpCrate) (handler : Handler) :
    List Request → List Request → List (List UInt8)
  | _, [] => []
  | calls, req :: reqs =>
      serializeResponse K (handler calls req) :: replies K handler (calls ++ [req]) reqs

/-- All of them are answered if all keep the connection alive. -/
theorem answer_kept (handler : Handler) :
    ∀ (reqs calls : List Request) (written : List (List UInt8)),
      (∀ req ∈ reqs, keepAlive K req = true) →
      answer K handler (fun _ => none) (reqs.map (fun req => .request req []) ++ [.closed]) calls
          written
        = ⟨calls ++ reqs, written ++ replies K handler calls reqs, .ok ()⟩ := by
  intro reqs
  induction reqs with
  | nil =>
      intro calls written _
      rw [replies, List.append_nil, List.append_nil]
      rfl
  | cons req reqs ih =>
      intro calls written hk
      rw [List.forall_mem_cons] at hk
      rw [List.map_cons, List.cons_append, answer]
      simp only [hk.1, if_true]
      rw [ih _ _ hk.2, respond, if_pos hk.1, replies, List.append_assoc, List.append_assoc,
        List.singleton_append, List.singleton_append]

/-- A client that sends its requests in turn, asks for the connection to be kept
    and then closes it: each request is answered, and the end is clean. -/
theorem serve_kept (handler : Handler) (fl : Flavor) {reset : Parser → Parser}
    (hreset : ∀ p, p.buf.data = [] → (reset p).buf.data = [] ∧ (reset p).reader = p.reader)
    (hnil : H.parse [] = .more)
    (hpos : ∀ {q : List UInt8} {n : Nat} {raw : RawRequest}, H.parse q = .complete n raw → 0 < n)
    (es : List (Sent H K)) (hk : ∀ e ∈ es, keepAlive K e.req = true) {d : Delivery UInt8}
    (hd : d.pieces = (es.map Sent.pieces).flatten) :
    serve K handler (fun _ => none) (parseRequest H K fl) reset (d.content.length + 1) [] [] (.new d)
      = ⟨es.map Sent.req, replies K handler [] (es.map Sent.req), .ok ()⟩ := by
  have hend : Whole.request H K ([] : List (List UInt8)).flatten = .ok (none, []) := by
    have hhead : Whole.head H K [] = .ok (none, []) := by
      rw [Whole.head, List.take_nil, hnil]
      rfl
    exact bind_of_ok hhead
  have hqs : ∀ req s, Whole.request H K ([] : List (List UInt8)).flatten ≠ .ok (some req, s) := by
    intro req s h
    rw [hend] at h
    cases h
  have hd' : d.pieces = (es.map Sent.pieces).flatten ++ [] := by
    rw [List.append_nil]
    exact hd
  have hreqs : es.map (fun e => Outcome.request e.req [])
      = (es.map Sent.req).map fun req => .request req [] := by
    rw [List.map_map]
    rfl
  have hkept : ∀ req ∈ es.map Sent.req, keepAlive K req = true := by
    intro req hreq
    obtain ⟨e, he, rfl⟩ := List.mem_map.mp hreq
    exact hk e he
  rw [serve_new_in_turn handler (fun _ => none) fl hreset hpos es hqs hd', Whole.outcomes, hend, hreqs]
  simp only
  rw [answer_kept handler _ [] [] hkept, List.nil_append, List.nil_append]

/-! ## Two requests in turn -/

/-- `getRoot` in two pieces. -/
def cutRoot : Sent getRootParser asciiCrate where
  pieces := [getRoot.take 5, getRoot.drop 5]
  req := ⟨"GET", "/", .http11, [], []⟩
  whole := by decide +kernel

/-- Two requests in turn, and the beginning of a third. -/
theorem two_requests_in_turn :
    (handleHttpConnection getRootParser asciiCrate okHandler (fun _ => none)
      ⟨[getRoot.take 5, getRoot.drop 5, getRoot.take 5, getRoot.drop 5, getRoot.take 3],
        by decide⟩).calls
      = [cutRoot.req, cutRoot.req] := by
  refine (congrArg Served.calls
    (requests_in_turn_answered okHandler (fun _ => none) getRootParser_pos [cutRoot, cutRoot]
      [getRoot.take 3] ?_ _ rfl).1).trans rfl
  intro req s h
  cases h

end DpdkNet
