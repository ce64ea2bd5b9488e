import DpdkNet.Http.ReadBoundaries

/-! # Connections

    `handle_connection` of `custom_http.rs` and `handle_http_connection` of
    `kimojio_server.rs`: parse a request, call the handler, write the response,
    and again while the connection is kept alive.  The loops are the same but for
    one call: kimojio resets its parser before the next request, and `reset`
    empties the buffer.

    What is in the buffer at that moment has been read from the connection and
    belongs to the next request.  So the two loops agree, and answer what is on
    the stream, as long as every reset finds the buffer empty; a client that
    pipelines loses requests. -/

namespace DpdkNet

open RustStr Refine

variable (H : Httparse) (K : HttpCrate)

/-- An `Fn(Request) -> Future<Response>`.  It may remember its earlier calls. -/
abbrev Handler := List Request → Request → Response

/-- What came of a connection: the calls of the handler, the responses written,
    and the result. -/
structure Served where
  calls : List Request
  written : List (List UInt8)
  result : Except Fault Unit
  deriving DecidableEq

def keepAlive (req : Request) : Bool := shouldKeepAlive K req.headers req.version

section Loop

-- the handler, and for each write, counted from the first, the error with which
-- it fails, if it does; the response of a failed write does not count as written
variable (handler : Handler) (fails : Nat → Option String)

/-- Call the handler, and set the Connection header based on keep-alive. -/
def respond (calls : List Request) (req : Request) : Response :=
  if keepAlive K req then handler calls req
  else
    { handler calls req with
      headers := (handler calls req).headers.insert "connection" (bytes "close") }

/-- The end of a connection whose parser failed. -/
def refuse (calls : List Request) (written : List (List UInt8)) : Fault → Served
  | .err .connectionClosed => ⟨calls, written, .ok ()⟩
  | .err e =>
      -- try to send an error response: a failure of this write is ignored
      match fails written.length with
      | none => ⟨calls, written ++ [serializeResponse K (badRequest e)], .error (.err e)⟩
      | some _ => ⟨calls, written, .error (.err e)⟩
  | f => ⟨calls, written, .error f⟩

/-- The loop of both, after the calls and the writes made so far. -/
def serve (parse : ParseM (Option Request)) (reset : Parser → Parser) :
    Nat → List Request → List (List UInt8) → Parser → Served
  | 0, calls, written, _ => ⟨calls, written, .error .outOfFuel⟩
  | fuel + 1, calls, written, p =>
      match parse p with
      | .error f => refuse K fails calls written f
      | .ok (none, _) => ⟨calls, written, .ok ()⟩
      | .ok (some req, p') =>
          match fails written.length with
          | some m => ⟨calls ++ [req], written, .error (.err (.io m))⟩
          | none =>
              let written := written ++ [serializeResponse K (respond K handler calls req)]
              if keepAlive K req then serve parse reset fuel (calls ++ [req]) written (reset p')
              else ⟨calls ++ [req], written, .ok ()⟩

/-- `custom_http::handle_connection` -/
def handleConnection (io : Delivery UInt8) : Served :=
  serve K handler fails (HttpParser.parseRequest H K) id (io.content.length + 1) [] [] (.new io)

/-- `kimojio_server::handle_http_connection` -/
def handleHttpConnection (reader : Delivery UInt8) : Served :=
  serve K handler fails (KimojioHttpParser.parseRequest H K) KimojioHttpParser.reset
    (reader.content.length + 1) [] [] (.new reader)

/-- What a connection should come to, given what repeated parsing of its stream
    yields: every request answered, in order, up to the first that is not kept
    alive or the end. -/
def answer : List Outcome → List Request → List (List UInt8) → Served
  | [], calls, written => ⟨calls, written, .error .outOfFuel⟩
  | .failed f :: _, calls, written => refuse K fails calls written f
  | .closed :: _, calls, written => ⟨calls, written, .ok ()⟩
  | .request req _ :: os, calls, written =>
      match fails written.length with
      | some m => ⟨calls ++ [req], written, .error (.err (.io m))⟩
      | none =>
          let written := written ++ [serializeResponse K (respond K handler calls req)]
          if keepAlive K req then answer os (calls ++ [req]) written
          else ⟨calls ++ [req], written, .ok ()⟩

end Loop

/-! ## Where the calls of the parser start -/

/-- The bytes in front of each call of `parse_request`, for at most `n` calls. -/
def starts (parse : ParseM (Option Request)) (reset : Parser → Parser) :
    Nat → Parser → List (List UInt8)
  | 0, p => [p.pending]
  | n + 1, p => p.pending ::
      match parse p with
      | .ok (some req, p') => if keepAlive K req then starts parse reset n (reset p') else []
      | _ => []

/-- Where they should: behind the request answered last. -/
def positions : List UInt8 → List Outcome → List (List UInt8)
  | s, .request req left :: os => s :: if keepAlive K req then positions left os else []
  | s, _ => [s]

theorem head?_starts (parse : ParseM (Option Request)) (reset : Parser → Parser) (n : Nat)
    (p : Parser) : (starts K parse reset n p).head? = some p.pending := by
  cases n with
  | zero => rfl
  | succ n => rfl

theorem head?_positions (s : List UInt8) (os : List Outcome) :
    (positions K s os).head? = some s := by
  rw [positions.eq_def]
  split
  · rfl
  · rfl

/-- Does each of the first `n` calls of `reset` find the buffer empty? -/
def resetsOnEmpty : Nat → Parser → Bool
  | 0, _ => true
  | n + 1, p =>
      match KimojioHttpParser.parseRequest H K p with
      | .ok (some req, p') =>
          if keepAlive K req then
            p'.buf.data.isEmpty && resetsOnEmpty n (KimojioHttpParser.reset p')
          else true
      | _ => true

/-! ## One call of the parser, on the stream -/

section Call

variable {fl : Flavor} {p : Parser}

theorem whole_of_parse_ok {r : Option Request} {p' : Parser}
    (h : parseRequest H K fl p = .ok (r, p')) :
    Whole.request H K p.pending = .ok (r, p'.pending) := by
  rw [← parseRequest_refines H K fl p, h]
  rfl

theorem whole_of_parse_error {f : Fault} (h : parseRequest H K fl p = .error f) :
    Whole.request H K p.pending = .error f := by
  rw [← parseRequest_refines H K fl p, h]
  rfl

end Call

/-- A header section takes at least one byte, if `httparse` does. -/
theorem Whole.head_lt
    (hpos : ∀ {q : List UInt8} {n : Nat} {raw : RawRequest}, H.parse q = .complete n raw → 0 < n)
    {s s' : List UInt8} {head : Head} (h : Whole.head H K s = .ok (some head, s')) :
    s'.length < s.length := by
  rw [Whole.head] at h
  split at h
  · cases h
  · rename_i n raw hparse
    have hn := hpos hparse
    have hle := H.complete_le hparse
    rw [List.length_take] at hle
    split at h
    · cases h
    · cases h
      rw [List.length_drop]
      omega
  · split at h
    · cases h
    · split at h
      · cases h
      · cases h

/-- **PROGRESS**: so does a request. -/
theorem Whole.request_lt
    (hpos : ∀ {q : List UInt8} {n : Nat} {raw : RawRequest}, H.parse q = .complete n raw → 0 < n)
    {s s' : List UInt8} {req : Request} (h : Whole.request H K s = .ok (some req, s')) :
    s'.length < s.length := by
  obtain ⟨r, s₁, h1, h⟩ := bind_eq_ok h
  cases r with
  | none => cases h
  | some head =>
      have hlt := Whole.head_lt H K hpos h1
      obtain ⟨body, s₂, h2, h⟩ := bind_eq_ok h
      have hle := (Whole.shrinks_body K head.headers s₁ body s₂ h2).length_le
      have hs : s' = s₂ := by
        split at h
        · cases h
          rfl
        · cases h
      rw [hs]
      omega

theorem KimojioHttpParser.pending_reset (p : Parser) : (reset p).pending = p.reader.content := rfl

/-- **A RESET IS HARMLESS EXACTLY ON AN EMPTY BUFFER**. -/
theorem KimojioHttpParser.reset_keeps_iff (p : Parser) :
    (reset p).pending = p.pending ↔ p.buf.data = [] := by
  rw [pending_reset, Parser.pending]
  exact List.self_eq_append_left

/-! ## The loops -/

variable (handler : Handler) (fails : Nat → Option String)

theorem refuse_ends {f : Fault} (hf : f ≠ .outOfFuel) (calls : List Request)
    (written : List (List UInt8)) :
    (refuse K fails calls written f).result ≠ .error .outOfFuel := by
  intro h
  rw [refuse.eq_def] at h
  split at h
  · cases h
  · split at h
    · cases h
    · cases h
  · cases h
    exact hf rfl

/-- Both loops return: every round consumes a request. -/
theorem serve_ends
    (hpos : ∀ {q : List UInt8} {n : Nat} {raw : RawRequest}, H.parse q = .complete n raw → 0 < n)
    (fl : Flavor) {reset : Parser → Parser}
    (hreset : ∀ p, (reset p).pending.length ≤ p.pending.length) :
    ∀ (n : Nat) (calls : List Request) (written : List (List UInt8)) (p : Parser),
      p.pending.length < n →
      (serve K handler fails (parseRequest H K fl) reset n calls written p).result
        ≠ .error .outOfFuel := by
  intro n
  induction n with
  | zero => intro calls written p hp; exact absurd hp (Nat.not_lt_zero _)
  | succ n ih =>
      intro calls written p hp
      rw [serve]
      cases hparse : parseRequest H K fl p with
      | error f =>
          have hf : f ≠ .outOfFuel := by
            rintro rfl
            exact Whole.ends_request H K _ (whole_of_parse_error H K hparse)
          exact refuse_ends K fails hf calls written
      | ok r =>
          obtain ⟨_ | req, p'⟩ := r
          · intro h
            cases h
          · have hlt := Whole.request_lt H K hpos (whole_of_parse_ok H K hparse)
            have hle := hreset p'
            cases fails written.length with
            | some m => intro h; cases h
            | none =>
                by_cases hk : keepAlive K req = true
                · simp only [hk, if_true]
                  exact ih _ _ (reset p') (by omega)
                · simp only [hk]
                  intro h
                  cases h

/-- Every reset on the way keeps what is pending. -/
def ResetsKeep (parse : ParseM (Option Request)) (reset : Parser → Parser) : Nat → Parser → Prop
  | 0, _ => True
  | n + 1, p =>
      ∀ req p', parse p = .ok (some req, p') → keepAlive K req = true →
        (reset p').pending = p'.pending ∧ ResetsKeep parse reset n (reset p')

theorem resetsKeep_id (parse : ParseM (Option Request)) :
    ∀ (n : Nat) (p : Parser), ResetsKeep K parse id n p := by
  intro n
  induction n with
  | zero => intro p; exact trivial
  | succ n ih =>
      intro p req p' _ _
      exact ⟨rfl, ih p'⟩

section Round

variable {K} {parse : ParseM (Option Request)} {reset : Parser → Parser} {n : Nat} {p p' : Parser}
  {req : Request}

theorem resetsKeep_of_kept (h : parse p = .ok (some req, p')) (hk : keepAlive K req = true) :
    ResetsKeep K parse reset (n + 1) p ↔
      (reset p').pending = p'.pending ∧ ResetsKeep K parse reset n (reset p') := by
  constructor
  · intro hkeep
    exact hkeep req p' h hk
  · intro hkeep req' p'' h' _
    rw [h] at h'
    cases h'
    exact hkeep

/-- Nothing is reset behind the last request. -/
theorem resetsKeep_of_last (h : parse p = .ok (some req, p')) (hk : ¬ keepAlive K req = true) :
    ResetsKeep K parse reset (n + 1) p := by
  intro req' p'' h' hk'
  rw [h] at h'
  cases h'
  exact absurd hk' hk

theorem resetsKeep_of_end (h : ∀ req p', parse p ≠ .ok (some req, p')) :
    ResetsKeep K parse reset (n + 1) p := by
  intro req' p'' h' _
  exact absurd h' (h req' p'')

end Round

theorem resetsOnEmpty_iff :
    ∀ (n : Nat) (p : Parser), resetsOnEmpty H K n p = true ↔
      ResetsKeep K (KimojioHttpParser.parseRequest H K) KimojioHttpParser.reset n p := by
  intro n
  induction n with
  | zero => intro p; exact iff_of_true rfl trivial
  | succ n ih =>
      intro p
      rw [resetsOnEmpty]
      cases hparse : KimojioHttpParser.parseRequest H K p with
      | error f =>
          refine iff_of_true rfl (resetsKeep_of_end ?_)
          intro req p' h
          rw [hparse] at h
          cases h
      | ok r =>
          obtain ⟨_ | req, p'⟩ := r
          · refine iff_of_true rfl (resetsKeep_of_end ?_)
            intro req p' h
            rw [hparse] at h
            cases h
          · by_cases hk : keepAlive K req = true
            · simp only [hk, if_true]
              rw [resetsKeep_of_kept hparse hk, Bool.and_eq_true, List.isEmpty_iff, ih,
                KimojioHttpParser.reset_keeps_iff]
            · simp only [hk]
              exact iff_of_true rfl (resetsKeep_of_last hparse hk)

/-- **SIMULATION**: a loop whose resets keep what is pending answers what is on
    the stream. -/
theorem serve_eq_answer (fl : Flavor) {reset : Parser → Parser} :
    ∀ (n : Nat) (calls : List Request) (written : List (List UInt8)) (p : Parser),
      ResetsKeep K (parseRequest H K fl) reset n p →
      serve K handler fails (parseRequest H K fl) reset n calls written p
        = answer K handler fails (Whole.outcomes H K n p.pending) calls written := by
  intro n
  induction n with
  | zero => intro calls written p _; rfl
  | succ n ih =>
      intro calls written p hkeep
      rw [serve, Whole.outcomes]
      cases hparse : parseRequest H K fl p with
      | error f =>
          rw [whole_of_parse_error H K hparse]
          rfl
      | ok r =>
          rw [whole_of_parse_ok H K hparse]
          obtain ⟨_ | req, p'⟩ := r
          · rfl
          · simp only [answer]
            cases fails written.length with
            | some m => rfl
            | none =>
                by_cases hk : keepAlive K req = true
                · obtain ⟨hpend, hkeep'⟩ := hkeep req p' hparse hk
                  simp only [hk, if_true]
                  rw [ih _ _ (reset p') hkeep', hpend]
                · simp only [hk, Bool.false_eq_true, if_false]

/-- It is also the only kind of loop whose calls of the parser all start where
    they should. -/
theorem starts_eq_positions_iff (fl : Flavor) {reset : Parser → Parser} :
    ∀ (n : Nat) (p : Parser),
      starts K (parseRequest H K fl) reset n p
          = positions K p.pending (Whole.outcomes H K n p.pending) ↔
        ResetsKeep K (parseRequest H K fl) reset n p := by
  intro n
  induction n with
  | zero => intro p; exact iff_of_true rfl trivial
  | succ n ih =>
      intro p
      rw [starts, Whole.outcomes]
      cases hparse : parseRequest H K fl p with
      | error f =>
          rw [whole_of_parse_error H K hparse]
          refine iff_of_true rfl (resetsKeep_of_end ?_)
          intro req p' h
          rw [hparse] at h
          cases h
      | ok r =>
          rw [whole_of_parse_ok H K hparse]
          obtain ⟨_ | req, p'⟩ := r
          · refine iff_of_true rfl (resetsKeep_of_end ?_)
            intro req p' h
            rw [hparse] at h
            cases h
          · simp only [positions, List.cons.injEq, true_and]
            by_cases hk : keepAlive K req = true
            · simp only [hk, if_true]
              rw [resetsKeep_of_kept hparse hk]
              constructor
              · intro h
                -- both lists start with the position of the next call
                have hpend : (reset p').pending = p'.pending := by
                  have h0 := congrArg List.head? h
                  rw [head?_starts, head?_positions] at h0
                  exact Option.some.inj h0
                refine ⟨hpend, (ih (reset p')).mp ?_⟩
                rw [hpend]
                exact h
              · rintro ⟨hpend, hkeep⟩
                rw [(ih (reset p')).mpr hkeep, hpend]
            · simp only [hk]
              exact iff_of_true rfl (resetsKeep_of_last hparse hk)

/-- **PIPELINED REQUESTS**: take a stream and two ways of delivering it.  If every
    reset of the kimojio connection on the first finds the buffer empty, the
    connection calls the handler on the requests of the stream and writes their
    responses, which is what `handle_connection` does on the second; it always
    returns.  The condition is that no byte of the stream is skipped: every call
    of the parser starts right behind the request answered before. -/
theorem kimojio_answers_the_stream
    (hpos : ∀ {q : List UInt8} {n : Nat} {raw : RawRequest}, H.parse q = .complete n raw → 0 < n)
    (d₁ d₂ : Delivery UInt8) (h : d₁.content = d₂.content) :
    (resetsOnEmpty H K (d₁.content.length + 1) (.new d₁) = true →
      handleHttpConnection H K handler fails d₁
          = answer K handler fails
              (outcomes (HttpParser.parseRequest H K) (d₂.content.length + 1) (.new d₂)) [] [] ∧
      handleHttpConnection H K handler fails d₁ = handleConnection H K handler fails d₂) ∧
    (resetsOnEmpty H K (d₁.content.length + 1) (.new d₁) = true ↔
      starts K (KimojioHttpParser.parseRequest H K) KimojioHttpParser.reset
          (d₁.content.length + 1) (.new d₁)
        = positions K d₂.content
            (outcomes (HttpParser.parseRequest H K) (d₂.content.length + 1) (.new d₂))) ∧
    (handleHttpConnection H K handler fails d₁).result ≠ .error .outOfFuel := by
  have hwhole : outcomes (HttpParser.parseRequest H K) (d₂.content.length + 1) (.new d₂)
      = Whole.outcomes H K (d₁.content.length + 1) d₁.content := by
    rw [h]
    exact outcomes_eq_whole H K .tokio _ (.new d₂)
  refine ⟨fun hempty => ?_, ?_, ?_⟩
  · have hk : handleHttpConnection H K handler fails d₁ = answer K handler fails
        (Whole.outcomes H K (d₁.content.length + 1) d₁.content) [] [] :=
      serve_eq_answer H K handler fails .kimojio _ [] [] (.new d₁)
        ((resetsOnEmpty_iff H K _ _).mp hempty)
    have hc : handleConnection H K handler fails d₂ = answer K handler fails
        (Whole.outcomes H K (d₂.content.length + 1) d₂.content) [] [] :=
      serve_eq_answer H K handler fails .tokio _ [] [] (.new d₂) (resetsKeep_id K _ _ _)
    rw [hwhole, hc, ← h]
    exact ⟨hk, hk⟩
  · rw [hwhole, resetsOnEmpty_iff, ← h]
    exact (starts_eq_positions_iff H K .kimojio _ (.new d₁)).symm
  · refine serve_ends H K handler fails hpos .kimojio ?_ _ [] [] (.new d₁) (Nat.lt_succ_self _)
    intro p
    rw [KimojioHttpParser.pending_reset, Parser.pending, List.length_append]
    exact Nat.le_add_left _ _

/-! ## Two requests -/

/-- A handler that answers with an empty `200 OK`. -/
def okHandler : Handler := fun _ _ => ⟨.http11, 200, [], []⟩

theorem getRootParser_pos {q : List UInt8} {n : Nat} {raw : RawRequest}
    (h : getRootParser.parse q = .complete n raw) : 0 < n := by
  simp only [getRootParser] at h
  split at h
  · cases h
    exact Nat.succ_pos _
  · split at h
    · cases h
    · cases h

/-- Each of the two requests arrives by itself. -/
theorem kimojio_answers_separate_requests :
    handleHttpConnection getRootParser asciiCrate okHandler (fun _ => none)
        ⟨[getRoot, getRoot], by decide⟩
      = handleConnection getRootParser asciiCrate okHandler (fun _ => none)
        (Delivery.whole (getRoot ++ getRoot)) :=
  ((kimojio_answers_the_stream getRootParser asciiCrate okHandler (fun _ => none)
    getRootParser_pos
    ⟨[getRoot, getRoot], by decide⟩ (Delivery.whole (getRoot ++ getRoot)) (by decide)).1
    (by decide +kernel)).2

/-- They arrive in one read: the second one is never answered. -/
theorem kimojio_drops_pipelined_request :
    (handleHttpConnection getRootParser asciiCrate okHandler (fun _ => none)
      (Delivery.whole (getRoot ++ getRoot))).calls.length = 1 ∧
    (answer asciiCrate okHandler (fun _ => none)
      (outcomes (HttpParser.parseRequest getRootParser asciiCrate) 37
        (.new (Delivery.whole (getRoot ++ getRoot)))) [] []).calls.length = 2 ∧
    (handleConnection getRootParser asciiCrate okHandler (fun _ => none)
      (Delivery.whole (getRoot ++ getRoot))).calls.length = 2 := by
  decide +kernel

end DpdkNet
