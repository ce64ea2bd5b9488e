import DpdkNet.Http.WholeStream

/-! # Parsing does not depend on read boundaries

    Repeated calls of `parse_request` on one connection, up to the first that
    returns no request.  Both parsers refine `Whole.request` along the bytes
    that are pending, so what they return is a function of the stream: not of
    the pieces in which it arrives, and not of which of the two it is.

    The computations end by themselves.  `Ends` and `Shrinks` say so for the
    stream: no fuel runs out, and what a call leaves is the end of what it was
    given. -/

namespace DpdkNet

open RustStr Refine

variable (H : Httparse) (K : HttpCrate)

/-- What one call returns: a request, with the bytes left unread behind it, or
    that the connection was closed, or a failure. -/
inductive Outcome where
  | request (req : Request) (left : List UInt8)
  | closed
  | failed (f : Fault)
  deriving DecidableEq, Repr

/-- The outcomes of at most `n` calls, up to the first that is no request. -/
def outcomes (parse : ParseM (Option Request)) : Nat → Parser → List Outcome
  | 0, _ => []
  | n + 1, p =>
      match parse p with
      | .ok (some req, p') => .request req p'.pending :: outcomes parse n p'
      | .ok (none, _) => [.closed]
      | .error f => [.failed f]

/-- The same on a stream that is all there. -/
def Whole.outcomes : Nat → List UInt8 → List Outcome
  | 0, _ => []
  | n + 1, s =>
      match Whole.request H K s with
      | .ok (some req, s') => .request req s' :: Whole.outcomes n s'
      | .ok (none, _) => [.closed]
      | .error f => [.failed f]

/-- **THE OUTCOMES ARE THOSE OF THE STREAM**. -/
theorem outcomes_eq_whole (fl : Flavor) :
    ∀ (n : Nat) (p : Parser),
      outcomes (parseRequest H K fl) n p = Whole.outcomes H K n p.pending := by
  intro n
  induction n with
  | zero => intro p; rfl
  | succ n ih =>
      intro p
      have href := parseRequest_refines H K fl p
      rw [Whole.outcomes, ← href, outcomes]
      cases parseRequest H K fl p with
      | error f => rfl
      | ok r =>
          obtain ⟨_ | req, p'⟩ := r
          · rfl
          · show Outcome.request req p'.pending :: _ = Outcome.request req p'.pending :: _
            rw [ih p']

/-! ## The computations end -/

/-- What is left is the end of what was there. -/
def Shrinks {α : Type} (m : StreamM α) : Prop :=
  ∀ s a s', m s = .ok (a, s') → s' <:+ s

/-- No fuel runs out. -/
def Ends {α : Type} (m : StreamM α) : Prop := ∀ s, m s ≠ .error .outOfFuel

section Rules

variable {α β : Type} {m : StreamM α} {f : α → StreamM β}

theorem shrinks_pure (a : α) : Shrinks (pure a) := by
  intro s b s' h
  cases h
  exact List.suffix_rfl

theorem shrinks_throw (e : Fault) : Shrinks (throw e : StreamM α) := by
  intro s b s' h
  cases h

theorem Shrinks.bind (hm : Shrinks m) (hf : ∀ a, Shrinks (f a)) : Shrinks (m >>= f) := by
  intro s b s' h
  obtain ⟨a, t, h1, h2⟩ := bind_eq_ok h
  exact (hf a t b s' h2).trans (hm s a t h1)

theorem ends_pure (a : α) : Ends (pure a) := by
  intro s h
  cases h

theorem ends_throw {e : Fault} (he : e ≠ .outOfFuel) : Ends (throw e : StreamM α) := by
  intro s h
  cases h
  exact he rfl

theorem Ends.bind (hm : Ends m) (hf : ∀ a, Ends (f a)) : Ends (m >>= f) := by
  intro s h
  rcases bind_eq_error h with h | ⟨a, t, -, h⟩
  · exact hm s h
  · exact hf a t h

end Rules

theorem Whole.shrinks_line : Shrinks Whole.line := by
  intro s a s' h
  rw [line] at h
  split at h
  · cases h
    exact List.drop_suffix _ _
  · cases h

/-- A line takes at least its line feed. -/
theorem Whole.line_lt {s s' : List UInt8} {a : List Char} (h : line s = .ok (a, s')) :
    s'.length < s.length := by
  rw [line] at h
  split at h
  · rename_i pos hf
    obtain ⟨hlt, -⟩ := List.findIdx?_eq_some_iff_getElem.mp hf
    cases h
    rw [List.length_drop]
    omega
  · cases h

theorem Whole.ends_line : Ends Whole.line := by
  intro s h
  rw [line] at h
  split at h
  · cases h
  · cases h

theorem Whole.shrinks_exact (len : Nat) : Shrinks (Whole.exact len) := by
  intro s a s' h
  rw [exact] at h
  split at h
  · cases h
  · split at h
    · cases h
      exact List.drop_suffix _ _
    · cases h

theorem Whole.ends_exact (len : Nat) : Ends (Whole.exact len) := by
  intro s h
  rw [exact] at h
  split at h
  · cases h
  · split at h
    · cases h
    · cases h

theorem Whole.shrinks_chunkedLoop :
    ∀ (fuel : Nat) (body : List UInt8), Shrinks (Whole.chunkedLoop fuel body) := by
  intro fuel
  induction fuel with
  | zero => intro body; exact shrinks_throw _
  | succ fuel ih =>
      intro body
      refine Whole.shrinks_line.bind fun sizeLine => ?_
      cases chunkSize sizeLine with
      | none => exact shrinks_throw _
      | some size =>
          by_cases h0 : size = 0
          · simp only [h0, if_true]
            exact Whole.shrinks_line.bind fun _ => shrinks_pure body
          · simp only [h0, if_false]
            exact (Whole.shrinks_exact size).bind fun chunk =>
              Whole.shrinks_line.bind fun _ => ih (body ++ chunk)

/-- Every round of the chunk loop takes at least one byte, so fuel beyond the
    length of the stream never runs out. -/
theorem Whole.chunkedLoop_ends :
    ∀ (fuel : Nat) (body s : List UInt8), s.length < fuel →
      Whole.chunkedLoop fuel body s ≠ .error .outOfFuel := by
  intro fuel
  induction fuel with
  | zero => intro body s hs; exact absurd hs (Nat.not_lt_zero _)
  | succ fuel ih =>
      intro body s hs h
      rcases bind_eq_error h with h | ⟨sizeLine, s₁, h1, h⟩
      · exact Whole.ends_line s h
      · have hlt := Whole.line_lt h1
        cases hsize : chunkSize sizeLine with
        | none =>
            simp only [hsize] at h
            cases h
        | some size =>
            simp only [hsize] at h
            by_cases h0 : size = 0
            · simp only [h0, if_true] at h
              rcases bind_eq_error h with h | ⟨_, s₂, -, h⟩
              · exact Whole.ends_line s₁ h
              · cases h
            · simp only [h0, if_false] at h
              rcases bind_eq_error h with h | ⟨chunk, s₂, h2, h⟩
              · exact Whole.ends_exact size s₁ h
              · have hle := (Whole.shrinks_exact size s₁ chunk s₂ h2).length_le
                rcases bind_eq_error h with h | ⟨_, s₃, h3, h⟩
                · exact Whole.ends_line s₂ h
                · have hlt' := Whole.line_lt h3
                  exact ih (body ++ chunk) s₃ (by omega) h

theorem Whole.shrinks_body (headers : HeaderMap) : Shrinks (Whole.body K headers) := by
  rw [body]
  split
  · exact fun s => Whole.shrinks_chunkedLoop (s.length + 1) [] s
  · split
    · exact Whole.shrinks_exact _
    · exact shrinks_pure []

theorem Whole.ends_body (headers : HeaderMap) : Ends (Whole.body K headers) := by
  rw [body]
  split
  · exact fun s => Whole.chunkedLoop_ends (s.length + 1) [] s (Nat.lt_succ_self _)
  · split
    · exact Whole.ends_exact _
    · exact ends_pure []

theorem Whole.shrinks_head : Shrinks (Whole.head H K) := by
  intro s a s' h
  rw [head] at h
  split at h
  · cases h
  · split at h
    · cases h
    · cases h
      exact List.drop_suffix _ _
  · split at h
    · cases h
    · split at h
      · cases h
        exact List.nil_suffix
      · cases h

theorem Whole.ends_head : Ends (Whole.head H K) := by
  intro s h
  rw [head] at h
  split at h
  · cases h
  · split at h
    · cases h
    · cases h
  · split at h
    · cases h
    · split at h
      · cases h
      · cases h

theorem Whole.shrinks_request : Shrinks (Whole.request H K) := by
  refine (Whole.shrinks_head H K).bind fun r => ?_
  cases r with
  | none => exact shrinks_pure none
  | some head =>
      refine (Whole.shrinks_body K head.headers).bind fun body => ?_
      split
      · exact shrinks_pure _
      · exact shrinks_throw _

theorem Whole.ends_request : Ends (Whole.request H K) := by
  refine (Whole.ends_head H K).bind fun r => ?_
  cases r with
  | none => exact ends_pure none
  | some head =>
      refine (Whole.ends_body K head.headers).bind fun body => ?_
      split
      · exact ends_pure _
      · exact ends_throw (by decide)

/-- What any call leaves unread is the end of the stream. -/
theorem Whole.left_suffix :
    ∀ (n : Nat) (s : List UInt8) (req : Request) (left : List UInt8),
      Outcome.request req left ∈ Whole.outcomes H K n s → left <:+ s := by
  intro n
  induction n with
  | zero => intro s req left h; cases h
  | succ n ih =>
      intro s req left h
      rw [Whole.outcomes] at h
      split at h
      · rename_i req' s' hreq
        have hs := Whole.shrinks_request H K s _ s' hreq
        rcases List.mem_cons.mp h with h | h
        · cases h
          exact hs
        · exact (ih s' req left h).trans hs
      · rw [List.mem_singleton] at h
        cases h
      · rw [List.mem_singleton] at h
        cases h

theorem Whole.never_outOfFuel :
    ∀ (n : Nat) (s : List UInt8), Outcome.failed .outOfFuel ∉ Whole.outcomes H K n s := by
  intro n
  induction n with
  | zero => intro s h; cases h
  | succ n ih =>
      intro s h
      rw [Whole.outcomes] at h
      split at h
      · rename_i req' s' hreq
        rcases List.mem_cons.mp h with h | h
        · cases h
        · exact ih s' h
      · rw [List.mem_singleton] at h
        cases h
      · rename_i f hreq
        rw [List.mem_singleton] at h
        cases h
        exact Whole.ends_request H K s hreq

/-- **READ BOUNDARIES DO NOT MATTER**: take one stream and two ways of delivering
    it.  Each parser returns the same requests, with the same bytes left behind
    each of them, and the same final outcome for both, and the two parsers agree.
    What a call leaves is the end of the stream, so what has been consumed is a
    prefix of it; and no call runs for ever. -/
theorem parsing_ignores_read_boundaries (d₁ d₂ : Delivery UInt8)
    (h : d₁.content = d₂.content) (n : Nat) :
    outcomes (HttpParser.parseRequest H K) n (.new d₁)
        = outcomes (HttpParser.parseRequest H K) n (.new d₂) ∧
    outcomes (KimojioHttpParser.parseRequest H K) n (.new d₁)
        = outcomes (KimojioHttpParser.parseRequest H K) n (.new d₂) ∧
    outcomes (HttpParser.parseRequest H K) n (.new d₁)
        = outcomes (KimojioHttpParser.parseRequest H K) n (.new d₂) ∧
    (∀ req left, Outcome.request req left ∈ outcomes (HttpParser.parseRequest H K) n (.new d₁) →
      left <:+ d₁.content) ∧
    Outcome.failed .outOfFuel ∉ outcomes (HttpParser.parseRequest H K) n (.new d₁) := by
  have hwhole : ∀ (fl : Flavor) (d : Delivery UInt8),
      outcomes (parseRequest H K fl) n (.new d) = Whole.outcomes H K n d.content :=
    fun fl d => outcomes_eq_whole H K fl n (.new d)
  have htokio : ∀ d, outcomes (HttpParser.parseRequest H K) n (.new d)
      = Whole.outcomes H K n d.content := hwhole .tokio
  have hkimojio : ∀ d, outcomes (KimojioHttpParser.parseRequest H K) n (.new d)
      = Whole.outcomes H K n d.content := hwhole .kimojio
  rw [htokio, htokio, hkimojio, hkimojio, h]
  exact ⟨rfl, rfl, rfl, Whole.left_suffix H K n d₂.content,
    Whole.never_outOfFuel H K n d₂.content⟩

/-! ## One header section -/

/-- `httparse`, as far as streams that start with one header section are
    concerned. -/
def sectionParser (h : List UInt8) (raw : RawRequest) : Httparse where
  parse p :=
    if h <+: p then .complete h.length raw
    else if p <+: h then .more
    else .error ⟨"invalid token"⟩
  complete_stable {p n raw'} q hp := by
    by_cases hpre : h <+: p
    · rw [if_pos hpre] at hp
      rw [if_pos (hpre.trans (List.prefix_append p q))]
      exact hp
    · rw [if_neg hpre] at hp
      split at hp
      · cases hp
      · cases hp
  error_stable {p e} q hp := by
    by_cases hpre : h <+: p
    · rw [if_pos hpre] at hp
      cases hp
    · rw [if_neg hpre] at hp
      by_cases hpart : p <+: h
      · rw [if_pos hpart] at hp
        cases hp
      · rw [if_neg hpart] at hp
        have h1 : ¬ h <+: p ++ q := by
          intro hpq
          rcases List.prefix_or_prefix_of_prefix hpq (List.prefix_append p q) with h' | h'
          · exact hpre h'
          · exact hpart h'
        have h2 : ¬ p ++ q <+: h := fun hpq => hpart ((List.prefix_append p q).trans hpq)
        rw [if_neg h1, if_neg h2]
        exact hp
  complete_le {p n raw'} hp := by
    by_cases hpre : h <+: p
    · rw [if_pos hpre] at hp
      cases hp
      exact hpre.length_le
    · rw [if_neg hpre] at hp
      split at hp
      · cases hp
      · cases hp

/-! ## One request line -/

/-- The smallest request. -/
def getRoot : List UInt8 := bytes "GET / HTTP/1.1\r\n\r\n"

/-- `httparse`, as far as a stream of these requests is concerned. -/
def getRootParser : Httparse where
  parse p :=
    if getRoot <+: p then .complete 18 ⟨some "GET", some "/", some 1, []⟩
    else if p <+: getRoot then .more
    else .error ⟨"invalid token"⟩
  complete_stable q h := (sectionParser getRoot ⟨some "GET", some "/", some 1, []⟩).complete_stable q h
  error_stable q h := (sectionParser getRoot ⟨some "GET", some "/", some 1, []⟩).error_stable q h
  complete_le h := (sectionParser getRoot ⟨some "GET", some "/", some 1, []⟩).complete_le h

/-- The `http` crate on plain ASCII. -/
def asciiCrate : HttpCrate where
  methodFromBytes m := some m
  headerNameFromBytes n := some n
  headerValueFromBytes v := some v
  uriOk _ := true
  toStr v := some (v.map fun b => Char.ofNat b.toNat)
  canonicalReason status := if status = 200 then some "OK" else none

/-- The request cut in the middle of its first line. -/
theorem getRoot_cut_in_two :
    outcomes (HttpParser.parseRequest getRootParser asciiCrate) 2
        (.new ⟨[getRoot.take 5, getRoot.drop 5], by decide⟩)
      = outcomes (KimojioHttpParser.parseRequest getRootParser asciiCrate) 2
        (.new (Delivery.whole getRoot)) :=
  (parsing_ignores_read_boundaries getRootParser asciiCrate
    ⟨[getRoot.take 5, getRoot.drop 5], by decide⟩ (Delivery.whole getRoot) (by decide) 2).2.2.1

end DpdkNet
