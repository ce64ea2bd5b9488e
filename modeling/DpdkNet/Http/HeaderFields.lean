import DpdkNet.Http.Framing

/-! # The fields of a request

    `http::HeaderMap` is a multimap, and `insert` replaces all values of a name.
    The parsers put every field of a header section into it with `insert`: of
    fields with one name the last is left.  So nothing is lost exactly if no name,
    in whatever case, is there twice. -/

namespace DpdkNet

open RustStr Refine

/-- `HeaderMap::get_all` -/
def HeaderMap.getAll (m : HeaderMap) (name : HeaderName) : List HeaderValue :=
  (m.filter fun e => e.1 = name).map Prod.snd

/-- The name under which the map keeps the values of a field. -/
def lowerName (name : String) : HeaderName := String.ofList (name.toList.map toAsciiLowercase)

/-- Under every name the map has the values of all fields with that name, in the
    order received. -/
def KeepsFields (fields : List (String × List UInt8)) (m : HeaderMap) : Prop :=
  ∀ name : String, m.getAll (lowerName name) = Rfc.fieldValues name fields

/-- The names of the fields, whatever their case. -/
def fieldNames (fields : List (String × List UInt8)) : List HeaderName :=
  fields.map fun f => lowerName f.1

/-! ## Names -/

theorem lowerName_lower (name : String) :
    (lowerName name).toList.map toAsciiLowercase = (lowerName name).toList := by
  rw [lowerName, String.toList_ofList, List.map_map]
  exact List.map_congr_left fun c _ => toAsciiLowercase_idem c

/-- Names are compared by what they are kept under. -/
theorem eqIgnoreAsciiCase_eq (n name : String) :
    eqIgnoreAsciiCase n.toList name.toList = decide (lowerName n = lowerName name) := by
  rw [eqIgnoreAsciiCase, lowerName, lowerName, decide_eq_decide, String.ofList_inj]

theorem fieldValues_lowerName (name : String) (fields : List (String × List UInt8)) :
    Rfc.fieldValues (lowerName name) fields = Rfc.fieldValues name fields := by
  have hlower : lowerName (lowerName name) = lowerName name := by
    rw [lowerName, lowerName_lower, String.ofList_toList]
  simp only [Rfc.fieldValues, eqIgnoreAsciiCase_eq, hlower]

theorem length_fieldValues (name : String) (fields : List (String × List UInt8)) :
    (Rfc.fieldValues name fields).length = (fieldNames fields).count (lowerName name) := by
  rw [Rfc.fieldValues, List.length_map, ← List.countP_eq_length_filter, fieldNames, List.count,
    List.countP_map]
  refine List.countP_congr fun f _ => ?_
  rw [eqIgnoreAsciiCase_eq, decide_eq_true_iff]
  exact beq_iff_eq.symm

/-- No name is there twice exactly if every name has at most one value. -/
theorem nodup_fieldNames_iff (fields : List (String × List UInt8)) :
    (fieldNames fields).Nodup ↔ ∀ name, (Rfc.fieldValues name fields).length ≤ 1 := by
  rw [List.nodup_iff_count_le_one]
  constructor
  · intro h name
    rw [length_fieldValues]
    exact h _
  · intro h n
    by_cases hn : n ∈ fieldNames fields
    · obtain ⟨f, -, rfl⟩ := List.mem_map.mp hn
      rw [← length_fieldValues]
      exact h f.1
    · rw [List.count_eq_zero_of_not_mem hn]
      exact Nat.zero_le 1

/-! ## The map -/

namespace HeaderMap

theorem mem_keys_insert {m : HeaderMap} {name key : HeaderName} {value : HeaderValue}
    (h : key ∈ (m.insert name value).map Prod.fst) : key = name ∨ key ∈ m.map Prod.fst := by
  induction m with
  | nil => exact Or.inl (List.mem_singleton.mp h)
  | cons e es ih =>
      rw [insert] at h
      split at h
      · rw [List.map_cons, List.mem_cons] at h
        rcases h with h | h
        · exact Or.inl h
        · have hsub := (List.filter_sublist (p := fun e => e.1 ≠ name) (l := es)).map Prod.fst
          exact Or.inr (List.mem_cons_of_mem _ (hsub.mem h))
      · rw [List.map_cons, List.mem_cons] at h
        rcases h with h | h
        · exact Or.inr (h ▸ List.mem_cons_self)
        · exact (ih h).imp id (List.mem_cons_of_mem _)

/-- A map built with `insert` has one value for a name. -/
theorem nodup_insert {m : HeaderMap} (h : (m.map Prod.fst).Nodup) (name : HeaderName)
    (value : HeaderValue) : ((m.insert name value).map Prod.fst).Nodup := by
  induction m with
  | nil => exact List.nodup_singleton name
  | cons e es ih =>
      rw [List.map_cons, List.nodup_cons] at h
      rw [insert]
      split
      · rename_i he
        have hsub := (List.filter_sublist (p := fun e => e.1 ≠ name) (l := es)).map Prod.fst
        rw [List.map_cons, List.nodup_cons]
        exact ⟨fun hm => h.1 (he ▸ hsub.mem hm), hsub.nodup h.2⟩
      · rename_i he
        rw [List.map_cons, List.nodup_cons]
        exact ⟨fun hm => (mem_keys_insert hm).elim he h.1, ih h.2⟩

/-- Then all values are the first. -/
theorem getAll_of_nodup {m : HeaderMap} (h : (m.map Prod.fst).Nodup) (key : HeaderName) :
    m.getAll key = (m.get key).toList := by
  induction m with
  | nil => rfl
  | cons e es ih =>
      rw [List.map_cons, List.nodup_cons] at h
      rw [getAll, get, List.filter_cons, List.find?_cons]
      by_cases he : e.1 = key
      · have hnone : es.filter (fun e => e.1 = key) = [] := by
          refine List.filter_eq_nil_iff.mpr fun e' he' hk => h.1 ?_
          rw [he, ← of_decide_eq_true hk]
          exact List.mem_map_of_mem he'
        rw [if_pos (decide_eq_true he), hnone, decide_eq_true he]
        rfl
      · rw [if_neg (by simpa using he), decide_eq_false he]
        exact ih h.2

end HeaderMap

theorem headerMap_nodup {K : HttpCrate} :
    ∀ {fields : List (String × List UInt8)} {m m' : HeaderMap}, headerMap K fields m = .ok m' →
      (m.map Prod.fst).Nodup → (m'.map Prod.fst).Nodup := by
  intro fields
  induction fields with
  | nil =>
      intro m m' h hm
      cases h
      exact hm
  | cons f fields ih =>
      intro m m' h hm
      obtain ⟨name, value, -, -, h⟩ := headerMap_cons_ok h
      exact ih h (HeaderMap.nodup_insert hm name value)

/-- **WHAT IS LEFT**: the last value of a name. -/
theorem headerMap_getAll {K : HttpCrate} (hK : LawfulCrate K)
    {fields : List (String × List UInt8)} {m : HeaderMap} (h : headerMap K fields [] = .ok m)
    (name : String) :
    m.getAll (lowerName name) = (Rfc.fieldValues name fields).getLast?.toList := by
  rw [HeaderMap.getAll_of_nodup (headerMap_nodup h List.nodup_nil),
    headerMap_get hK (lowerName name) (lowerName_lower name) h, fieldValues_lowerName]
  exact congrArg Option.toList (Option.or_none)

theorem getLast?_toList_eq_iff {α : Type} (l : List α) : l.getLast?.toList = l ↔ l.length ≤ 1 := by
  constructor
  · intro h
    rw [← h]
    exact Option.length_toList_le
  · intro h
    match l, h with
    | [], _ => rfl
    | [a], _ => rfl

theorem keepsFields_iff {K : HttpCrate} (hK : LawfulCrate K)
    {fields : List (String × List UInt8)} {m : HeaderMap} (h : headerMap K fields [] = .ok m) :
    KeepsFields fields m ↔ (fieldNames fields).Nodup := by
  rw [nodup_fieldNames_iff]
  refine forall_congr' fun name => ?_
  rw [headerMap_getAll hK h, getLast?_toList_eq_iff]

/-! ## The request -/

variable (H : Httparse)

theorem Whole.headers_of_finish {K : HttpCrate} {head : Head} {body s rest : List UInt8}
    {req : Request} (h : Whole.finish K head body s = .ok (some req, rest)) :
    req.headers = head.headers := by
  rw [Whole.finish] at h
  split at h
  · cases h
    rfl
  · cases h

/-- A request that is returned has the headers of its header section. -/
theorem headers_of_parseRequest {K : HttpCrate} (fl : Flavor) {h t : List UInt8} {raw : RawRequest}
    (hparse : H.parse h = .complete h.length raw) {p p' : Parser} (hp : p.pending = h ++ t)
    {req : Request} (hreq : parseRequest H K fl p = .ok (some req, p')) :
    headerMap K raw.headers [] = .ok req.headers := by
  have hview : view Parser.pending (parseRequest H K fl p) = .ok (some req, p'.pending) := by
    rw [hreq]
    rfl
  by_cases hlen : h.length ≤ maxBufSize
  · rw [view_parseRequest H K fl hparse hlen hp, resultBehind] at hview
    cases hhead : toHead K raw with
    | error e =>
        simp only [hhead] at hview
        cases hview
    | ok head =>
        simp only [hhead] at hview
        obtain ⟨body, rest, -, hfinish⟩ := bind_eq_ok hview
        rw [Whole.headers_of_finish hfinish]
        exact (toHead_ok hhead).2
  · rw [view_parseRequest_of_large H K fl hparse (Nat.not_le.mp hlen) hp] at hview
    cases hview

/-- **WHEN NO FIELD IS LOST**: a request that either parser returns for a header
    section has all its fields exactly if no name is there twice. -/
theorem fields_kept_iff {K : HttpCrate} (hK : LawfulCrate K) {h t : List UInt8} {raw : RawRequest}
    (hparse : H.parse h = .complete h.length raw) {p : Parser} (hp : p.pending = h ++ t) :
    (∀ req p', HttpParser.parseRequest H K p = .ok (some req, p') →
      (KeepsFields raw.headers req.headers ↔ (fieldNames raw.headers).Nodup)) ∧
    (∀ req p', KimojioHttpParser.parseRequest H K p = .ok (some req, p') →
      (KeepsFields raw.headers req.headers ↔ (fieldNames raw.headers).Nodup)) :=
  ⟨fun _ _ hreq => keepsFields_iff hK (headers_of_parseRequest H .tokio hparse hp hreq),
    fun _ _ hreq => keepsFields_iff hK (headers_of_parseRequest H .kimojio hparse hp hreq)⟩

/-- A header section with two names. -/
def hostAndCookie : List UInt8 := bytes "GET / HTTP/1.1\r\nHost: h\r\nCookie: a\r\n\r\n"

def hostAndCookieRaw : RawRequest :=
  ⟨some "GET", some "/", some 1, [("Host", bytes "h"), ("Cookie", bytes "a")]⟩

/-- Both fields are in the request. -/
theorem host_and_cookie_kept :
    ∃ req p', HttpParser.parseRequest (sectionParser hostAndCookie hostAndCookieRaw) textCrate
        (.new (Delivery.whole hostAndCookie)) = .ok (some req, p') ∧
      KeepsFields hostAndCookieRaw.headers req.headers :=
  ⟨_, _, rfl, ((fields_kept_iff (sectionParser hostAndCookie hostAndCookieRaw) lawful_textCrate
    (h := hostAndCookie) (t := []) (p := .new (Delivery.whole hostAndCookie)) (by decide)
    (by decide)).1 _ _ rfl).mpr (by decide)⟩

/-- A header section with a name that is there twice. -/
def twoCookies : List UInt8 := bytes "GET / HTTP/1.1\r\nCookie: a\r\ncookie: b\r\n\r\n"

def twoCookiesRaw : RawRequest :=
  ⟨some "GET", some "/", some 1, [("Cookie", bytes "a"), ("cookie", bytes "b")]⟩

/-- The first cookie is lost. -/
theorem first_cookie_lost :
    ∃ req p', HttpParser.parseRequest (sectionParser twoCookies twoCookiesRaw) textCrate
        (.new (Delivery.whole twoCookies)) = .ok (some req, p') ∧
      req.headers.getAll "cookie" = [bytes "b"] ∧
      Rfc.fieldValues "Cookie" twoCookiesRaw.headers = [bytes "a", bytes "b"] ∧
      ¬ KeepsFields twoCookiesRaw.headers req.headers := by
  refine ⟨_, _, rfl, by decide, by decide, ?_⟩
  intro h
  exact absurd (h "cookie") (by decide)

end DpdkNet
