import DpdkNet.Bench.RawClient
import DpdkNet.Http.ChunkedCoding
import DpdkNet.Http.Lockstep

/-! # The HTTP echo service

    `simple_echo_handler` of `kimojio_server.rs` gives the body of a request back
    as the body of the response.  This is the longest way a body takes through
    the code: it is announced by a length or cut into chunks by the client, put
    together by the parser from what each read returns, handed to the handler,
    written behind a header section of the server, and found again by a client
    that looks for the blank line.  What arrives is what was sent. -/

namespace DpdkNet

open RustStr Refine

/-- Echoes the request body back. -/
def simpleEchoHandler : Handler := fun _ req =>
  ⟨.http11, 200, [("content-type", bytes "text/plain")], req.body⟩

/-! ## Requests with a body -/

/-- A body behind a header section that announces it. -/
inductive SentBody (K : HttpCrate) (headers : HeaderMap) where
  | empty (notChunked : isChunked K headers = false) (noLength : getContentLength K headers = none)
  | sized (content : List UInt8) (notChunked : isChunked K headers = false)
      (length : getContentLength K headers = some content.length)
      (slice : content.length ≤ isizeMax)
  | chunked (e : ChunkedEncoding) (isChunked : isChunked K headers = true)
      (slice : e.body.length ≤ isizeMax)

namespace SentBody

variable {K : HttpCrate} {headers : HeaderMap}

/-- The body that is meant. -/
def content : SentBody K headers → List UInt8
  | .empty _ _ => []
  | .sized content _ _ _ => content
  | .chunked e _ _ => e.body

/-- The bytes behind the header section. -/
def bytes : SentBody K headers → List UInt8
  | .empty _ _ => []
  | .sized content _ _ _ => content
  | .chunked e _ _ => e.bytes

theorem content_le (b : SentBody K headers) : b.content.length ≤ isizeMax := by
  cases b with
  | empty _ _ => exact Nat.zero_le _
  | sized content _ _ hslice => exact hslice
  | chunked e _ hslice => exact hslice

/-- It is read as it is meant, up to its end. -/
theorem whole (b : SentBody K headers) (s : List UInt8) :
    Whole.body K headers (b.bytes ++ s) = .ok (b.content, s) := by
  rw [Whole.body]
  cases b with
  | empty hnot hnone =>
      rw [hnot, if_neg Bool.false_ne_true, hnone]
      rfl
  | sized content hnot hlen hslice =>
      rw [hnot, if_neg Bool.false_ne_true, hlen]
      exact Whole.exact_append hslice s
  | chunked e hchunked hslice =>
      rw [if_pos hchunked]
      show Whole.chunkedBody (e.bytes ++ s) = _
      rw [← e.bytes_reading, Whole.chunkedBody_reading, e.body_reading]
      rfl

end SentBody

/-- A request that keeps the connection alive, as the crates read it. -/
structure Post (H : Httparse) (K : HttpCrate) where
  headBytes : List UInt8
  raw : RawRequest
  head : Head
  parse : H.parse headBytes = .complete headBytes.length raw
  fits : headBytes.length ≤ maxBufSize
  toHead : toHead K raw = .ok head
  uri : K.uriOk head.uri = true
  keepAlive : shouldKeepAlive K head.headers head.version = true
  body : SentBody K head.headers

namespace Post

variable {H : Httparse} {K : HttpCrate}

def bytes (p : Post H K) : List UInt8 := p.headBytes ++ p.body.bytes

def req (p : Post H K) : Request :=
  ⟨p.head.method, p.head.uri, p.head.version, p.head.headers, p.body.content⟩

theorem whole (p : Post H K) : Whole.request H K p.bytes = .ok (some p.req, []) := by
  have hhead : Whole.head H K p.bytes = .ok (some p.head, p.body.bytes) := by
    obtain ⟨q, hq⟩ := parse_take p.headBytes p.body.bytes p.fits
    rw [Whole.head, bytes, hq, H.complete_stable q p.parse]
    simp only [p.toHead, List.drop_left]
  have hbody := p.body.whole []
  rw [List.append_nil] at hbody
  rw [Whole.request, bind_of_ok hhead]
  simp only
  rw [bind_of_ok hbody, if_pos p.uri]
  rfl

end Post

/-! ## There and back -/

section Echo

variable {H : Httparse} {K : HttpCrate}

/-- What a client finds behind the blank line. -/
def bodyOf (response : List UInt8) : Option (List UInt8) :=
  (Bench.findHeaderEnd response).map response.drop

/-- The response that carries a body. -/
def echoResponse (body : List UInt8) : Response :=
  ⟨.http11, 200, [("content-type", bytes "text/plain")], body⟩

theorem replies_echo :
    ∀ reqs calls : List Request, replies K simpleEchoHandler calls reqs
      = reqs.map fun req => serializeResponse K (echoResponse req.body) := by
  intro reqs
  induction reqs with
  | nil => intro calls; rfl
  | cons req reqs ih =>
      intro calls
      rw [replies, ih, List.map_cons]
      rfl

theorem plain_echoResponse {body : List UInt8} (hbody : body.length ≤ isizeMax) :
    Bench.PlainResponse (echoResponse body) := by
  refine ⟨?_, ?_, rfl, Nat.le_trans hbody (by decide)⟩
  · rw [echoResponse, List.forall_mem_singleton]
    exact List.all_iff_forall_prop.mp rfl
  · rw [echoResponse, List.forall_mem_singleton]
    exact List.all_iff_forall_prop.mp rfl

theorem bodyOf_echoResponse (hK : Bench.PlainReasons K) {body : List UInt8}
    (hbody : body.length ≤ isizeMax) :
    bodyOf (serializeResponse K (echoResponse body)) = some body := by
  have hplain := plain_echoResponse hbody
  have hle : (block (Bench.headLines K (echoResponse body))).length
      ≤ (block (Bench.headLines K (echoResponse body)) ++ (echoResponse body).body).length :=
    (List.prefix_append _ _).length_le
  rw [bodyOf, Bench.serializeResponse_eq K hplain,
    (Bench.framed_response hK hplain).find _ (List.prefix_refl _), if_pos hle, Option.map_some,
    List.drop_left]
  rfl

theorem Bench.plainReasons_asciiCrate : Bench.PlainReasons asciiCrate := by
  intro status reason h
  simp only [asciiCrate] at h
  split at h
  · cases h
    exact List.all_iff_forall_prop.mp rfl
  · cases h

/-- What a connection of the echo service should come to. -/
structure Echoed (posts : List (Post H K)) (s : Served) : Prop where
  calls : s.calls = posts.map Post.req
  bodies : s.written.map bodyOf = posts.map fun p => some p.body.content
  /-- a client that reads the responses from any pieces tells them apart -/
  read : ∀ {cap : Nat} {pss : List (List (List UInt8))} {stream : Delivery UInt8}, 0 < cap →
    List.Forall₂ (fun w ps => ps.flatten = w) s.written pss → stream.pieces = pss.flatten →
    Bench.readResponses posts.length cap stream = .ok (s.written.map List.length)
  result : s.result = .ok ()

theorem replies_posts (posts : List (Post H K)) :
    replies K simpleEchoHandler [] (posts.map Post.req)
      = (posts.map fun p => echoResponse p.body.content).map (serializeResponse K) := by
  rw [replies_echo, List.map_map, List.map_map]
  refine List.map_congr_left fun p _ => ?_
  show serializeResponse K (echoResponse p.req.body) = serializeResponse K (echoResponse p.body.content)
  rw [Post.req]

theorem bodies_come_back (hK : Bench.PlainReasons K) (posts : List (Post H K)) :
    ((posts.map fun p => echoResponse p.body.content).map (serializeResponse K)).map bodyOf
      = posts.map fun p => some p.body.content := by
  rw [List.map_map, List.map_map]
  refine List.map_congr_left fun p _ => ?_
  have hbody := bodyOf_echoResponse hK p.body.content_le
  rw [Function.comp_apply, Function.comp_apply]
  exact hbody

theorem responses_told_apart (hK : Bench.PlainReasons K) (posts : List (Post H K)) {cap : Nat}
    {pss : List (List (List UInt8))} {stream : Delivery UInt8} (hcap : 0 < cap)
    (hpss : List.Forall₂ (fun w ps => ps.flatten = w)
      ((posts.map fun p => echoResponse p.body.content).map (serializeResponse K)) pss)
    (hstream : stream.pieces = pss.flatten) :
    Bench.readResponses posts.length cap stream
      = .ok (((posts.map fun p => echoResponse p.body.content).map (serializeResponse K)).map
          List.length) := by
  have hrs : List.Forall₂
      (fun r ps => Bench.PlainResponse r ∧ ps.flatten = serializeResponse K r)
      (posts.map fun p => echoResponse p.body.content) pss := by
    rw [List.forall₂_map_left_iff, List.forall₂_map_left_iff] at hpss
    rw [List.forall₂_map_left_iff]
    exact hpss.imp fun p ps h => ⟨plain_echoResponse p.body.content_le, h⟩
  have hread := Bench.readResponses_serialized hK hrs hcap hstream
  rw [List.length_map] at hread
  rw [hread]
  exact congrArg Except.ok List.map_map.symm

theorem echoed_of_replies (hK : Bench.PlainReasons K) (posts : List (Post H K)) :
    Echoed posts
      ⟨posts.map Post.req, replies K simpleEchoHandler [] (posts.map Post.req), .ok ()⟩ := by
  rw [replies_posts]
  exact ⟨rfl, bodies_come_back hK posts, responses_told_apart hK posts, rfl⟩

/-- A request and the pieces in which it arrives. -/
def Post.sent (p : Post H K) (pieces : List (List UInt8)) (h : pieces.flatten = p.bytes) :
    Sent H K where
  pieces := pieces
  req := p.req
  whole := by
    rw [h]
    exact p.whole

/-- Requests that arrive in these pieces. -/
theorem exists_sent {posts : List (Post H K)} {pss : List (List (List UInt8))}
    (h : List.Forall₂ (fun p ps => ps.flatten = p.bytes) posts pss) :
    ∃ es : List (Sent H K), es.map Sent.pieces = pss ∧ es.map Sent.req = posts.map Post.req ∧
      ∀ e ∈ es, keepAlive K e.req = true := by
  induction h with
  | nil => exact ⟨[], rfl, rfl, fun e he => absurd he List.not_mem_nil⟩
  | @cons p ps _ _ hp _ ih =>
      obtain ⟨es, hpieces, hreqs, hkept⟩ := ih
      refine ⟨p.sent ps hp :: es, ?_, ?_, ?_⟩
      · rw [List.map_cons, hpieces]
        rfl
      · rw [List.map_cons, hreqs]
        rfl
      · rw [List.forall_mem_cons]
        exact ⟨p.keepAlive, hkept⟩

/-- **BODIES COME BACK**: requests sent in turn on a connection, each with a body
    of a given length, in chunks or none, and each arriving in whatever pieces:
    both servers call the echo handler on them and close the connection cleanly,
    the body behind the blank line of each response is the body of its request,
    and a client that reads the responses from whatever pieces tells them
    apart. -/
theorem echo_returns_bodies (hK : Bench.PlainReasons K) (hnil : H.parse [] = .more)
    (hpos : ∀ {q : List UInt8} {n : Nat} {raw : RawRequest}, H.parse q = .complete n raw → 0 < n)
    (posts : List (Post H K)) (pss : List (List (List UInt8)))
    (hpss : List.Forall₂ (fun p ps => ps.flatten = p.bytes) posts pss)
    (d : Delivery UInt8) (hd : d.pieces = pss.flatten) :
    Echoed posts (handleHttpConnection H K simpleEchoHandler (fun _ => none) d) ∧
    Echoed posts (handleConnection H K simpleEchoHandler (fun _ => none) d) := by
  obtain ⟨es, hpieces, hreqs, hkept⟩ := exists_sent hpss
  rw [← hpieces] at hd
  have hechoed := echoed_of_replies hK posts
  rw [← hreqs] at hechoed
  constructor
  · have hserve : handleHttpConnection H K simpleEchoHandler (fun _ => none) d = _ :=
      serve_kept simpleEchoHandler .kimojio KimojioHttpParser.reset_empty hnil hpos es hkept hd
    rw [hserve]
    exact hechoed
  · have hserve : handleConnection H K simpleEchoHandler (fun _ => none) d = _ :=
      serve_kept simpleEchoHandler .tokio (fun p hp => ⟨hp, rfl⟩) hnil hpos es hkept hd
    rw [hserve]
    exact hechoed

end Echo

/-! ## A chunked request -/

def chunkedHead : List UInt8 := bytes "POST / HTTP/1.1\r\nTransfer-Encoding: chunked\r\n\r\n"

def chunkedRaw : RawRequest :=
  ⟨some "POST", some "/", some 1, [("transfer-encoding", bytes "chunked")]⟩

def chunkedParser : Httparse := sectionParser chunkedHead chunkedRaw

/-- Two lines in a chunk. -/
def postTwoLines : Post chunkedParser asciiCrate where
  headBytes := chunkedHead
  raw := chunkedRaw
  head := ⟨"POST", "/", .http11, [("transfer-encoding", bytes "chunked")]⟩
  parse := by
    simp only [chunkedParser, sectionParser, List.prefix_rfl, if_true]
  fits := by decide
  toHead := rfl
  uri := rfl
  keepAlive := rfl
  body := .chunked twoLines (by decide) (by decide)

theorem chunkedParser_pos {q : List UInt8} {n : Nat} {raw : RawRequest}
    (h : chunkedParser.parse q = .complete n raw) : 0 < n := by
  simp only [chunkedParser, sectionParser] at h
  split at h
  · cases h
    decide
  · split at h
    · cases h
    · cases h

/-- They come back, though the request is cut within its header section. -/
theorem two_lines_come_back :
    (handleHttpConnection chunkedParser asciiCrate simpleEchoHandler (fun _ => none)
      ⟨[postTwoLines.bytes.take 20, postTwoLines.bytes.drop 20], by decide⟩).written.map bodyOf
      = [some (bytes "one\r\ntwo\r\n")] :=
  (echo_returns_bodies Bench.plainReasons_asciiCrate (by decide) chunkedParser_pos [postTwoLines]
    [[postTwoLines.bytes.take 20, postTwoLines.bytes.drop 20]]
    (.cons (by decide) .nil) _ rfl).1.bodies.trans (by decide)

end DpdkNet
