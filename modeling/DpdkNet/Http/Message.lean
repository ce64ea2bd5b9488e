import DpdkNet.Lib.RustStr

/-! # HTTP messages

    What both HTTP implementations, `custom_http.rs` and `kimojio_server.rs`,
    have in common: error and message types, the reading of the three headers
    that matter, and the serialisation of responses.  The two files contain
    these functions twice, word for word.

    `httparse` and the validations of the `http` crate are not part of the
    repository; they enter as parameters.  Of `httparse` the parser relies on
    three things: a `Complete` or an error does not change when bytes are
    appended, and a `Complete` does not claim more bytes than there are. -/

namespace DpdkNet

open RustStr

/-- `httparse::Error`, by its message. -/
structure HttparseError where
  message : String
  deriving DecidableEq, Repr

inductive ParseError where
  | io (message : String)
  | parse (e : HttparseError)
  | invalidMethod
  | invalidVersion
  | invalidHeader
  | invalidUri
  | headersTooLarge
  | invalidContentLength
  | connectionClosed
  deriving DecidableEq, Repr

/-- `Display` -/
def ParseError.display : ParseError → String
  | .io m => "I/O error: " ++ m
  | .parse e => "Parse error: " ++ e.message
  | .invalidMethod => "Invalid HTTP method"
  | .invalidVersion => "Invalid HTTP version"
  | .invalidHeader => "Invalid header format"
  | .invalidUri => "Invalid URI"
  | .headersTooLarge => "Headers too large"
  | .invalidContentLength => "Invalid Content-Length"
  | .connectionClosed => "Connection closed"

/-! ## Headers -/

/-- A header name, in lower case. -/
abbrev HeaderName := String

abbrev HeaderValue := List UInt8

/-- The entries in iteration order. -/
abbrev HeaderMap := List (HeaderName × HeaderValue)

namespace HeaderMap

/-- The first value of a header. -/
def get (m : HeaderMap) (name : HeaderName) : Option HeaderValue :=
  (m.find? (fun e => e.1 = name)).map Prod.snd

def containsKey (m : HeaderMap) (name : HeaderName) : Bool := m.any (fun e => e.1 = name)

/-- Replace all values of a header by one. -/
def insert (m : HeaderMap) (name : HeaderName) (value : HeaderValue) : HeaderMap :=
  match m with
  | [] => [(name, value)]
  | e :: es =>
      if e.1 = name then (name, value) :: es.filter (fun e => e.1 ≠ name)
      else e :: insert es name value

end HeaderMap

inductive Version where
  | http09
  | http10
  | http11
  | http2
  | http3
  deriving DecidableEq, Repr

structure Request where
  method : String
  uri : String
  version : Version
  headers : HeaderMap
  body : List UInt8
  deriving DecidableEq, Repr

structure Response where
  version : Version
  status : Nat
  headers : HeaderMap
  body : List UInt8
  deriving DecidableEq, Repr

/-! ## The crates -/

/-- The fields of `httparse::Request` after a parse. -/
structure RawRequest where
  method : Option String
  path : Option String
  version : Option Nat
  headers : List (String × List UInt8)
  deriving DecidableEq, Repr

/-- `Result<httparse::Status<usize>, httparse::Error>`, a complete parse
    together with the request it filled in. -/
inductive HeadStatus where
  | complete (n : Nat) (raw : RawRequest)
  | more
  | error (e : HttparseError)
  deriving DecidableEq, Repr

/-- `httparse::Request::parse` with room for `MAX_HEADERS` headers, and what is
    relied on. -/
structure Httparse where
  parse : List UInt8 → HeadStatus
  complete_stable : ∀ {p : List UInt8} {n : Nat} {raw : RawRequest} (q : List UInt8),
    parse p = .complete n raw → parse (p ++ q) = .complete n raw
  error_stable : ∀ {p : List UInt8} {e : HttparseError} (q : List UInt8),
    parse p = .error e → parse (p ++ q) = .error e
  complete_le : ∀ {p : List UInt8} {n : Nat} {raw : RawRequest},
    parse p = .complete n raw → n ≤ p.length

/-- The `http` crate: which names, values and URIs it accepts, when a value is
    text, and the reason phrases. -/
structure HttpCrate where
  methodFromBytes : String → Option String
  headerNameFromBytes : String → Option HeaderName
  headerValueFromBytes : List UInt8 → Option HeaderValue
  uriOk : String → Bool
  toStr : HeaderValue → Option (List Char)
  canonicalReason : Nat → Option String

variable (K : HttpCrate)

/-! ## The headers that matter -/

/-- Content-Length, if it is there, is text and is a number. -/
def getContentLength (headers : HeaderMap) : Option Nat :=
  match headers.get "content-length" with
  | none => none
  | some v =>
      match K.toStr v with
      | none => none
      | some s => fromStrRadix 10 s

/-- Does Transfer-Encoding mention `chunked`? -/
def isChunked (headers : HeaderMap) : Bool :=
  match headers.get "transfer-encoding" with
  | none => false
  | some v =>
      match K.toStr v with
      | none => false
      | some s => contains (s.map toAsciiLowercase) "chunked".toList

/-- Should the connection be kept alive? -/
def shouldKeepAlive (headers : HeaderMap) (version : Version) : Bool :=
  match headers.get "connection" with
  | some conn =>
      match K.toStr conn with
      | some s => eqIgnoreAsciiCase s "keep-alive".toList
      | none => false
  | none => version = .http11

/-! ## Responses -/

def versionStr : Version → String
  | .http10 => "HTTP/1.0"
  | .http11 => "HTTP/1.1"
  | .http2 => "HTTP/2.0"
  | .http3 => "HTTP/3.0"
  | .http09 => "HTTP/1.1"

def reasonPhrase (status : Nat) : String := (K.canonicalReason status).getD "Unknown"

/-- The header lines. -/
def serializeHeaders (headers : HeaderMap) : List UInt8 :=
  headers.flatMap fun e => bytes e.1 ++ bytes ": " ++ e.2 ++ bytes "\r\n"

/-- Serialize an HTTP response to bytes. -/
def serializeResponse (response : Response) : List UInt8 :=
  bytes (versionStr response.version) ++ bytes " " ++ bytes (toString response.status)
    ++ bytes " " ++ bytes (reasonPhrase K response.status) ++ bytes "\r\n"
  ++ serializeHeaders response.headers
  -- Content-Length if not already set
  ++ (if response.headers.containsKey "content-length" then []
      else bytes "Content-Length: " ++ bytes (toString response.body.length) ++ bytes "\r\n")
  ++ bytes "\r\n"
  ++ response.body

/-- What is sent back on a parse error. -/
def badRequest (e : ParseError) : Response where
  version := .http11
  status := 400
  headers := [("connection", bytes "close")]
  body := bytes ("Parse error: " ++ e.display)

end DpdkNet
