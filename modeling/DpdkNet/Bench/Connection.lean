import DpdkNet.Bench.RawClient
import DpdkNet.Bench.Stats
import DpdkNet.Http.Lockstep

/-! # A connection of the benchmark

    `run_connection` of `raw_client.rs`: until the deadline, connect if there is
    no connection, send the request, read the response, and record its size or
    the error.  An exchange that fails or times out gives the connection up, so
    that what is still under way on it is never taken for the response to a
    later request.

    Here it runs against the servers of the repository.  The network decides
    which attempts to connect fail, which exchanges are disturbed, and in which
    pieces requests and responses arrive.  Whatever it decides, every success is
    recorded with the size of the response to its own request. -/

namespace DpdkNet.Bench

open RustStr

/-! ## The request -/

/-- Parsed URL components. -/
structure ParsedUrl where
  host : String
  port : Nat
  path : String
  deriving DecidableEq, Repr

/-- `str::parse::<u16>` -/
def parseU16 (s : List Char) : Option Nat := (fromStrRadix 10 s).filter (· < 2 ^ 16)

/-- Cut in front of the first `c`, if there is one. -/
def cutAt (c : Char) (s : List Char) : Option (List Char × List Char) :=
  (s.findIdx? (· == c)).map fun idx => (s.take idx, s.drop idx)

/-- The host with its port, and the path. -/
def splitPath (url : List Char) : List Char × List Char := (cutAt '/' url).getD (url, ['/'])

def splitPort (hostPort : List Char) : Except String (List Char × Nat) :=
  match cutAt ':' hostPort with
  | some (host, colonPort) =>
      match parseU16 (colonPort.drop 1) with
      | some port => .ok (host, port)
      | none => .error "Invalid port"
  | none => .ok (hostPort, 80)

def parseUrl (url : List Char) : Except String ParsedUrl :=
  match stripPrefix url "http://".toList with
  | none => .error "Only http:// URLs supported"
  | some url =>
      match splitPort (splitPath url).1 with
      | .error e => .error e
      | .ok (host, port) => .ok ⟨String.ofList host, port, String.ofList (splitPath url).2⟩

theorem cutAt_eq_none_iff {c : Char} {s : List Char} : cutAt c s = none ↔ c ∉ s := by
  rw [cutAt, Option.map_eq_none_iff, List.findIdx?_eq_none_iff]
  constructor
  · intro h hc
    have := h c hc
    rw [beq_self_eq_true] at this
    cases this
  · intro h x hx
    rw [beq_eq_false_iff_ne]
    rintro rfl
    exact h hx

/-- What is cut off starts with the first `c`. -/
theorem cutAt_append {c : Char} {u : List Char} (hu : c ∉ u) (v : List Char) :
    cutAt c (u ++ c :: v) = some (u, c :: v) := by
  have hfind : (u ++ c :: v).findIdx? (· == c) = some u.length := by
    have hnone : u.findIdx? (· == c) = none := by
      have := cutAt_eq_none_iff.mpr hu
      rwa [cutAt, Option.map_eq_none_iff] at this
    rw [List.findIdx?_append, hnone, List.findIdx?_cons, beq_self_eq_true, if_pos rfl,
      Option.map_some, Nat.zero_add]
    rfl
  rw [cutAt, hfind, Option.map_some, List.take_left, List.drop_left]

theorem cutAt_cases (c : Char) (s : List Char) :
    (c ∉ s ∧ cutAt c s = none) ∨
    (∃ u v, c ∉ u ∧ s = u ++ c :: v ∧ cutAt c s = some (u, c :: v)) := by
  by_cases hc : c ∈ s
  · obtain ⟨u, v, rfl, hu⟩ := List.eq_append_cons_of_mem hc
    exact Or.inr ⟨u, v, hu, rfl, cutAt_append hu v⟩
  · exact Or.inl ⟨hc, cutAt_eq_none_iff.mpr hc⟩

/-- The path part of a URL: none for the root, or all from the first slash on. -/
inductive PathPart : List Char → List Char → Prop where
  | root : PathPart [] ['/']
  | given (rest : List Char) : PathPart ('/' :: rest) ('/' :: rest)

/-- The port part: none for port 80, or a colon and a number of sixteen bits. -/
inductive PortPart : List Char → Nat → Prop where
  | default : PortPart [] 80
  | given {digits : List Char} {port : Nat} : parseU16 digits = some port →
      PortPart (':' :: digits) port

theorem splitPath_eq_iff {url hostPort path : List Char} :
    splitPath url = (hostPort, path) ↔
      ∃ pathPart, url = hostPort ++ pathPart ∧ '/' ∉ hostPort ∧ PathPart pathPart path := by
  constructor
  · intro h
    rw [splitPath] at h
    rcases cutAt_cases '/' url with ⟨hnot, hcut⟩ | ⟨u, v, hu, rfl, hcut⟩
    · rw [hcut] at h
      cases h
      exact ⟨[], (List.append_nil _).symm, hnot, .root⟩
    · rw [hcut] at h
      cases h
      exact ⟨'/' :: v, rfl, hu, .given v⟩
  · rintro ⟨pathPart, rfl, hnot, hpath⟩
    cases hpath with
    | root =>
        rw [splitPath, List.append_nil, cutAt_eq_none_iff.mpr hnot]
        rfl
    | given rest =>
        rw [splitPath, cutAt_append hnot]
        rfl

theorem splitPort_eq_ok_iff {hostPort host : List Char} {port : Nat} :
    splitPort hostPort = .ok (host, port) ↔
      ∃ portPart, hostPort = host ++ portPart ∧ ':' ∉ host ∧ PortPart portPart port := by
  constructor
  · intro h
    rw [splitPort] at h
    rcases cutAt_cases ':' hostPort with ⟨hnot, hcut⟩ | ⟨u, v, hu, rfl, hcut⟩
    · rw [hcut] at h
      cases h
      exact ⟨[], (List.append_nil _).symm, hnot, .default⟩
    · rw [hcut] at h
      simp only [List.drop_one, List.tail_cons] at h
      cases hparse : parseU16 v with
      | none =>
          rw [hparse] at h
          cases h
      | some port' =>
          rw [hparse] at h
          cases h
          exact ⟨':' :: v, rfl, hu, .given hparse⟩
  · rintro ⟨portPart, rfl, hnot, hport⟩
    cases hport with
    | default =>
        rw [splitPort, List.append_nil, cutAt_eq_none_iff.mpr hnot]
    | given hparse =>
        rw [splitPort, cutAt_append hnot]
        simp only [List.drop_one, List.tail_cons, hparse]

/-- **URLS**: `parse_url` accepts `http://host`, with or without a port and a path,
    and returns these parts.  No host has a colon: an address in brackets is cut
    at its first one. -/
theorem parseUrl_eq_ok_iff {url : List Char} {p : ParsedUrl} :
    parseUrl url = .ok p ↔
      ∃ portPart pathPart, url = "http://".toList ++ (p.host.toList ++ portPart ++ pathPart) ∧
        '/' ∉ p.host.toList ++ portPart ∧ ':' ∉ p.host.toList ∧ PortPart portPart p.port ∧
        PathPart pathPart p.path.toList := by
  constructor
  · intro h
    rw [parseUrl] at h
    cases hstrip : stripPrefix url "http://".toList with
    | none =>
        rw [hstrip] at h
        cases h
    | some rest =>
        obtain rfl := List.isPrefixOf?_eq_some_iff_append_eq.mp hstrip
        rw [hstrip] at h
        simp only at h
        obtain ⟨pathPart, hrest, hslash, hpath⟩ :=
          splitPath_eq_iff.mp (Prod.mk.eta (p := splitPath rest)).symm
        cases hsplit : splitPort (splitPath rest).1 with
        | error e =>
            rw [hsplit] at h
            cases h
        | ok r =>
            obtain ⟨host, port⟩ := r
            rw [hsplit] at h
            cases h
            obtain ⟨portPart, hhost, hcolon, hport⟩ := splitPort_eq_ok_iff.mp hsplit
            have hlist : (String.ofList host).toList = host := String.toList_ofList
            rw [hhost] at hrest hslash
            refine ⟨portPart, pathPart, ?_, ?_, ?_, hport, ?_⟩
            · show _ = "http://".toList ++ ((String.ofList host).toList ++ portPart ++ pathPart)
              rw [hlist, ← hrest]
            · rw [hlist]
              exact hslash
            · rw [hlist]
              exact hcolon
            · rw [String.toList_ofList]
              exact hpath
  · rintro ⟨portPart, pathPart, rfl, hslash, hcolon, hport, hpath⟩
    have hsplit : splitPath (p.host.toList ++ portPart ++ pathPart)
        = (p.host.toList ++ portPart, p.path.toList) :=
      splitPath_eq_iff.mpr ⟨pathPart, rfl, hslash, hpath⟩
    have hhost : splitPort (p.host.toList ++ portPart) = .ok (p.host.toList, p.port) :=
      splitPort_eq_ok_iff.mpr ⟨portPart, rfl, hcolon, hport⟩
    rw [parseUrl, stripPrefix_append]
    simp only [hsplit, hhost, String.ofList_toList]

/-- The HTTP request bytes, built once. -/
def requestBytes (url : ParsedUrl) : List UInt8 :=
  bytes ("GET " ++ url.path ++ " HTTP/1.1\r\nHost: " ++ url.host
    ++ "\r\nConnection: keep-alive\r\n\r\n")

/-- What it is parsed as. -/
def rawRequest (url : ParsedUrl) : RawRequest where
  method := some "GET"
  path := some url.path
  version := some 1
  headers := [("Host", bytes url.host), ("Connection", bytes "keep-alive")]

def request (url : ParsedUrl) : Request where
  method := "GET"
  uri := url.path
  version := .http11
  headers := [("host", bytes url.host), ("connection", bytes "keep-alive")]
  body := []

/-- The crates make of the request what was meant. -/
structure Understood (H : Httparse) (K : HttpCrate) (url : ParsedUrl) : Prop where
  parse : H.parse (requestBytes url) = .complete (requestBytes url).length (rawRequest url)
  fits : (requestBytes url).length ≤ maxBufSize
  method : K.methodFromBytes "GET" = some "GET"
  hostName : K.headerNameFromBytes "Host" = some "host"
  connectionName : K.headerNameFromBytes "Connection" = some "connection"
  hostValue : K.headerValueFromBytes (bytes url.host) = some (bytes url.host)
  connectionValue : K.headerValueFromBytes (bytes "keep-alive") = some (bytes "keep-alive")
  uri : K.uriOk url.path = true
  text : K.toStr (bytes "keep-alive") = some "keep-alive".toList

section Understood

variable {H : Httparse} {K : HttpCrate} {url : ParsedUrl}

/-- It has no body, and nothing is behind it. -/
theorem Understood.whole (h : Understood H K url) :
    Whole.request H K (requestBytes url) = .ok (some (request url), []) := by
  have hhead : toHead K (rawRequest url)
      = .ok ⟨"GET", url.path, .http11, (request url).headers⟩ := by
    simp only [toHead, rawRequest, Option.getD_some, h.method, headerMap, h.hostName, h.hostValue,
      h.connectionName, h.connectionValue]
    rfl
  have hsection : Whole.head H K (requestBytes url)
      = .ok (some ⟨"GET", url.path, .http11, (request url).headers⟩, []) := by
    rw [Whole.head, List.take_of_length_le h.fits, h.parse]
    simp only [hhead, List.drop_length]
  have hbody : Whole.body K (request url).headers [] = .ok ([], []) := rfl
  rw [Whole.request, Refine.bind_of_ok hsection]
  simp only
  rw [Refine.bind_of_ok hbody, if_pos h.uri]
  rfl

theorem Understood.keepAlive (h : Understood H K url) : keepAlive K (request url) = true := by
  have hget : (request url).headers.get "connection" = some (bytes "keep-alive") := rfl
  rw [DpdkNet.keepAlive, shouldKeepAlive, hget]
  simp only [h.text]
  rfl

end Understood

/-! ## The loop -/

/-- The non-empty pieces in which bytes arrive. -/
structure Cut (bytes : List UInt8) where
  pieces : List (List UInt8)
  nonempty : ∀ p ∈ pieces, p ≠ []
  flatten : pieces.flatten = bytes

/-- How an attempt to connect ends. -/
inductive Connect where
  | connected
  | failed (message : String)
  | timeout

/-- Why an exchange yields no response: a write or a read fails, or there is no
    response in time. -/
inductive Disturbance where
  | io (message : String)
  | timeout

def Disturbance.sample : Disturbance → String
  | .io message => "io: " ++ message
  | .timeout => "timeout"

/-- What the network does in one round of the loop. -/
structure Round (request : List UInt8) where
  connect : Connect
  sent : Cut request
  received : (response : List UInt8) → Cut response
  disturbance : Option Disturbance
  /-- how often the buffer has been doubled in an exchange that fails -/
  doublings : Nat
  latencyUs : Nat

/-- What is recorded of a round. -/
inductive Event where
  | success (latencyUs : Nat) (bytes : Nat)
  | error (sample : String)
  deriving DecidableEq, Repr

/-- `local.record_success` or `local.record_error` -/
def Event.record {C : HistogramCrate} (l : LocalStats C) : Event → LocalStats C
  | .success latencyUs bytes => l.recordSuccess latencyUs (UInt64.ofNat bytes)
  | .error _ => l.recordError

/-- Ensure we have a connection. -/
def Round.ensure {request : List UInt8} {α : Type} (r : Round request) (fresh : α) :
    Option α → Except String α
  | some stream => .ok stream
  | none =>
      match r.connect with
      | .connected => .ok fresh
      | .failed message => .error ("connect: " ++ message)
      | .timeout => .error "connect timeout"

/-- A connection: the requests sent on it, as they reached the server, and what
    has arrived from the server and has not been read. -/
structure Stream (request : List UInt8) where
  sent : List (Cut request)
  unread : Delivery UInt8

def Stream.new {request : List UInt8} : Stream request := ⟨[], ⟨[], nofun⟩⟩

/-- The variables of `run_connection`, with all that was recorded. -/
structure Client (request : List UInt8) where
  events : List Event
  stream : Option (Stream request)
  bufLen : Nat

section Loop

-- what a connection of the server comes to on the requests that reach it
variable {request : List UInt8} (server : Delivery UInt8 → Served)

/-- The server's end of a connection. -/
def arriving (sent : List (Cut request)) : Delivery UInt8 where
  pieces := (sent.map Cut.pieces).flatten
  nonempty := by
    intro p hp
    obtain ⟨ps, hps, hp⟩ := List.mem_flatten.mp hp
    obtain ⟨c, -, rfl⟩ := List.mem_map.mp hps
    exact c.nonempty p hp

/-- What the server writes when one more request has reached it. -/
def reply (sent : List (Cut request)) (next : Cut request) : List UInt8 :=
  ((server (arriving (sent ++ [next]))).written.drop
    (server (arriving sent)).written.length).flatten

/-- More has arrived. -/
def receive (unread : Delivery UInt8) {response : List UInt8} (c : Cut response) :
    Delivery UInt8 where
  pieces := unread.pieces ++ c.pieces
  nonempty := by
    intro p hp
    rcases List.mem_append.mp hp with hp | hp
    · exact unread.nonempty p hp
    · exact c.nonempty p hp

def ReadError.display : ReadError → String
  | .unexpectedEof message => message
  | .outOfFuel => ""

/-- Record an error and reconnect. -/
def Client.giveUp (s : Client request) (r : Round request) (d : Disturbance) : Client request :=
  ⟨s.events ++ [.error d.sample], none, s.bufLen * 2 ^ r.doublings⟩

/-- One round of the loop. -/
def Client.round (s : Client request) (r : Round request) : Client request :=
  match r.ensure Stream.new s.stream with
  | .error sample => { s with events := s.events ++ [.error sample] }
  | .ok stream =>
      match r.disturbance with
      | some d => s.giveUp r d
      | none =>
          let response := reply server stream.sent r.sent
          match readResponse s.bufLen (receive stream.unread (r.received response)) with
          | .error e => s.giveUp r (.io e.display)
          | .ok res =>
              ⟨s.events ++ [.success r.latencyUs res.totalRead],
                some ⟨stream.sent ++ [r.sent], res.stream⟩, res.cap⟩

/-- `run_connection`, over the rounds before the deadline. -/
def runConnection (rounds : List (Round request)) : Client request :=
  rounds.foldl (Client.round server) ⟨[], none, 16384⟩

end Loop

/-- `local`, as it is merged into the shared statistics. -/
def Client.localStats {request : List UInt8} {C : HistogramCrate} (s : Client request) :
    LocalStats C := s.events.foldl Event.record .new

/-! ## Every round is counted -/

section Count

variable {request : List UInt8} (server : Delivery UInt8 → Served)

theorem Client.round_records (s : Client request) (r : Round request) :
    ∃ e, (s.round server r).events = s.events ++ [e] := by
  rw [Client.round]
  cases r.ensure Stream.new s.stream with
  | error sample => exact ⟨_, rfl⟩
  | ok stream =>
      simp only
      cases r.disturbance with
      | some d => exact ⟨_, rfl⟩
      | none =>
          simp only
          cases readResponse s.bufLen _ with
          | error e => exact ⟨_, rfl⟩
          | ok res => exact ⟨_, rfl⟩

theorem length_events :
    ∀ (rounds : List (Round request)) (s : Client request),
      (rounds.foldl (Client.round server) s).events.length = s.events.length + rounds.length := by
  intro rounds
  induction rounds with
  | nil => intro s; rfl
  | cons r rs ih =>
      intro s
      obtain ⟨e, he⟩ := s.round_records server r
      rw [List.foldl_cons, ih, he, List.length_append, List.length_singleton, List.length_cons]
      omega

theorem foldl_record {C : HistogramCrate} :
    ∀ (es : List Event) (l : LocalStats C),
      (es.foldl Event.record l).requests + (es.foldl Event.record l).errors
        = l.requests + l.errors + UInt64.ofNat es.length := by
  intro es
  induction es with
  | nil => intro l; exact (add_zero _).symm
  | cons e es ih =>
      intro l
      have hlen : UInt64.ofNat (e :: es).length = 1 + UInt64.ofNat es.length := by
        rw [List.length_cons, Nat.add_comm, UInt64.ofNat_add]
        rfl
      rw [List.foldl_cons, ih, hlen, ← add_assoc]
      refine congrArg (· + UInt64.ofNat es.length) ?_
      cases e with
      | success latencyUs bytes => exact add_right_comm _ _ _
      | error sample => exact (add_assoc _ _ _).symm

/-- Whatever the server does, the requests and the errors of a connection are as
    many as its rounds. -/
theorem rounds_counted {C : HistogramCrate} (rounds : List (Round request)) :
    ((runConnection server rounds).localStats (C := C)).requests
        + ((runConnection server rounds).localStats (C := C)).errors
      = UInt64.ofNat rounds.length := by
  rw [Client.localStats, foldl_record, runConnection, length_events]
  show 0 + 0 + UInt64.ofNat (0 + rounds.length) = _
  rw [Nat.zero_add, add_zero, zero_add]

end Count

/-! ## What should be recorded -/

/-- The events of the rounds, if the response to the request with `k` others
    before it on its connection has `size k` bytes; `open?` is the number of
    requests on the connection that is open. -/
def expected {request : List UInt8} (size : Nat → Nat) :
    Option Nat → List (Round request) → List Event
  | _, [] => []
  | open?, r :: rs =>
      match r.ensure 0 open? with
      | .error sample => .error sample :: expected size none rs
      | .ok k =>
          match r.disturbance with
          | some d => .error d.sample :: expected size none rs
          | none => .success r.latencyUs (size k) :: expected size (some (k + 1)) rs

/-- What the loop relies on of the server: every request of a connection gets
    one response, of which the end can be told. -/
structure Answers (request : List UInt8) (server : Delivery UInt8 → Served)
    (head body : Nat → List UInt8) : Prop where
  written : ∀ sent : List (Cut request),
    (server (arriving sent)).written = (List.range sent.length).map fun k => head k ++ body k
  framed : ∀ k, Framed (head k) (body k)
  head_ne : ∀ k, head k ≠ []

/-- The client is between two rounds: nothing of a response is left over. -/
structure Between {request : List UInt8} (s : Client request) (open? : Option Nat) : Prop where
  stream : s.stream.map (fun c => c.sent.length) = open?
  read : ∀ c ∈ s.stream, c.unread.pieces = []
  room : 0 < s.bufLen

section Run

variable {request : List UInt8} {server : Delivery UInt8 → Served} {head body : Nat → List UInt8}

theorem Answers.reply_eq (h : Answers request server head body) (sent : List (Cut request))
    (next : Cut request) :
    reply server sent next = head sent.length ++ body sent.length := by
  rw [reply, h.written, h.written, List.length_append, List.length_singleton, List.range_succ,
    List.map_append, List.length_map, List.length_range]
  have hlen : ((List.range sent.length).map fun k => head k ++ body k).length = sent.length := by
    rw [List.length_map, List.length_range]
  rw [List.drop_append_of_le_length (Nat.le_of_eq hlen.symm), List.drop_eq_nil_of_le
    (Nat.le_of_eq hlen), List.nil_append, List.map_singleton, List.flatten_singleton]

/-- Both sides have a connection, with the same number of requests on it, or fail
    to get one. -/
theorem Between.ensure {s : Client request} {open? : Option Nat} (hs : Between s open?)
    (r : Round request) :
    (∃ sample, s.stream = none ∧ r.ensure Stream.new s.stream = .error sample ∧
      r.ensure 0 open? = .error sample) ∨
    (∃ c, c.unread.pieces = [] ∧ r.ensure Stream.new s.stream = .ok c ∧
      r.ensure 0 open? = .ok c.sent.length) := by
  have hopen := hs.stream
  cases hstream : s.stream with
  | some c =>
      rw [hstream] at hopen
      subst hopen
      exact Or.inr ⟨c, hs.read c hstream, rfl, rfl⟩
  | none =>
      rw [hstream] at hopen
      subst hopen
      simp only [Round.ensure, Option.map_none, true_and]
      cases r.connect with
      | connected => exact Or.inr ⟨Stream.new, rfl, rfl, rfl⟩
      | failed message => exact Or.inl ⟨_, rfl, rfl⟩
      | timeout => exact Or.inl ⟨_, rfl, rfl⟩

/-- **STEP**: a round records what it should. -/
theorem Client.round_spec (h : Answers request server head body) {s : Client request}
    {open? : Option Nat} (hs : Between s open?) (r : Round request) (rs : List (Round request)) :
    ∃ e open',
      (s.round server r).events = s.events ++ [e] ∧ Between (s.round server r) open' ∧
      expected (fun k => (head k ++ body k).length) open? (r :: rs)
        = e :: expected (fun k => (head k ++ body k).length) open' rs := by
  rw [Client.round, expected]
  rcases hs.ensure r with ⟨sample, hnone, hsys, hexp⟩ | ⟨c, hread, hsys, hexp⟩
  · -- no connection
    rw [hsys, hexp]
    refine ⟨.error sample, none, rfl, ⟨?_, hs.read, hs.room⟩, rfl⟩
    show s.stream.map _ = none
    rw [hnone]
    rfl
  · rw [hsys, hexp]
    simp only
    cases r.disturbance with
    | some d =>
        refine ⟨.error d.sample, none, rfl, ⟨rfl, ?_, ?_⟩, rfl⟩
        · intro c' hc'
          cases hc'
        · exact Nat.mul_pos hs.room (Nat.pow_pos (Nat.zero_lt_succ 1))
    | none =>
        have hreply := h.reply_eq c.sent r.sent
        have hpieces : (receive c.unread (r.received (reply server c.sent r.sent))).pieces
            = (r.received (reply server c.sent r.sent)).pieces ++ [] := by
          show c.unread.pieces ++ _ = _
          rw [hread, List.nil_append, List.append_nil]
        obtain ⟨res, hres, htotal, -, -, hrest, hcap⟩ :=
          readResponse_framed (h.framed c.sent.length) (h.head_ne c.sent.length) hs.room hpieces
            ((r.received _).flatten.trans hreply)
        simp only [hres]
        refine ⟨.success r.latencyUs res.totalRead, some (c.sent.length + 1), rfl, ⟨?_, ?_, hcap⟩, ?_⟩
        · show some (c.sent ++ [r.sent]).length = _
          rw [List.length_append, List.length_singleton]
        · intro c' hc'
          cases hc'
          exact hrest
        · rw [htotal]

/-- **RUN** -/
theorem foldl_round (h : Answers request server head body) :
    ∀ (rounds : List (Round request)) {s : Client request} {open? : Option Nat}, Between s open? →
      (rounds.foldl (Client.round server) s).events
        = s.events ++ expected (fun k => (head k ++ body k).length) open? rounds := by
  intro rounds
  induction rounds with
  | nil => intro s open? _; exact (List.append_nil _).symm
  | cons r rs ih =>
      intro s open? hs
      obtain ⟨e, open', hevents, hs', hexp⟩ := Client.round_spec h hs r rs
      rw [List.foldl_cons, ih hs', hevents, hexp, List.append_assoc, List.singleton_append]

end Run

/-! ## Against the servers -/

section Servers

variable {H : Httparse} {K : HttpCrate} {url : ParsedUrl}

/-- The request as it reaches the server. -/
def Understood.sent (h : Understood H K url) (c : Cut (requestBytes url)) : Sent H K where
  pieces := c.pieces
  req := request url
  whole := by
    rw [c.flatten]
    exact h.whole

/-- The responses to the same request again and again. -/
theorem replies_replicate (handler : Handler) (req : Request) :
    ∀ (n : Nat) (calls : List Request),
      replies K handler calls (List.replicate n req)
        = (List.range n).map fun k =>
            serializeResponse K (handler (calls ++ List.replicate k req) req) := by
  intro n
  induction n with
  | zero => intro calls; rfl
  | succ n ih =>
      intro calls
      rw [List.replicate_succ, replies, ih, List.range_succ_eq_map, List.map_cons, List.map_map,
        List.replicate_zero, List.append_nil]
      refine congrArg _ (List.map_congr_left fun k _ => ?_)
      show _ = serializeResponse K (handler (calls ++ List.replicate (k + 1) req) req)
      rw [List.replicate_succ, List.append_assoc, List.singleton_append]

/-- Both servers answer the benchmark's requests, one response for each. -/
theorem answers_of_serve (hK : PlainReasons K) (hu : Understood H K url) (hnil : H.parse [] = .more)
    (hpos : ∀ {q : List UInt8} {n : Nat} {raw : RawRequest}, H.parse q = .complete n raw → 0 < n)
    {handler : Handler}
    (hplain : ∀ k, PlainResponse (handler (List.replicate k (request url)) (request url)))
    (fl : Flavor) {reset : Parser → Parser}
    (hreset : ∀ p, p.buf.data = [] → (reset p).buf.data = [] ∧ (reset p).reader = p.reader) :
    Answers (requestBytes url)
      (fun d => serve K handler (fun _ => none) (parseRequest H K fl) reset (d.content.length + 1)
        [] [] (.new d))
      (fun k => block (headLines K (handler (List.replicate k (request url)) (request url))))
      (fun k => (handler (List.replicate k (request url)) (request url)).body) where
  written := by
    intro sent
    have hpieces : (arriving sent).pieces = ((sent.map hu.sent).map Sent.pieces).flatten := by
      rw [List.map_map]
      rfl
    have hreqs : (sent.map hu.sent).map Sent.req = List.replicate sent.length (request url) := by
      rw [List.map_map, ← List.map_const']
      rfl
    have hkept : ∀ e ∈ sent.map hu.sent, keepAlive K e.req = true := by
      intro e he
      obtain ⟨c, -, rfl⟩ := List.mem_map.mp he
      exact hu.keepAlive
    rw [serve_kept handler fl hreset hnil hpos (sent.map hu.sent) hkept hpieces, hreqs]
    show replies K handler [] _ = _
    rw [replies_replicate]
    refine List.map_congr_left fun k _ => ?_
    rw [List.nil_append, serializeResponse_eq K (hplain k)]
  framed := fun k => framed_response hK (hplain k)
  head_ne := fun k => block_headLines_ne_nil K _

/-- **EVERY SUCCESS IS RECORDED WITH ITS OWN RESPONSE**: whatever attempts to
    connect fail, whatever exchanges are disturbed and whatever the pieces in
    which requests and responses arrive, the benchmark records one event for
    each round, an error for each that fails, and for each other the size of the
    response to its own request, as the handler gives it after the requests sent
    before on the same connection. -/
theorem successes_have_their_own_size (hK : PlainReasons K) (hu : Understood H K url)
    (hnil : H.parse [] = .more)
    (hpos : ∀ {q : List UInt8} {n : Nat} {raw : RawRequest}, H.parse q = .complete n raw → 0 < n)
    (handler : Handler)
    (hplain : ∀ k, PlainResponse (handler (List.replicate k (request url)) (request url)))
    (rounds : List (Round (requestBytes url))) :
    (runConnection (handleConnection H K handler (fun _ => none)) rounds).events
        = expected (fun k => (serializeResponse K
            (handler (List.replicate k (request url)) (request url))).length) none rounds ∧
    (runConnection (handleHttpConnection H K handler (fun _ => none)) rounds).events
        = expected (fun k => (serializeResponse K
            (handler (List.replicate k (request url)) (request url))).length) none rounds := by
  have hsize : (fun k => (serializeResponse K
        (handler (List.replicate k (request url)) (request url))).length)
      = fun k => (block (headLines K (handler (List.replicate k (request url)) (request url)))
        ++ (handler (List.replicate k (request url)) (request url)).body).length :=
    funext fun k => congrArg List.length (serializeResponse_eq K (hplain k))
  have hstart : Between (⟨[], none, 16384⟩ : Client (requestBytes url)) none :=
    ⟨rfl, nofun, Nat.zero_lt_succ _⟩
  rw [hsize]
  constructor
  · exact foldl_round (answers_of_serve hK hu hnil hpos hplain .tokio fun p hp => ⟨hp, rfl⟩)
      rounds hstart
  · exact foldl_round (answers_of_serve hK hu hnil hpos hplain .kimojio
      KimojioHttpParser.reset_empty) rounds hstart

end Servers

/-! ## Four rounds -/

/-- `http://h/` -/
def rootUrl : ParsedUrl := ⟨"h", 80, "/"⟩

/-- The `http` crate on plain ASCII, with header names in lower case. -/
def lowerCrate : HttpCrate :=
  { asciiCrate with
    headerNameFromBytes := fun n => some (String.ofList (n.toList.map toAsciiLowercase)) }

def rootParser : Httparse := sectionParser (requestBytes rootUrl) (rawRequest rootUrl)

theorem rootUrl_understood : Understood rootParser lowerCrate rootUrl where
  parse := by
    simp only [rootParser, sectionParser, List.prefix_rfl, if_true]
  fits := by decide
  method := rfl
  hostName := by decide
  connectionName := by decide
  hostValue := rfl
  connectionValue := rfl
  uri := rfl
  text := by decide

theorem rootParser_pos {q : List UInt8} {n : Nat} {raw : RawRequest}
    (h : rootParser.parse q = .complete n raw) : 0 < n := by
  simp only [rootParser, sectionParser] at h
  split at h
  · cases h
    decide
  · split at h
    · cases h
    · cases h

theorem plainReasons_lowerCrate : PlainReasons lowerCrate := by
  intro status reason h
  simp only [lowerCrate, asciiCrate] at h
  split at h
  · cases h
    exact List.all_iff_forall_prop.mp rfl
  · cases h

theorem hello_plain : PlainResponse hello := by
  refine ⟨?_, ?_, by decide, by decide⟩
  · rw [hello, List.forall_mem_singleton]
    exact List.all_iff_forall_prop.mp rfl
  · rw [hello, List.forall_mem_singleton]
    exact List.all_iff_forall_prop.mp rfl

/-- Everything in one piece. -/
def Cut.whole (bytes : List UInt8) : Cut bytes :=
  ⟨(Delivery.whole bytes).pieces, (Delivery.whole bytes).nonempty, Delivery.content_whole bytes⟩

/-- A round with this connect and this disturbance. -/
def plainRound (connect : Connect) (disturbance : Option Disturbance) :
    Round (requestBytes rootUrl) :=
  ⟨connect, Cut.whole _, Cut.whole, disturbance, 1, 10⟩

/-- The first attempt to connect fails, and the second exchange times out. -/
theorem hello_after_timeout :
    (runConnection (handleHttpConnection rootParser lowerCrate (fun _ _ => hello) (fun _ => none))
      [plainRound (.failed "refused") none, plainRound .connected none,
        plainRound .connected (some .timeout), plainRound .connected none]).events
      = [.error "connect: refused", .success 10 (serializeResponse lowerCrate hello).length,
          .error "timeout", .success 10 (serializeResponse lowerCrate hello).length] :=
  (successes_have_their_own_size plainReasons_lowerCrate rootUrl_understood (by decide)
    rootParser_pos (fun _ _ => hello) (fun _ => hello_plain) _).2.trans rfl

end DpdkNet.Bench
