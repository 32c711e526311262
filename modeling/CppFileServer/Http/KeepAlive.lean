/-
# Http.KeepAlive -- pipelined requests on a kept-open connection

The peer sends well-formed requests one after another; the reads of the server
cut the stream anywhere.  `Tracks` ties an open connection to the stream: which
requests are done, which are to come, and which bytes of the next ones the parser
holds.  One arrival dispatches the next request or none (`arrive_spec`).

So what is dispatched is always a front part of what was sent
(`dispatched_in_order`), and nothing complete is left behind exactly as long as
no read brings the last bytes of two requests (`dispatched_all_iff`).
-/
import CppFileServer.Http.Encoding
import CppFileServer.Http.HttpServer
import CppFileServer.Tcp.SendPath

namespace CppFileServer.Http

set_option autoImplicit false

open CppFileServer.Cpp CppFileServer.Tcp CppFileServer.Theory CppFileServer.Utils

/-- A readable event: what the read loop finds before `EAGAIN`, and what the
`write` of the answer returns. -/
structure Arrival where
  pieces : List TcpConnection.Piece
  now : Int
  result : WriteResult

def Arrival.bytes (a : Arrival) : Bytes := TcpConnection.bytesRead a.pieces

/-- The bytes of a list of arrivals. -/
def received (arrivals : List Arrival) : Bytes := (arrivals.map Arrival.bytes).flatten

/-- The bytes of a list of requests. -/
def stream (rs : List SentRequest) : Bytes := (rs.map SentRequest.encode).flatten

def HttpServer.arrive {σ : Type} (server : HttpServer σ) (s : Session σ) (a : Arrival) :
    Result (Session σ) :=
  server.handleMessage s (a.pieces.map TcpConnection.Piece.result ++ [.failed .eagain])
    a.now a.result

/-- A connection on which no request has been received: the parser is as `Reset`
leaves it, with an empty buffer. -/
structure Session.Idle {σ : Type} (s : Session σ) : Prop where
  context : s.conn.context = HttpContext.fresh
  valid : s.conn.readBuf.Valid
  empty : s.conn.readBuf.readable = []
  undispatched : s.dispatched = []

/-- The stream is `done`, then `rest`, of which the parser has seen all. -/
structure Session.Tracks {σ : Type} (s : Session σ) (done : List SentRequest) (rest : Bytes) :
    Prop where
  dispatched : s.dispatched = done.map SentRequest.toHttpRequest
  holds : HttpContext.requestDecoder.Holds HttpContext.fresh s.conn.context rest
  ready : s.conn.context.Ready
  valid : s.conn.readBuf.Valid
  empty : s.conn.readBuf.readable = []

theorem Session.Idle.tracks {σ : Type} {s : Session σ} (idle : s.Idle) : s.Tracks [] [] where
  dispatched := idle.undispatched
  holds := by
    intro xs
    rw [idle.context]
    rfl
  ready := idle.context ▸ HttpContext.fresh_ready
  valid := idle.valid
  empty := idle.empty

/-! ## Stream arithmetic -/

@[simp] theorem received_nil : received [] = [] := rfl

@[simp] theorem received_append (as bs : List Arrival) :
    received (as ++ bs) = received as ++ received bs := by
  simp [received]

@[simp] theorem received_singleton (a : Arrival) : received [a] = a.bytes := by
  simp [received]

@[simp] theorem stream_nil : stream [] = [] := rfl

@[simp] theorem stream_append (rs ts : List SentRequest) :
    stream (rs ++ ts) = stream rs ++ stream ts := by
  simp [stream]

@[simp] theorem stream_cons (r : SentRequest) (rs : List SentRequest) :
    stream (r :: rs) = r.encode ++ stream rs := by
  simp [stream]

/-- The requests whose last byte is among the first `n` of the stream. -/
def completed : List SentRequest → Nat → Nat
  | [], _ => 0
  | r :: rs, n => if r.encode.length ≤ n then completed rs (n - r.encode.length) + 1 else 0

theorem SentRequest.encode_nonempty (r : SentRequest) : 0 < r.encode.length := by
  simp only [SentRequest.encode, List.length_append, crlf_length]
  omega

theorem completed_zero (rs : List SentRequest) : completed rs 0 = 0 := by
  cases rs with
  | nil => rfl
  | cons r rs =>
      have := r.encode_nonempty
      rw [completed, if_neg (by omega)]

theorem completed_append (rs ts : List SentRequest) (xs : Bytes) :
    completed (rs ++ ts) (stream rs ++ xs).length = rs.length + completed ts xs.length := by
  induction rs with
  | nil => simp
  | cons r rs ih =>
      rw [stream_cons, List.append_assoc, List.length_append, List.cons_append, completed,
        if_pos (by omega), Nat.add_sub_cancel_left, ih, List.length_cons]
      omega

/-! ## One arrival -/

section Arrivals

variable {σ : Type} (server : HttpServer σ)

/-- The requests as messages of the parser. -/
def messages (rs : List SentRequest) : List (Bytes × HttpContext.Stop) :=
  rs.map fun r => (r.encode, .complete r.completed)

theorem messages_stream (rs : List SentRequest) :
    ((messages rs).map Prod.fst).flatten = stream rs := by
  simp [messages, stream, Function.comp_def]

/-- What one call of the parser does while it reads a stream of well-formed
requests: it completes the next one, or it waits inside it. -/
theorem parseRequest_stream {todo : List SentRequest}
    (wellFormed : ∀ r ∈ todo, r.WellFormed) {c : HttpContext} (ready : c.Ready)
    {rest x future : Bytes}
    (holds : HttpContext.requestDecoder.Holds HttpContext.fresh c rest)
    (sent : rest ++ x ++ future = stream todo) :
    (∃ r later more, todo = r :: later ∧ rest ++ x = r.encode ++ more ∧
      c.parseRequest x = .ok (true, r.completed.push more)) ∨
    (∃ c', c.parseRequest x = .ok (true, c') ∧ c'.Ready ∧
      HttpContext.requestDecoder.Holds HttpContext.fresh c' (rest ++ x) ∧
      ∀ r later, todo = r :: later → (rest ++ x).length < r.encode.length) := by
  have call := HttpContext.parseRequest_drain ready x
  change HttpContext.Agrees _ (HttpContext.requestDecoder.drain
    (HttpContext.requestDecoder.push c x)) at call
  have settled : HttpContext.requestDecoder.pass HttpContext.fresh = .wait := rfl
  have each : ∀ m ∈ messages todo,
      HttpContext.requestDecoder.Message HttpContext.fresh m.1 m.2 := by
    intro m member
    obtain ⟨r, inTodo, rfl⟩ := List.mem_map.mp member
    exact SentRequest.encode_message (wellFormed r inTodo)
  rw [← messages_stream] at sent
  rcases HttpContext.requestDecoder.read_stream settled each holds sent with
    ⟨m, ms, more, split, complete, drained⟩ | ⟨c', drained, holds', short⟩
  · cases todo with
    | nil => cases split
    | cons r later =>
        cases split
        rw [drained] at call
        exact Or.inl ⟨r, later, more, rfl, complete, call.1⟩
  · rw [drained] at call
    refine Or.inr ⟨c', call.1, call.2, holds', ?_⟩
    intro r later split
    exact short _ (messages later) (by rw [split]; rfl)

/-- **One arrival on an open connection** that has sent well-formed requests: the
next one is dispatched, or the read ends inside it, or nothing was read. -/
theorem arrive_spec {s t : Session σ} {done todo : List SentRequest}
    (wellFormed : ∀ r ∈ todo, r.WellFormed) {rest future : Bytes} {a : Arrival}
    (tracks : s.Tracks done rest) (connected : s.conn.state = .Connected)
    (sent : rest ++ a.bytes ++ future = stream todo) (arrived : server.arrive s a = .ok t) :
    (∃ r later more, todo = r :: later ∧ rest ++ a.bytes = r.encode ++ more ∧
      t.Tracks (done ++ [r]) more) ∨
    (t.Tracks done (rest ++ a.bytes) ∧
      ∀ r later, todo = r :: later → (rest ++ a.bytes).length < r.encode.length) ∨
    (a.bytes = [] ∧ t.Tracks done rest) := by
  obtain ⟨dispatched, holds, ready, valid, empty⟩ := tracks
  rw [HttpServer.arrive, HttpServer.handleMessage_eagain] at arrived
  cases filled : TcpConnection.fill s.conn.readBuf a.pieces with
  | error f => simp [filled] at arrived
  | ok b =>
      obtain ⟨valid', content⟩ := TcpConnection.fill_eq_ok valid filled
      rw [empty, List.nil_append] at content
      change b.readable = a.bytes at content
      rw [filled, ok_bind, server.onMessage_of_connected
        (s := { s with conn := { s.conn with readBuf := b } }) connected valid'] at arrived
      simp only [content] at arrived
      by_cases nothing : a.bytes = []
      · rw [if_pos nothing, Except.ok.injEq] at arrived
        subst arrived
        refine Or.inr (Or.inr ⟨nothing, dispatched, ?_, ?_, ?_, ?_⟩)
        · simpa using holds
        · simpa using ready
        · simpa using valid'
        · simpa [content] using nothing
      rw [if_neg nothing] at arrived
      have retrieved := Buffer.retrieveAll_valid valid'
      rcases parseRequest_stream wellFormed ready holds sent with
        ⟨r, later, more, split, complete, parsed⟩ | ⟨c', parsed, ready', holds', short⟩
      · rw [parsed, ok_bind] at arrived
        obtain ⟨dispatched', -, readBuf, context, -⟩ :=
          server.answer_complete_eq_ok rfl arrived
        have fresh : t.conn.context = HttpContext.fresh.push more := context
        refine Or.inl ⟨r, later, more, split, complete, ?_, ?_, ?_, ?_, ?_⟩
        · rw [dispatched']
          show s.dispatched ++ [r.toHttpRequest] = _
          rw [dispatched, List.map_append]
          rfl
        · rw [fresh]
          exact HttpContext.requestDecoder.holds_push HttpContext.fresh more
        · rw [fresh]
          exact ⟨rfl, fun _ => rfl, by simp [HttpContext.fresh]⟩
        · rw [readBuf]
          exact retrieved.1
        · rw [readBuf]
          exact retrieved.2
      · rw [parsed, ok_bind, server.answer_incomplete _ ready'.unfinished, Except.ok.injEq]
          at arrived
        subst arrived
        exact Or.inr (Or.inl ⟨⟨dispatched, holds', ready', retrieved.1, retrieved.2⟩, short⟩)

/-- An arrival on a closed connection dispatches nothing. -/
theorem arrive_of_not_connected {s t : Session σ} (closed : s.conn.state ≠ .Connected)
    {a : Arrival} (arrived : server.arrive s a = .ok t) :
    t.dispatched = s.dispatched ∧ t.conn.state = s.conn.state := by
  rw [HttpServer.arrive, HttpServer.handleMessage_eagain] at arrived
  cases filled : TcpConnection.fill s.conn.readBuf a.pieces with
  | error f => simp [filled] at arrived
  | ok b =>
      rw [filled, ok_bind, server.onMessage_of_not_connected
        (s := { s with conn := { s.conn with readBuf := b } }) closed, Except.ok.injEq] at arrived
      subst arrived
      exact ⟨rfl, rfl⟩

/-! ## Every run -/

/-- The invariant of a run: an open connection tracks the stream, and a closed one
has dispatched a front part of it. -/
def Follows (rs : List SentRequest) (arrivals : List Arrival) (t : Session σ) : Prop :=
  t.dispatched <+: rs.map SentRequest.toHttpRequest ∧
    (t.conn.state = .Connected → ∃ done todo rest, rs = done ++ todo ∧
      received arrivals = stream done ++ rest ∧ t.Tracks done rest)

theorem prefix_of_tracks {t : Session σ} {done : List SentRequest} {rest : Bytes}
    (tracks : t.Tracks done rest) (todo : List SentRequest) :
    t.dispatched <+: (done ++ todo).map SentRequest.toHttpRequest := by
  rw [tracks.dispatched, List.map_append]
  exact List.prefix_append _ _

theorem follows_step {rs : List SentRequest} (wellFormed : ∀ r ∈ rs, r.WellFormed)
    {arrivals : List Arrival} {a : Arrival}
    (sent : received (arrivals ++ [a]) <+: stream rs) {s t : Session σ}
    (follows : Follows rs arrivals s) (arrived : server.arrive s a = .ok t) :
    Follows rs (arrivals ++ [a]) t := by
  obtain ⟨inOrder, tracked⟩ := follows
  by_cases connected : s.conn.state = .Connected
  · obtain ⟨done, todo, rest, rfl, read, tracks⟩ := tracked connected
    obtain ⟨future, whole⟩ := sent
    rw [received_append, received_singleton, read, stream_append, List.append_assoc,
      List.append_assoc, List.append_cancel_left_eq, ← List.append_assoc] at whole
    rw [Follows, received_append, received_singleton, read]
    rcases arrive_spec server (fun r member => wellFormed r (List.mem_append_right _ member))
        tracks connected whole arrived with
      ⟨r, later, more, rfl, complete, tracks'⟩ | ⟨tracks', -⟩ | ⟨nothing, tracks'⟩
    · rw [show done ++ r :: later = (done ++ [r]) ++ later by simp]
      refine ⟨prefix_of_tracks tracks' later, fun _ => ⟨done ++ [r], later, more, rfl, ?_, tracks'⟩⟩
      rw [List.append_assoc, complete, stream_append, stream_cons, stream_nil, List.append_nil,
        List.append_assoc]
    · exact ⟨prefix_of_tracks tracks' todo,
        fun _ => ⟨done, todo, rest ++ a.bytes, rfl, by rw [List.append_assoc], tracks'⟩⟩
    · refine ⟨prefix_of_tracks tracks' todo, fun _ => ⟨done, todo, rest, rfl, ?_, tracks'⟩⟩
      rw [nothing, List.append_nil]
  · obtain ⟨same, sameState⟩ := arrive_of_not_connected server connected arrived
    exact ⟨same ▸ inOrder, fun isOpen => absurd (sameState ▸ isOpen) connected⟩

theorem follows_run {rs : List SentRequest} (wellFormed : ∀ r ∈ rs, r.WellFormed)
    {s : Session σ} (idle : s.Idle) {arrivals : List Arrival}
    (sent : received arrivals <+: stream rs) {t : Session σ}
    (ran : run server.arrive s arrivals = .ok t) : Follows rs arrivals t := by
  induction arrivals using List.reverseRecOn generalizing t with
  | nil =>
      cases ran
      refine ⟨by rw [idle.undispatched]; exact List.nil_prefix, fun _ => ?_⟩
      exact ⟨[], rs, [], rfl, rfl, idle.tracks⟩
  | append_singleton arrivals a ih =>
      obtain ⟨u, earlier, last⟩ := run_append_eq_ok ran
      obtain ⟨v, arrived, ended⟩ := run_cons_eq_ok last
      cases ended
      have sentEarlier : received arrivals <+: stream rs := by
        rw [received_append] at sent
        exact (List.prefix_append _ _).trans sent
      exact follows_step server wellFormed sent (ih sentEarlier earlier) arrived

/-- **Keep-alive dispatch is in order and faithful.**  However the bytes of
well-formed requests are cut into reads, the requests handed to `on_request_` are
a front part of those sent, each with its method, URL, version, fields and body. -/
theorem dispatched_in_order {rs : List SentRequest} (wellFormed : ∀ r ∈ rs, r.WellFormed)
    {s : Session σ} (idle : s.Idle) {arrivals : List Arrival}
    (sent : received arrivals <+: stream rs) {t : Session σ}
    (ran : run server.arrive s arrivals = .ok t) :
    t.dispatched <+: rs.map SentRequest.toHttpRequest :=
  (follows_run server wellFormed idle sent ran).1

end Arrivals

/-- A server whose callback leaves the response as it was constructed. -/
def plainServer : HttpServer Unit where
  onRequest_ := fun world _ response => (world, response)
  timeout := 0

/-- A connection as `ConnectionEstablished` leaves it. -/
def opened : Session Unit where
  conn := TcpConnection.established .Invalid false
  world := ()

theorem opened_idle : opened.Idle := ⟨rfl, Buffer.construct_valid, rfl, rfl⟩

def getRequest (url : Bytes) : SentRequest where
  method := .kGet
  url := url
  fields := [(ascii "Host", ascii "localhost")]
  body := .absent

theorem getRequest_wellFormed {url : Bytes} (nonempty : url ≠ [])
    (plain : ∀ b ∈ url, b ≠ 32 ∧ b ≠ 13 ∧ b ≠ 10) : (getRequest url).WellFormed where
  urlNonempty := nonempty
  urlPlain := plain
  keysDistinct := by simp [getRequest]
  keysPlain := show ∀ field ∈ [(ascii "Host", ascii "localhost")], _ by decide +kernel
  valuesPlain := show ∀ field ∈ [(ascii "Host", ascii "localhost")], _ by decide +kernel
  keepsAlive := show List.lookup _ [(ascii "Host", ascii "localhost")] ≠ _ by decide +kernel
  framed := show List.lookup _ [(ascii "Host", ascii "localhost")] = _ ∧
    List.lookup _ [(ascii "Host", ascii "localhost")] ≠ _ by decide +kernel

def twoRequests : List SentRequest := [getRequest (ascii "/ab"), getRequest (ascii "/c")]

theorem twoRequests_wellFormed : ∀ r ∈ twoRequests, r.WellFormed := by
  intro r member
  simp only [twoRequests, List.mem_cons, List.not_mem_nil, or_false] at member
  rcases member with rfl | rfl
  · exact getRequest_wellFormed (by decide) (by decide +kernel)
  · exact getRequest_wellFormed (by decide) (by decide +kernel)

/-- Cut inside the first URL, inside the CRLFs between the requests, and inside a field. -/
def cutArrivals : List Arrival :=
  [⟨[.data (ascii "GET /a")], 0, .accepts 9⟩,
    ⟨[.data (ascii "b HTTP/1.1\r\nHost: localhost\r\n\r"), .interrupted], 0, .accepts 9⟩,
    ⟨[.data (ascii "\nGET /c HTTP/1.1\r\n"), .data (ascii "Host: localh")], 0, .accepts 500⟩,
    ⟨[.data (ascii "ost\r\n\r\n")], 0, .failed .eagain⟩]

theorem dispatched_in_order_cut :
    ∃ t, run plainServer.arrive opened cutArrivals = .ok t ∧
      t.dispatched <+: twoRequests.map SentRequest.toHttpRequest := by
  obtain ⟨t, ran, -⟩ : ∃ t, run plainServer.arrive opened cutArrivals = .ok t ∧
      t.dispatched.length = 2 := eq_ok_of_map (by decide +kernel)
  exact ⟨t, ran, dispatched_in_order plainServer twoRequests_wellFormed opened_idle
    (by decide +kernel) ran⟩

/-! ## Nothing complete is left behind -/

section Completeness

variable {σ : Type} (server : HttpServer σ)

theorem connected_before {s t : Session σ} {a : Arrival} (arrived : server.arrive s a = .ok t)
    (connected : t.conn.state = .Connected) : s.conn.state = .Connected := by
  by_contra closed
  obtain ⟨-, sameState⟩ := arrive_of_not_connected server closed arrived
  exact closed (sameState ▸ connected)

/-- After an arrival on a connection that was up to date, it is up to date again
exactly if at most one more request has been completed. -/
theorem arrive_up_to_date {rs : List SentRequest} (wellFormed : ∀ r ∈ rs, r.WellFormed)
    {arrivals : List Arrival} {a : Arrival}
    (sent : received (arrivals ++ [a]) <+: stream rs) {s t : Session σ}
    (follows : Follows rs arrivals s) (connected : s.conn.state = .Connected)
    (upToDate : s.dispatched.length = completed rs (received arrivals).length)
    (arrived : server.arrive s a = .ok t) :
    t.dispatched.length = completed rs (received (arrivals ++ [a])).length ↔
      completed rs (received (arrivals ++ [a])).length ≤
        completed rs (received arrivals).length + 1 := by
  obtain ⟨done, todo, rest, rfl, read, tracks⟩ := follows.2 connected
  obtain ⟨future, whole⟩ := sent
  rw [received_append, received_singleton, read, stream_append, List.append_assoc,
    List.append_assoc, List.append_cancel_left_eq, ← List.append_assoc] at whole
  rw [tracks.dispatched, List.length_map, read, completed_append] at upToDate
  rw [received_append, received_singleton, read, List.append_assoc, completed_append,
    completed_append]
  rcases arrive_spec server (fun r member => wellFormed r (List.mem_append_right _ member))
      tracks connected whole arrived with
    ⟨r, later, more, rfl, complete, tracks'⟩ | ⟨tracks', short⟩ | ⟨nothing, tracks'⟩
  · have next : completed (r :: later) (rest ++ a.bytes).length =
        completed later more.length + 1 := by
      rw [complete, List.length_append, completed, if_pos (by omega), Nat.add_sub_cancel_left]
    rw [tracks'.dispatched, next, List.length_map, List.length_append, List.length_singleton]
    omega
  · have noneComplete : completed todo (rest ++ a.bytes).length = 0 := by
      cases todo with
      | nil => rfl
      | cons r later =>
          have := short r later rfl
          rw [completed, if_neg (by omega)]
    rw [tracks'.dispatched, noneComplete, List.length_map]
    omega
  · rw [tracks'.dispatched, nothing, List.append_nil, List.length_map]
    omega

/-- **No complete request is left unanswered** on a connection that is still open,
exactly as long as no read brings the last bytes of two requests: `onMessage`
parses once for each call. -/
theorem dispatched_all_iff {rs : List SentRequest} (wellFormed : ∀ r ∈ rs, r.WellFormed)
    {s : Session σ} (idle : s.Idle) {arrivals : List Arrival}
    (sent : received arrivals <+: stream rs) :
    (∀ k t, run server.arrive s (arrivals.take k) = .ok t → t.conn.state = .Connected →
      t.dispatched.length = completed rs (received (arrivals.take k)).length) ↔
    (∀ k t, run server.arrive s (arrivals.take (k + 1)) = .ok t → t.conn.state = .Connected →
      completed rs (received (arrivals.take (k + 1))).length ≤
        completed rs (received (arrivals.take k)).length + 1) := by
  have sentPart (k : Nat) : received (arrivals.take k) <+: stream rs := by
    refine List.IsPrefix.trans ?_ sent
    conv_rhs => rw [← List.take_append_drop k arrivals, received_append]
    exact List.prefix_append _ _
  -- a longer part of the run ends with one more arrival, or is the whole run
  have lastOf (k : Nat) : arrivals.take (k + 1) = arrivals.take k ∨
      ∃ a, arrivals.take (k + 1) = arrivals.take k ++ [a] := by
    rw [List.take_add_one]
    cases arrivals[k]? with
    | none => exact Or.inl (by simp)
    | some a => exact Or.inr ⟨a, by simp⟩
  constructor
  · intro upToDate k t ran connected
    rcases lastOf k with same | ⟨a, longer⟩
    · rw [same]
      omega
    · have now := upToDate (k + 1) t ran connected
      have sentNow := sentPart (k + 1)
      rw [longer] at ran now sentNow ⊢
      obtain ⟨u, earlier, last⟩ := run_append_eq_ok ran
      obtain ⟨v, arrived, ended⟩ := run_cons_eq_ok last
      cases ended
      have isOpen := connected_before server arrived connected
      have follows := follows_run server wellFormed idle (sentPart k) earlier
      exact (arrive_up_to_date server wellFormed sentNow follows isOpen
        (upToDate k u earlier isOpen) arrived).mp now
  · intro single k
    induction k with
    | zero =>
        intro t ran connected
        rw [List.take_zero] at ran ⊢
        cases ran
        rw [idle.undispatched, received_nil, List.length_nil, List.length_nil, completed_zero]
    | succ k ih =>
        intro t ran connected
        have atMostOne := single k t ran connected
        rcases lastOf k with same | ⟨a, longer⟩
        · rw [same] at ran ⊢
          exact ih t ran connected
        · have sentNow := sentPart (k + 1)
          rw [longer] at ran atMostOne sentNow ⊢
          obtain ⟨u, earlier, last⟩ := run_append_eq_ok ran
          obtain ⟨v, arrived, ended⟩ := run_cons_eq_ok last
          cases ended
          have isOpen := connected_before server arrived connected
          have follows := follows_run server wellFormed idle (sentPart k) earlier
          exact (arrive_up_to_date server wellFormed sentNow follows isOpen
            (ih u earlier isOpen) arrived).mpr atMostOne

end Completeness

/-- Both requests in one read. -/
def oneArrival : List Arrival := [⟨[.data (stream twoRequests)], 0, .accepts 500⟩]

/-- Two requests in one read: the second one stays in the buffer. -/
theorem second_request_left :
    ¬ ∀ k t, run plainServer.arrive opened (oneArrival.take k) = .ok t →
      t.conn.state = .Connected →
      t.dispatched.length = completed twoRequests (received (oneArrival.take k)).length := by
  intro upToDate
  obtain ⟨t, ran, outcome⟩ : ∃ t, run plainServer.arrive opened (oneArrival.take 1) = .ok t ∧
      (t.conn.state, t.dispatched.length) = (.Connected, 1) :=
    eq_ok_of_map (f := fun t : Session Unit => (t.conn.state, t.dispatched.length))
      (by decide +kernel)
  obtain ⟨connected, one⟩ := Prod.mk.inj outcome
  have two := upToDate 1 t ran connected
  rw [one] at two
  exact absurd two (by decide +kernel)

/-- When the second request arrives on its own, it is answered. -/
theorem dispatched_all_cut :
    (∀ k t, run plainServer.arrive opened (cutArrivals.take k) = .ok t →
      t.conn.state = .Connected →
      t.dispatched.length = completed twoRequests (received (cutArrivals.take k)).length) ↔
    (∀ k t, run plainServer.arrive opened (cutArrivals.take (k + 1)) = .ok t →
      t.conn.state = .Connected →
      completed twoRequests (received (cutArrivals.take (k + 1))).length ≤
        completed twoRequests (received (cutArrivals.take k)).length + 1) :=
  dispatched_all_iff plainServer twoRequests_wellFormed opened_idle (by decide +kernel)

end CppFileServer.Http
