/-
# Http.Exchange -- a connection as an exchange of messages

What a connection is for, without buffers, parser and loops: requests come one after
another, each is answered with one message before the next is looked at, and the exchange
ends with an answer that says so, with `400 Bad Request`, or when one side hangs up.
`Exchange` is this, over the requests and the messages so far.

A step of a session makes one `Turn` of the exchange, so every connection of the server is
an exchange, whatever the loops and the other connections do (`connection_exchange`); and
what the kernel has taken is the front part of its messages.
-/
import CppFileServer.Tcp.Sessions
import CppFileServer.Http.Teardown
import Mathlib.Data.List.Forall2

namespace CppFileServer.Http

set_option autoImplicit false

open CppFileServer.Cpp CppFileServer.Tcp CppFileServer.Theory CppFileServer.Utils

/-- What `on_request_` makes of a request. -/
def HttpServer.response {σ : Type} (server : HttpServer σ) (world : σ) (req : HttpRequest) :
    HttpResponse :=
  (server.onRequest_ world req (HttpResponse.construct (HttpServer.closes req))).2

/-- The requests and the messages of an exchange, which is open or has ended. -/
inductive Exchange {σ : Type} (server : HttpServer σ) : Bool → List HttpRequest → List Bytes → Prop
  | begins : Exchange server true [] []
  | answers {requests : List HttpRequest} {msgs : List Bytes}
      (before : Exchange server true requests msgs) (world : σ) (req : HttpRequest) :
      Exchange server (!(server.response world req).closeConnection) (requests ++ [req])
        (msgs ++ [(server.response world req).message])
  | refuses {requests : List HttpRequest} {msgs : List Bytes}
      (before : Exchange server true requests msgs) :
      Exchange server false requests (msgs ++ [HttpServer.badRequest])
  | hangsUp {isOpen : Bool} {requests : List HttpRequest} {msgs : List Bytes}
      (before : Exchange server isOpen requests msgs) : Exchange server false requests msgs

/-- The message answers the request. -/
def Answers {σ : Type} (server : HttpServer σ) (req : HttpRequest) (msg : Bytes) : Prop :=
  ∃ world, msg = (server.response world req).message

/-- Every request has its answer, in order, and at most a refusal comes after them. -/
theorem Exchange.answered {σ : Type} {server : HttpServer σ} {isOpen : Bool}
    {requests : List HttpRequest} {msgs : List Bytes}
    (exchange : Exchange server isOpen requests msgs) :
    ∃ answers, List.Forall₂ (Answers server) requests answers ∧
      (msgs = answers ∨ isOpen = false ∧ msgs = answers ++ [HttpServer.badRequest]) := by
  induction exchange with
  | begins => exact ⟨[], .nil, Or.inl rfl⟩
  | @answers requests msgs before world req ih =>
      obtain ⟨answers, inOrder, ended⟩ := ih
      have all : msgs = answers := ended.resolve_right fun refused => by cases refused.1
      subst all
      exact ⟨_, List.rel_append inOrder (.cons ⟨world, rfl⟩ .nil), Or.inl rfl⟩
  | @refuses requests msgs before ih =>
      obtain ⟨answers, inOrder, ended⟩ := ih
      have all : msgs = answers := ended.resolve_right fun refused => by cases refused.1
      subst all
      exact ⟨msgs, inOrder, Or.inr ⟨rfl, rfl⟩⟩
  | hangsUp before ih =>
      obtain ⟨answers, inOrder, all | ⟨-, refused⟩⟩ := ih
      · exact ⟨answers, inOrder, Or.inl all⟩
      · exact ⟨answers, inOrder, Or.inr ⟨rfl, refused⟩⟩

/-! ## Turns -/

section Turns

variable {σ : Type}

/-- What has come and gone on a connection. -/
def Session.log (s : Session σ) : Bytes × List HttpRequest × List Bytes :=
  (s.delivered, s.dispatched, s.conn.messages)

/-- An open connection has handed over everything that was read. -/
structure Session.Drained (s : Session σ) : Prop where
  valid : s.conn.readBuf.Valid
  empty : s.conn.state = .Connected → s.conn.readBuf.readable = []

/-- What one step of a session is in the exchange. -/
inductive Turn (server : HttpServer σ) (s t : Session σ) : Prop
  | rests (state : t.conn.state = s.conn.state) (context : t.conn.context = s.conn.context)
      (log : t.log = s.log) (world : t.world = s.world)
  | hangsUp (shut : t.conn.state ≠ .Connected) (log : t.log = s.log) (world : t.world = s.world)
  | waits {input : Bytes} (opened : s.conn.state = .Connected)
      (parsed : s.conn.context.parseRequest input = .ok (true, t.conn.context))
      (unfinished : t.conn.context.completeRequest = false) (state : t.conn.state = .Connected)
      (log : t.log = (s.delivered ++ input, s.dispatched, s.conn.messages))
      (world : t.world = s.world)
  | refuses {input : Bytes} {context : HttpContext} (opened : s.conn.state = .Connected)
      (parsed : s.conn.context.parseRequest input = .ok (false, context))
      (state : t.conn.state = .Disconected)
      (log : t.log =
        (s.delivered ++ input, s.dispatched, s.conn.messages ++ [HttpServer.badRequest]))
      (world : t.world = s.world)
  | answers {input : Bytes} {context : HttpContext} (opened : s.conn.state = .Connected)
      (parsed : s.conn.context.parseRequest input = .ok (true, context))
      (complete : context.completeRequest = true) (reset : t.conn.context = context.reset)
      (state : t.conn.state =
        if (server.response s.world context.request).closeConnection then .Disconected
        else .Connected)
      (log : t.log = (s.delivered ++ input, s.dispatched ++ [context.request],
        s.conn.messages ++ [(server.response s.world context.request).message]))
      (world : t.world = (server.onRequest_ s.world context.request
        (HttpResponse.construct (HttpServer.closes context.request))).1)

variable {server : HttpServer σ} {s t u : Session σ}

/-- A turn is about the log, the state and the parser only. -/
theorem Turn.congr (turn : Turn server s t) (log : u.log = t.log)
    (state : u.conn.state = t.conn.state) (context : u.conn.context = t.conn.context)
    (world : u.world = t.world) : Turn server s u := by
  cases turn with
  | rests state' context' log' world' =>
      exact .rests (state.trans state') (context.trans context') (log.trans log')
        (world.trans world')
  | hangsUp shut log' world' => exact .hangsUp (state ▸ shut) (log.trans log') (world.trans world')
  | waits opened parsed unfinished state' log' world' =>
      exact .waits opened (context ▸ parsed) (context ▸ unfinished) (state.trans state')
        (log.trans log') (world.trans world')
  | refuses opened parsed state' log' world' =>
      exact .refuses opened parsed (state.trans state') (log.trans log') (world.trans world')
  | answers opened parsed complete reset state' log' world' =>
      exact .answers opened parsed complete (context.trans reset) (state.trans state')
        (log.trans log') (world.trans world')

/-- One turn carries the exchange on. -/
theorem Turn.exchange (turn : Turn server s t)
    (exchange : Exchange server (s.conn.state = .Connected) s.dispatched s.conn.messages) :
    Exchange server (t.conn.state = .Connected) t.dispatched t.conn.messages := by
  have fields {d : Bytes} {r : List HttpRequest} {m : List Bytes} (log : t.log = (d, r, m)) :
      t.dispatched = r ∧ t.conn.messages = m := ⟨congrArg (·.2.1) log, congrArg (·.2.2) log⟩
  cases turn with
  | rests state context log world =>
      obtain ⟨dispatched, messages⟩ := fields log
      rw [dispatched, messages, state]
      exact exchange
  | hangsUp shut log world =>
      obtain ⟨dispatched, messages⟩ := fields log
      rw [dispatched, messages, decide_eq_false shut]
      exact .hangsUp exchange
  | waits opened parsed unfinished state log world =>
      obtain ⟨dispatched, messages⟩ := fields log
      rw [opened] at exchange
      rw [dispatched, messages, state]
      exact exchange
  | refuses opened parsed state log world =>
      obtain ⟨dispatched, messages⟩ := fields log
      rw [decide_eq_true opened] at exchange
      rw [dispatched, messages, state]
      exact .refuses exchange
  | @answers input context opened parsed complete reset state log world =>
      obtain ⟨dispatched, messages⟩ := fields log
      rw [decide_eq_true opened] at exchange
      have next := Exchange.answers exchange s.world context.request
      rw [dispatched, messages, state]
      cases closes : (server.response s.world context.request).closeConnection with
      | false =>
          rw [closes] at next
          exact next
      | true =>
          rw [closes] at next
          exact next

end Turns

/-! ## One step of a session -/

section Steps

variable {σ : Type} {server : HttpServer σ} {s t : Session σ}

/-- `onRequest` answers the request with the response of `on_request_`. -/
theorem onRequest_answers {req : HttpRequest} {result : WriteResult}
    (answered : server.onRequest s req result = .ok t) :
    t.world = (server.onRequest_ s.world req (HttpResponse.construct (HttpServer.closes req))).1 ∧
      t.log = (s.delivered, s.dispatched ++ [req],
        s.conn.messages ++ [(server.response s.world req).message]) ∧
      t.conn.state = if (server.response s.world req).closeConnection then .Disconected
        else s.conn.state := by
  obtain ⟨conn, sends, ended⟩ := bind_eq_ok answered
  obtain ⟨b, channel, wire, rfl⟩ := TcpConnection.send_eq_ok sends
  cases ended
  cases closing : (server.response s.world req).closeConnection with
  | false =>
      rw [HttpServer.response] at closing
      simp [closing, Session.log, HttpServer.response]
  | true =>
      rw [HttpServer.response] at closing
      simp [closing, Session.log, HttpServer.response]

/-- `onMessage` with the answer of `ParseRequest`, on an open connection that has handed
over its bytes. -/
theorem answer_turn (opened : s.conn.state = .Connected) (drained : s.Drained) {before : Session σ}
    {input : Bytes} (state : before.conn.state = .Connected)
    (log : s.log = (before.delivered ++ input, before.dispatched, before.conn.messages))
    (world : s.world = before.world) {result : WriteResult} {parsed : Bool × HttpContext}
    (called : before.conn.context.parseRequest input = .ok parsed)
    (answered : server.answer s result parsed = .ok t) : Turn server before t ∧ t.Drained := by
  obtain ⟨delivered, dispatched, messages⟩ :
      s.delivered = before.delivered ++ input ∧ s.dispatched = before.dispatched ∧
        s.conn.messages = before.conn.messages :=
    ⟨congrArg (·.1) log, congrArg (·.2.1) log, congrArg (·.2.2) log⟩
  obtain ⟨ok, context⟩ := parsed
  cases ok with
  | false =>
      obtain ⟨conn, sends, ended⟩ := bind_eq_ok answered
      obtain ⟨b, channel, wire, rfl⟩ := TcpConnection.send_eq_ok sends
      cases ended
      refine ⟨.refuses state called (by simp) ?_ world, ?_, ?_⟩
      · simp only [Session.log, TcpConnection.handleClose_messages, delivered, dispatched, messages]
      · simpa using drained.valid
      · simp
  | true =>
      cases complete : context.completeRequest with
      | false =>
          rw [server.answer_incomplete s complete, Except.ok.injEq] at answered
          subst answered
          exact ⟨.waits state called complete opened log world, drained.valid, drained.empty⟩
      | true =>
          obtain ⟨-, -, readBuf, reset, -⟩ := server.answer_complete_eq_ok complete answered
          simp only [HttpServer.answer, complete, if_true] at answered
          obtain ⟨u, requested, ended⟩ := bind_eq_ok answered
          cases ended
          obtain ⟨world', log', state'⟩ := onRequest_answers requested
          simp only [opened, world, delivered, dispatched, messages] at world' log' state'
          refine ⟨.answers state called complete reset state' log' world', ?_, ?_⟩
          · rw [readBuf]
            exact drained.valid
          · intro _
            rw [readBuf]
            exact drained.empty opened

theorem handleMessage_turn (drained : s.Drained) {results : List ReadResult} {now : Int}
    {result : WriteResult} (handled : server.handleMessage s results now result = .ok t) :
    Turn server s t ∧ t.Drained := by
  obtain ⟨conn, read, answered⟩ := bind_eq_ok handled
  have valid := TcpConnection.readNonBlocking_valid drained.valid read
  by_cases opened : conn.state = .Connected
  · obtain ⟨b, rfl | rfl⟩ := TcpConnection.readNonBlocking_frame read
    · replace answered := (server.onMessage_of_connected
        (s := { s with conn := { s.conn with readBuf := b } }) opened valid now result).symm.trans
        answered
      split_ifs at answered with empty
      · cases answered
        exact ⟨.rests (by simp) (by simp) (by simp [Session.log]) rfl, by simpa using valid,
          fun _ => by simpa using empty⟩
      · obtain ⟨parsed, called, answered⟩ := bind_eq_ok answered
        have retrieved := Buffer.retrieveAll_valid valid
        refine answer_turn ?_ ?_ opened ?_ ?_ called answered
        · simpa using opened
        · exact ⟨retrieved.1, fun _ => retrieved.2⟩
        · simp [Session.log]
        · rfl
    · rw [TcpConnection.handleClose_state] at opened
      cases opened
  · have idle := server.onMessage_of_not_connected (s := { s with conn := conn }) opened now result
    change server.onMessage now result { s with conn := conn } = _ at answered
    rw [idle, Except.ok.injEq] at answered
    subst answered
    refine ⟨.hangsUp opened ?_ rfl, valid, fun connected => absurd connected opened⟩
    obtain ⟨-, messages, -⟩ := TcpConnection.readNonBlocking_eq_ok read
    simp only [Session.log, messages]

theorem handleEvent_turn (drained : s.Drained) {events : BitVec 32} {inputs : Inputs σ}
    (handled : handleEvent server s events inputs = .ok t) : Turn server s t ∧ t.Drained := by
  obtain ⟨u, readable, handled⟩ := bind_eq_ok handled
  have first : Turn server s u ∧ u.Drained := by
    unfold readCallback at readable
    split_ifs at readable
    · exact handleMessage_turn drained readable
    · cases readable
      exact ⟨.rests rfl rfl rfl rfl, drained⟩
  unfold writeCallback at handled
  split_ifs at handled
  · obtain ⟨conn, wrote, handled⟩ := bind_eq_ok handled
    obtain ⟨b, channel, wire, rfl⟩ := TcpConnection.handleWrite_frame wrote
    cases handled
    exact ⟨first.1.congr rfl rfl rfl rfl, first.2.valid, first.2.empty⟩
  · cases handled
    exact first

/-- **Step lemma**: a step of a session is a turn of the exchange, with the state behind
`on_request_` as it is then. -/
theorem sessionStep_turn (drained : s.Drained) {action : SessionAction σ}
    (stepped : sessionStep server s action = .ok t) :
    ∃ world, Turn server { s with world := world } t ∧ t.Drained := by
  cases action with
  | event events inputs =>
      have turn := handleEvent_turn (s := { s with world := inputs.world })
        ⟨drained.valid, drained.empty⟩ stepped
      exact ⟨inputs.world, turn⟩
  | activeClose now =>
      refine ⟨s.world, ?_⟩
      cases stepped
      unfold HttpServer.handleActiveClose
      split_ifs
      · refine ⟨.hangsUp (by simp) (by simp [Session.log]) rfl, ?_, ?_⟩
        · simpa using drained.valid
        · simp
      · exact ⟨.rests rfl rfl rfl rfl, drained⟩
  | connectionDestructor =>
      refine ⟨s.world, ?_⟩
      cases stepped
      exact ⟨.rests rfl rfl rfl rfl, drained.valid, drained.empty⟩

/-- What a session keeps of the exchange. -/
structure Session.Exchanging (server : HttpServer σ) (s : Session σ) : Prop where
  drained : s.Drained
  exchange : Exchange server (s.conn.state = .Connected) s.dispatched s.conn.messages

theorem drained_of_established {memory : Bool → Prop} (established : Established memory s) :
    s.Drained := by
  obtain ⟨state, completeHeaders, world, -, rfl⟩ := established
  exact ⟨Buffer.construct_valid, fun _ => rfl⟩

theorem exchanging_of_established {memory : Bool → Prop} (established : Established memory s) :
    s.Exchanging server := by
  refine ⟨drained_of_established established, ?_⟩
  obtain ⟨state, completeHeaders, world, -, rfl⟩ := established
  exact .begins

theorem exchanging_step (exchanging : s.Exchanging server) {action : SessionAction σ}
    (stepped : sessionStep server s action = .ok t) : t.Exchanging server := by
  obtain ⟨world, turn, drained⟩ := sessionStep_turn exchanging.drained stepped
  exact ⟨drained, turn.exchange exchanging.exchange⟩

end Steps

/-! ## The books of a session -/

section Books

variable {σ : Type} {server : HttpServer σ} {s t : Session σ}

/-- No `write` of the callback fails with a socket error. -/
def CleanWrites (inputs : Inputs σ) : Prop := inputs.result.Clean ∧ inputs.result'.Clean

theorem accounted_of_established {memory : Bool → Prop} (established : Established memory s) :
    s.conn.Accounted := by
  obtain ⟨state, completeHeaders, world, -, rfl⟩ := established
  exact Life.start_accounted state completeHeaders world

theorem accounted_step (accounted : s.conn.Accounted) {action : SessionAction σ}
    (clean : action.Answers CleanWrites) (stepped : sessionStep server s action = .ok t) :
    t.conn.Accounted := by
  cases action with
  | event events inputs =>
      obtain ⟨readable, writable⟩ := clean
      obtain ⟨u, read, handled⟩ := bind_eq_ok stepped
      have first : u.conn.Accounted := by
        unfold readCallback at read
        split_ifs at read
        · exact Life.handleMessage_accounted (s := { s with world := inputs.world }) accounted
            readable read
        · cases read
          exact accounted
      unfold writeCallback at handled
      split_ifs at handled
      · obtain ⟨conn, wrote, handled⟩ := bind_eq_ok handled
        cases handled
        exact (TcpConnection.handleWrite_accounted first writable wrote).1
      · cases handled
        exact first
  | activeClose now =>
      cases stepped
      unfold HttpServer.handleActiveClose
      split_ifs
      · exact accounted.congr (by simp) (by simp) (by simp)
      · exact accounted
  | connectionDestructor =>
      cases stepped
      exact accounted.congr rfl rfl rfl

end Books

/-! ## Every connection of the server -/

section Runs

variable {σ L : Type} [DecidableEq L] [Fintype L] {server : HttpServer σ} {main : L}
  {loops : List L} {s : TcpServer σ L} {actions : List (ServerAction σ L)} {c : Nat}
  {session : Session σ}

/-- What was sent is on the wire or still to be written, when no `write` failed. -/
theorem connection_books
    (performed : perform (TcpServer.step server main loops) {} actions = some s)
    (clean : ∀ action ∈ actions, action.Answers CleanWrites fun _ => True)
    (found : s.session c = some session) : session.conn.Accounted := by
  have lived := TcpServer.lived_of_performed performed clean found
  exact lived.invariant (Q := fun s => s.conn.Accounted)
    (fun _ => accounted_of_established) fun _ _ _ before => accounted_step before

/-- **Every connection is an exchange** of its requests and messages, whatever the loops do
in whatever order.  When no `write` fails with a socket error and no message is longer than
an `int` counts, the messages are on the wire or still to be written, in order. -/
theorem connection_exchange
    (performed : perform (TcpServer.step server main loops) {} actions = some s)
    (found : s.session c = some session) :
    Exchange server (session.conn.state = .Connected) session.dispatched session.conn.messages ∧
      ((∀ action ∈ actions, action.Answers CleanWrites fun _ => True) → session.conn.Uncut →
        session.conn.messages.flatten = session.conn.wire ++ session.conn.sendBuf.readable) := by
  constructor
  · have any : ∀ action ∈ actions, action.Answers (fun _ => True) fun _ => True := by
      intro action _
      cases action <;> trivial
    have lived := TcpServer.lived_of_performed performed any found
    have exchanging : session.Exchanging server := lived.invariant
      (fun _ => exchanging_of_established) fun _ _ _ before _ => exchanging_step before
    exact exchanging.exchange
  · intro clean uncut
    exact (connection_books performed clean found).whole uncut

end Runs

/-- The main loop `false` accepts a connection for the loop `true`, and an event of it
brings these bytes; the kernel takes five of the answer. -/
def oneEventRun (input : Bytes) : List (ServerAction Unit Bool) :=
  [.poll false [.channel .accept], .accept 7 .Connected false (), .establish,
    .poll true [.channel (.connection 0 EPOLLIN)],
    .event true ⟨(), [.data input, .failed .eagain], 0, .accepts 5, .accepts 0⟩]

theorem oneEventRun_clean (input : Bytes) :
    ∀ action ∈ oneEventRun input, action.Answers CleanWrites fun _ => True := by
  simp [oneEventRun, ServerAction.Answers, CleanWrites, WriteResult.Clean]

theorem oneEventRun_cleared (input : Bytes) :
    ∀ action ∈ oneEventRun input, action.Answers (fun _ => True) (· = false) := by
  simp [oneEventRun, ServerAction.Answers]

/-- A line that is no request line is refused, and the exchange ends. -/
theorem connection_exchange_refused :
    ∃ s session, perform (TcpServer.step (HttpServer.construct 0) false [true]) {}
        (oneEventRun (ascii "BAD\r\n\r\n")) = some s ∧
      s.session 0 = some session ∧
      Exchange (HttpServer.construct 0) (session.conn.state = .Connected) session.dispatched
        session.conn.messages ∧
      (session.conn.Uncut →
        session.conn.messages.flatten = session.conn.wire ++ session.conn.sendBuf.readable) := by
  have performed : ((perform (TcpServer.step (HttpServer.construct 0) false [true]) {}
      (oneEventRun (ascii "BAD\r\n\r\n"))).any fun s =>
        (s.session 0).any fun session => session.conn.messages = [HttpServer.badRequest]) = true := by
    decide +kernel
  obtain ⟨s, performed, known⟩ := (Option.any_eq_true _ _).mp performed
  obtain ⟨session, found, -⟩ := (Option.any_eq_true _ _).mp known
  obtain ⟨exchange, books⟩ := connection_exchange performed found
  exact ⟨s, session, performed, found, exchange, books (oneEventRun_clean _)⟩

end CppFileServer.Http
