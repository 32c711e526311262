/-
# Http.Served -- what the peers of a running server get

A peer sends well-formed requests one after another; the loops take its bytes in pieces of
any size, between the events of any other connections.  The requests handed to
`on_request_` are then a front part of those sent, each is answered with one message, and
the peer has received a front part of these answers and nothing else (`connection_served`).
-/
import CppFileServer.Http.Exchange
import CppFileServer.Http.KeepAlive

namespace CppFileServer.Http

set_option autoImplicit false

open CppFileServer.Cpp CppFileServer.Tcp CppFileServer.Theory CppFileServer.Utils

section Session

variable {σ : Type} {server : HttpServer σ} {s t : Session σ}

/-- The stream is `done`, then `rest`, of which the parser has seen all. -/
structure Session.Reads (s : Session σ) (done : List SentRequest) (rest : Bytes) : Prop where
  delivered : s.delivered = stream done ++ rest
  dispatched : s.dispatched = done.map SentRequest.toHttpRequest
  holds : HttpContext.requestDecoder.Holds HttpContext.fresh s.conn.context rest
  ready : s.conn.context.Ready

/-- What a session keeps of a stream of well-formed requests, as long as it gets them. -/
structure Session.Serves (server : HttpServer σ) (s : Session σ) (rs : List SentRequest) :
    Prop where
  inOrder : s.dispatched <+: rs.map SentRequest.toHttpRequest
  answered : List.Forall₂ (Answers server) s.dispatched s.conn.messages
  reads : s.conn.state = .Connected → ∃ done todo rest, rs = done ++ todo ∧ s.Reads done rest

theorem serves_of_established (established : Established (· = false) s) (rs : List SentRequest) :
    s.Serves server rs := by
  obtain ⟨state, completeHeaders, world, cleared, rfl⟩ := established
  subst cleared
  refine ⟨List.nil_prefix, .nil, fun _ => ⟨[], rs, [], rfl, rfl, rfl, ?_, ?_⟩⟩
  · intro xs
    rfl
  · exact HttpContext.fresh_ready

/-- The next piece of the stream, as one call of the parser sees it. -/
theorem parse_next {rs : List SentRequest} (wellFormed : ∀ r ∈ rs, r.WellFormed)
    {done todo : List SentRequest} {rest input : Bytes} (split : rs = done ++ todo)
    (reads : s.Reads done rest) (sent : s.delivered ++ input <+: stream rs) :
    (∃ r later more, todo = r :: later ∧ rest ++ input = r.encode ++ more ∧
      s.conn.context.parseRequest input = .ok (true, r.completed.push more)) ∨
    ∃ context, s.conn.context.parseRequest input = .ok (true, context) ∧ context.Ready ∧
      HttpContext.requestDecoder.Holds HttpContext.fresh context (rest ++ input) := by
  obtain ⟨future, whole⟩ := sent
  rw [reads.delivered, split, stream_append, List.append_assoc, List.append_assoc,
    List.append_cancel_left_eq, ← List.append_assoc] at whole
  have wellFormed' : ∀ r ∈ todo, r.WellFormed := by
    intro r member
    exact wellFormed r (split ▸ List.mem_append_right done member)
  rcases parseRequest_stream wellFormed' reads.ready reads.holds whole with
    complete | ⟨context, parsed, ready, holds, -⟩
  · exact Or.inl complete
  · exact Or.inr ⟨context, parsed, ready, holds⟩

/-- The next request is answered, and the parser is new for what is behind it. -/
theorem serves_next {done later : List SentRequest} {r : SentRequest} {rest input more : Bytes}
    (answered : List.Forall₂ (Answers server) s.dispatched s.conn.messages)
    (before : s.Reads done rest) (taken : rest ++ input = r.encode ++ more)
    (delivered : t.delivered = s.delivered ++ input)
    (dispatched : t.dispatched = s.dispatched ++ [r.toHttpRequest])
    (messages : t.conn.messages =
      s.conn.messages ++ [(server.response s.world r.toHttpRequest).message])
    (fresh : t.conn.context = HttpContext.fresh.push more) :
    t.Serves server (done ++ r :: later) := by
  have next : t.dispatched = (done ++ [r]).map SentRequest.toHttpRequest := by
    rw [dispatched, before.dispatched, List.map_append]
    rfl
  refine ⟨?_, ?_, fun _ => ⟨done ++ [r], later, more, by simp, ?_, next, ?_, ?_⟩⟩
  · rw [next, List.map_append, List.map_append]
    exact (List.prefix_append_right_inj _).mpr (List.prefix_append [r.toHttpRequest] _)
  · rw [dispatched, messages]
    exact List.rel_append answered (.cons ⟨s.world, rfl⟩ .nil)
  · rw [delivered, before.delivered, List.append_assoc, taken, stream_append, stream_cons,
      stream_nil, List.append_nil, List.append_assoc]
  · rw [fresh]
    exact HttpContext.requestDecoder.holds_push HttpContext.fresh more
  · rw [fresh]
    exact ⟨rfl, fun _ => rfl, by simp [HttpContext.fresh]⟩

/-- **Step lemma**: a turn serves what it has been sent. -/
theorem serves_turn {rs : List SentRequest} (wellFormed : ∀ r ∈ rs, r.WellFormed)
    (serves : s.Serves server rs) (turn : Turn server s t) (sent : t.delivered <+: stream rs) :
    t.Serves server rs := by
  obtain ⟨inOrder, answered, reads⟩ := serves
  have fields {d : Bytes} {r : List HttpRequest} {m : List Bytes} (log : t.log = (d, r, m)) :
      t.delivered = d ∧ t.dispatched = r ∧ t.conn.messages = m :=
    ⟨congrArg (·.1) log, congrArg (·.2.1) log, congrArg (·.2.2) log⟩
  cases turn with
  | rests state context log world =>
      obtain ⟨delivered, dispatched, messages⟩ := fields log
      refine ⟨dispatched ▸ inOrder, by rw [dispatched, messages]; exact answered, ?_⟩
      intro opened
      obtain ⟨done, todo, rest, split, same, dispatched', holds, ready⟩ := reads (state ▸ opened)
      exact ⟨done, todo, rest, split, delivered.trans same, dispatched.trans dispatched',
        context ▸ holds, context ▸ ready⟩
  | hangsUp shut log world =>
      obtain ⟨-, dispatched, messages⟩ := fields log
      exact ⟨dispatched ▸ inOrder, by rw [dispatched, messages]; exact answered,
        fun opened => absurd opened shut⟩
  | @waits input opened parsed unfinished state log world =>
      obtain ⟨delivered, dispatched, messages⟩ := fields log
      obtain ⟨done, todo, rest, split, before⟩ := reads opened
      refine ⟨dispatched ▸ inOrder, by rw [dispatched, messages]; exact answered, fun _ => ?_⟩
      rcases parse_next wellFormed split before (delivered ▸ sent) with
        ⟨r, later, more, -, -, complete⟩ | ⟨context, waiting, ready, holds⟩
      · rw [parsed, Except.ok.injEq, Prod.mk.injEq] at complete
        rw [complete.2] at unfinished
        cases unfinished
      · rw [parsed] at waiting
        cases waiting
        refine ⟨done, todo, rest ++ input, split, ?_, dispatched.trans before.dispatched, holds,
          ready⟩
        rw [delivered, before.delivered, List.append_assoc]
  | refuses opened parsed state log world =>
      obtain ⟨delivered, -, -⟩ := fields log
      obtain ⟨done, todo, rest, split, before⟩ := reads opened
      rcases parse_next wellFormed split before (delivered ▸ sent) with
        ⟨r, later, more, -, -, complete⟩ | ⟨context, waiting, -, -⟩
      · rw [parsed] at complete
        cases complete
      · rw [parsed] at waiting
        cases waiting
  | @answers input context opened parsed complete reset state log world =>
      obtain ⟨delivered, dispatched, messages⟩ := fields log
      obtain ⟨done, todo, rest, rfl, before⟩ := reads opened
      rcases parse_next wellFormed rfl before (delivered ▸ sent) with
        ⟨r, later, more, rfl, taken, finished⟩ | ⟨context', waiting, ready, -⟩
      · rw [parsed] at finished
        cases finished
        exact serves_next answered before taken delivered dispatched messages reset
      · rw [parsed] at waiting
        cases waiting
        rw [ready.unfinished] at complete
        cases complete

/-- What was delivered stays delivered. -/
theorem Turn.delivered_prefix (turn : Turn server s t) : s.delivered <+: t.delivered := by
  have first {d : Bytes} {r : List HttpRequest} {m : List Bytes} (log : t.log = (d, r, m)) :
      t.delivered = d := congrArg (·.1) log
  cases turn with
  | rests state context log world => rw [first log]
  | hangsUp shut log world => rw [first log]
  | waits opened parsed unfinished state log world => exact first log ▸ List.prefix_append _ _
  | refuses opened parsed state log world => exact first log ▸ List.prefix_append _ _
  | answers opened parsed complete reset state log world =>
      exact first log ▸ List.prefix_append _ _

end Session

section Runs

variable {σ L : Type} [DecidableEq L] [Fintype L] {server : HttpServer σ} {main : L}
  {loops : List L} {s : TcpServer σ L} {actions : List (ServerAction σ L)} {c : Nat}
  {session : Session σ}

/-- **Every peer is served.**  However the bytes of well-formed requests are cut into reads,
and whatever happens on other connections in between, the requests handed over are a front
part of those sent and each has its answer; this needs connections on memory where
`complete_headers_` starts cleared.  Where no write failed and no message was over `INT_MAX`,
the kernel has been given a front part of the answers. -/
theorem connection_served
    (performed : perform (TcpServer.step server main loops) {} actions = some s)
    (cleared : ∀ action ∈ actions, action.Answers (fun _ => True) (· = false))
    (found : s.session c = some session) {rs : List SentRequest}
    (wellFormed : ∀ r ∈ rs, r.WellFormed) (sent : session.delivered <+: stream rs) :
    session.dispatched <+: rs.map SentRequest.toHttpRequest ∧
      List.Forall₂ (Answers server) session.dispatched session.conn.messages ∧
      ((∀ action ∈ actions, action.Answers CleanWrites fun _ => True) → session.conn.Uncut →
        session.conn.wire <+: session.conn.messages.flatten) := by
  have lived := TcpServer.lived_of_performed performed cleared found
  have serves : session.Drained ∧ (session.delivered <+: stream rs → session.Serves server rs) := by
    apply lived.invariant (Q := fun s => s.Drained ∧
      (s.delivered <+: stream rs → s.Serves server rs))
    · intro s established
      exact ⟨drained_of_established established, fun _ => serves_of_established established rs⟩
    · rintro s action t ⟨drained, earlier⟩ - stepped
      obtain ⟨world, turn, drained'⟩ := sessionStep_turn drained stepped
      refine ⟨drained', ?_⟩
      intro sent
      obtain ⟨inOrder, answered, reads⟩ := earlier (turn.delivered_prefix.trans sent)
      have serves : ({ s with world := world } : Session σ).Serves server rs := by
        refine ⟨inOrder, answered, fun opened => ?_⟩
        obtain ⟨done, todo, rest, split, before⟩ := reads opened
        exact ⟨done, todo, rest, split, before.delivered, before.dispatched, before.holds,
          before.ready⟩
      exact serves_turn wellFormed serves turn sent
  obtain ⟨inOrder, answered, -⟩ := serves.2 sent
  refine ⟨inOrder, answered, fun clean uncut => ?_⟩
  have conserved := (connection_books performed clean found).whole uncut
  exact ⟨session.conn.sendBuf.readable, conserved.symm⟩

end Runs

/-- A first request and the beginning of the second, in one read. -/
theorem connection_served_once :
    ∃ s session, perform (TcpServer.step (HttpServer.construct 0) false [true]) {}
        (oneEventRun ((stream twoRequests).take 40)) = some s ∧
      s.session 0 = some session ∧ session.dispatched.length = 1 ∧
      session.dispatched <+: twoRequests.map SentRequest.toHttpRequest ∧
      List.Forall₂ (Answers (HttpServer.construct 0)) session.dispatched session.conn.messages ∧
      (session.conn.Uncut → session.conn.wire <+: session.conn.messages.flatten) := by
  have performed : ((perform (TcpServer.step (HttpServer.construct 0) false [true]) {}
      (oneEventRun ((stream twoRequests).take 40))).any fun s =>
        (s.session 0).any fun session => session.dispatched.length = 1 ∧
          session.delivered.isPrefixOf (stream twoRequests)) = true := by
    decide +kernel
  obtain ⟨s, performed, known⟩ := (Option.any_eq_true _ _).mp performed
  obtain ⟨session, found, outcome⟩ := (Option.any_eq_true _ _).mp known
  obtain ⟨once, sent⟩ := of_decide_eq_true outcome
  obtain ⟨inOrder, answered, taken⟩ := connection_served performed (oneEventRun_cleared _)
    found twoRequests_wellFormed (List.isPrefixOf_iff_prefix.mp sent)
  exact ⟨s, session, performed, found, once, inOrder, answered, taken (oneEventRun_clean _)⟩

end CppFileServer.Http
