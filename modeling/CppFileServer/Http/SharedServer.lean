/-
# Http.SharedServer -- one state behind all connections

All connections call the same `on_request_`, so what one of them changes the others see.
`SharedServer` is the server with this state, which `Inputs.world` leaves open; a call of
`on_request_` is part of the step of its event, so the runs here are those in which no two
of them overlap, as they never do on a single loop.

`calls` is not in the source but records the requests handed over, oldest first, each with
its connection.  The server answers as if they had come in this order from one client
(`one_order`): its connections see their share of one history.
-/
import CppFileServer.Http.Exchange
import CppFileServer.Theory.Serial

namespace CppFileServer.Http

set_option autoImplicit false

open CppFileServer.Cpp CppFileServer.Tcp CppFileServer.Theory CppFileServer.Utils

structure SharedServer (σ L : Type) where
  server : TcpServer σ L := {}
  world : σ
  calls : List (Nat × HttpRequest) := []

/-- `on_request_`, with the response that `onRequest` constructs. -/
def HttpServer.serve {σ : Type} (server : HttpServer σ) (world : σ) (req : HttpRequest) :
    σ × HttpResponse :=
  server.onRequest_ world req (HttpResponse.construct (HttpServer.closes req))

/-- The requests that a connection has dispatched. -/
def requestsOf {σ L : Type} (s : TcpServer σ L) (c : Nat) : List HttpRequest :=
  ((s.session c).map Session.dispatched).getD []

namespace SharedServer

section Definitions

variable {σ L : Type}

/-- The connection whose event the loop handles. -/
def handled (s : SharedServer σ L) (l : L) : Option Nat :=
  match (s.server.loop l).phase with
  | .handling (.channel (.connection c _) :: _) => some c
  | _ => none

/-- After an event of a connection: the state that its callback has left, and its call. -/
def record (s : SharedServer σ L) (c : Nat) (t : TcpServer σ L) : SharedServer σ L where
  server := t
  world := ((t.session c).map Session.world).getD s.world
  calls := s.calls ++
    ((requestsOf t c).drop (requestsOf s.server c).length).map fun req => (c, req)

variable [DecidableEq L] [Fintype L] (server : HttpServer σ) (main : L) (loops : List L)

def step (s : SharedServer σ L) : ServerAction σ L → Option (Result (SharedServer σ L))
  | .event l inputs =>
      match s.handled l with
      | some c =>
          (s.server.step server main loops (.event l { inputs with world := s.world })).map
            fun stepped => (do
              let t ← stepped
              pure (s.record c t))
      | none => none
  | action =>
      (s.server.step server main loops action).map fun stepped => (do
        let t ← stepped
        pure { s with server := t })

end Definitions

section Steps

variable {σ L : Type} [DecidableEq L] [Fintype L] {server : HttpServer σ} {main : L}
  {loops : List L} {s t : SharedServer σ L}

/-- The steps that return: an event, with the shared state, or anything else. -/
inductive Steps (server : HttpServer σ) (main : L) (loops : List L) (s : SharedServer σ L) :
    ServerAction σ L → SharedServer σ L → Prop
  | event {l : L} {inputs : Inputs σ} {c : Nat} {t : TcpServer σ L} (handling : s.handled l = some c)
      (went : s.server.step server main loops (.event l { inputs with world := s.world }) =
        some (.ok t)) : Steps server main loops s (.event l inputs) (s.record c t)
  | other {action : ServerAction σ L} {t : TcpServer σ L} (noEvent : ∀ l inputs, action ≠ .event l inputs)
      (went : s.server.step server main loops action = some (.ok t)) :
      Steps server main loops s action { s with server := t }

theorem steps_of_step {action : ServerAction σ L}
    (stepped : s.step server main loops action = some (.ok t)) :
    Steps server main loops s action t := by
  by_cases event : ∃ l inputs, action = .event l inputs
  · obtain ⟨l, inputs, rfl⟩ := event
    simp only [step] at stepped
    split at stepped
    · rename_i c handling
      obtain ⟨outcome, went, ended⟩ := Option.map_eq_some_iff.mp stepped
      obtain ⟨u, rfl, same⟩ := bind_eq_ok ended
      cases same
      exact .event handling went
    · cases stepped
  · push Not at event
    have went : (s.server.step server main loops action).map (fun stepped => (do
        let t ← stepped
        pure { s with server := t } : Result (SharedServer σ L))) = some (.ok t) := by
      cases action with
      | event l inputs => exact absurd rfl (event l inputs)
      | poll l ready => exact stepped
      | accept fd state completeHeaders world => exact stepped
      | establish => exact stepped
      | timer l conn now => exact stepped
      | close l => exact stepped
      | proceed l => exact stepped
    obtain ⟨outcome, stepped', ended⟩ := Option.map_eq_some_iff.mp went
    obtain ⟨u, rfl, same⟩ := bind_eq_ok ended
    cases same
    exact .other event stepped'

end Steps

/-! ## One history -/

section Serialized

variable {σ L : Type} (server : HttpServer σ) (start : σ)

/-- The messages that answer the calls of a connection, in the one history of all calls. -/
def answersOf (calls : List (Nat × HttpRequest)) (c : Nat) : List Bytes :=
  (Serial.of c (Serial.history server.serve start calls)).map fun answered => answered.2.message

/-- A session has its share of the history, and a refusal at most after it. -/
def Shares (calls : List (Nat × HttpRequest)) (c : Nat) (session : Session σ) : Prop :=
  session.dispatched = Serial.of c calls ∧
    (session.conn.messages = answersOf server start calls c ∨
      session.conn.state ≠ .Connected ∧
        session.conn.messages = answersOf server start calls c ++ [HttpServer.badRequest])

/-- The server answers like one object that gets the calls one after another. -/
structure Serialized (s : SharedServer σ L) : Prop where
  world : s.world = Serial.outcome server.serve start s.calls
  known : ∀ c, s.server.session c = none → Serial.of c s.calls = []
  drained : ∀ c session, s.server.session c = some session → session.Drained
  shares : ∀ c session, s.server.session c = some session →
    Shares server start s.calls c session

end Serialized

section Sharing

variable {σ L : Type} {server : HttpServer σ} {start : σ} {s : SharedServer σ L}
  {t : TcpServer σ L} {c : Nat}

/-- What a call adds to the histories of the connections. -/
theorem answersOf_concat {calls : List (Nat × HttpRequest)} {req : HttpRequest} :
    answersOf server start (calls ++ [(c, req)]) c = answersOf server start calls c ++
      [(server.serve (Serial.outcome server.serve start calls) req).2.message] := by
  simp [answersOf, Serial.history_concat]

theorem answersOf_concat_ne {calls : List (Nat × HttpRequest)} {req : HttpRequest} {d : Nat}
    (other : c ≠ d) :
    answersOf server start (calls ++ [(c, req)]) d = answersOf server start calls d := by
  simp [answersOf, Serial.history_concat, Serial.of_cons_ne other]

theorem answersOf_of_none {calls : List (Nat × HttpRequest)} (unasked : Serial.of c calls = []) :
    answersOf server start calls c = [] := by
  have history : (Serial.of c (Serial.history server.serve start calls)).map Prod.fst =
      Serial.of c calls := Serial.of_history c
  rw [unasked, List.map_eq_nil_iff] at history
  rw [answersOf, history, List.map_nil]

theorem Shares.concat_ne {calls : List (Nat × HttpRequest)} {d : Nat} {session : Session σ}
    (shares : Shares server start calls d session) (other : c ≠ d) (req : HttpRequest) :
    Shares server start (calls ++ [(c, req)]) d session := by
  rw [Shares, answersOf_concat_ne other, Serial.of_append, Serial.of_cons_ne other,
    Serial.of_nil, List.append_nil]
  exact shares

/-- The record of a step that has handed over nothing. -/
theorem record_eq_of_quiet (same : requestsOf t c = requestsOf s.server c)
    (world : ((t.session c).map Session.world).getD s.world = s.world) :
    s.record c t = { s with server := t } := by
  rw [record, world, same, List.drop_length, List.map_nil, List.append_nil]

/-- The sessions have changed, the history has not. -/
theorem Serialized.of_same (serialized : Serialized server start s)
    (kept : ∀ d, t.session d = none → s.server.session d = none)
    (drained : ∀ d session, t.session d = some session → session.Drained)
    (shares : ∀ d session, t.session d = some session → Shares server start s.calls d session) :
    Serialized server start { s with server := t } :=
  ⟨serialized.world, fun d unknown => serialized.known d (kept d unknown), drained, shares⟩

/-- A share after a step of the session that dispatches nothing and sends nothing. -/
theorem Shares.of_log {calls : List (Nat × HttpRequest)} {a b : Session σ}
    (shares : Shares server start calls c a) (log : b.log = a.log)
    (state : b.conn.state = a.conn.state ∨ b.conn.state ≠ .Connected) :
    Shares server start calls c b := by
  have dispatched : b.dispatched = a.dispatched := congrArg (·.2.1) log
  have messages : b.conn.messages = a.conn.messages := congrArg (·.2.2) log
  obtain ⟨requests, answered⟩ := shares
  refine ⟨dispatched.trans requests, ?_⟩
  rcases answered with answered | ⟨shut, refused⟩
  · exact Or.inl (messages.trans answered)
  · refine Or.inr ⟨?_, messages.trans refused⟩
    rcases state with same | shut'
    · exact same ▸ shut
    · exact shut'

/-- One session has changed: what holds of it, and held of the others, holds of all. -/
theorem forall_session {P : Nat → Session σ → Prop} {session : Session σ}
    (found : t.session c = some session) (others : ∀ d, d ≠ c → t.session d = s.server.session d)
    (here : P c session) (elsewhere : ∀ d a, d ≠ c → s.server.session d = some a → P d a) (d : Nat)
    (a : Session σ) (foundD : t.session d = some a) : P d a := by
  by_cases same : d = c
  · subst same
    rw [found] at foundD
    cases foundD
    exact here
  · exact elsewhere d a same (others d same ▸ foundD)

theorem session_unknown {session : Session σ} (found : t.session c = some session)
    (others : ∀ d, d ≠ c → t.session d = s.server.session d) {d : Nat}
    (unknown : t.session d = none) : d ≠ c ∧ s.server.session d = none := by
  have other : d ≠ c := by
    rintro rfl
    rw [found] at unknown
    cases unknown
  exact ⟨other, others d other ▸ unknown⟩

/-- A turn that hands over nothing leaves the history. -/
theorem serialized_quiet (serialized : Serialized server start s) {session : Session σ}
    (found : t.session c = some session) (others : ∀ d, d ≠ c → t.session d = s.server.session d)
    (drained : session.Drained) (same : requestsOf t c = requestsOf s.server c)
    (kept : session.world = s.world) (shares : Shares server start s.calls c session) :
    Serialized server start (s.record c t) := by
  rw [record_eq_of_quiet same (by rw [found]; exact kept)]
  refine serialized.of_same (fun d unknown => (session_unknown found others unknown).2) ?_ ?_
  · exact forall_session found others drained fun d a _ => serialized.drained d a
  · exact forall_session found others shares fun d a _ => serialized.shares d a

/-- A turn that hands over a request appends it. -/
theorem serialized_call (serialized : Serialized server start s) {k session : Session σ}
    (found : s.server.session c = some k) (found' : t.session c = some session)
    (others : ∀ d, d ≠ c → t.session d = s.server.session d) (drained : session.Drained)
    {req : HttpRequest} (dispatched : session.dispatched = k.dispatched ++ [req])
    (next : session.world = (server.serve s.world req).1)
    (messages : session.conn.messages = answersOf server start s.calls c ++
      [(server.serve s.world req).2.message]) :
    Serialized server start (s.record c t) := by
  have record : s.record c t = ⟨t, (server.serve s.world req).1, s.calls ++ [(c, req)]⟩ := by
    simp only [SharedServer.record, requestsOf, found, found', Option.map_some, Option.getD_some,
      next, dispatched, List.drop_left, List.map_cons, List.map_nil]
  rw [record]
  refine ⟨?_, ?_, ?_, ?_⟩
  · rw [Serial.outcome_concat, serialized.world]
  · intro d unknown
    obtain ⟨other, unknown'⟩ := session_unknown found' others unknown
    rw [Serial.of_append, Serial.of_cons_ne other.symm, Serial.of_nil, List.append_nil]
    exact serialized.known d unknown'
  · exact forall_session found' others drained fun d a _ => serialized.drained d a
  · have shares : Shares server start (s.calls ++ [(c, req)]) c session := by
      refine ⟨?_, Or.inl ?_⟩
      · rw [dispatched, (serialized.shares c k found).1, Serial.of_append, Serial.of_cons_self,
          Serial.of_nil]
      · rw [messages, answersOf_concat, ← serialized.world]
    exact forall_session found' others shares
      fun d a other foundD => (serialized.shares d a foundD).concat_ne other.symm req

/-- **One turn in the history**: a turn of a connection that hands over nothing leaves the
history, and one that hands over a request appends it. -/
theorem turn_serialized (serialized : Serialized server start s) {k session : Session σ}
    (found : s.server.session c = some k) (found' : t.session c = some session)
    (others : ∀ d, d ≠ c → t.session d = s.server.session d)
    (turn : Turn server { k with world := s.world } session) (drained : session.Drained) :
    Serialized server start (s.record c t) := by
  have share := serialized.shares c k found
  have answered (opened : k.conn.state = .Connected) :
      k.conn.messages = answersOf server start s.calls c :=
    share.2.resolve_right fun refused => refused.1 opened
  have quiet (same : session.dispatched = k.dispatched) (kept : session.world = s.world)
      (shares : Shares server start s.calls c session) : Serialized server start (s.record c t) := by
    refine serialized_quiet serialized found' others drained ?_ kept shares
    rw [requestsOf, requestsOf, found, found', Option.map_some, Option.map_some, same]
  cases turn with
  | rests state context log kept =>
      exact quiet (congrArg (·.2.1) log) kept (share.of_log log (Or.inl state))
  | hangsUp shut log kept =>
      exact quiet (congrArg (·.2.1) log) kept (share.of_log log (Or.inr shut))
  | waits opened parsed unfinished state log kept =>
      have dispatched : session.dispatched = k.dispatched := congrArg (·.2.1) log
      have messages : session.conn.messages = k.conn.messages := congrArg (·.2.2) log
      exact quiet dispatched kept
        ⟨dispatched.trans share.1, Or.inl (messages.trans (answered opened))⟩
  | refuses opened parsed state log kept =>
      have dispatched : session.dispatched = k.dispatched := congrArg (·.2.1) log
      have messages : session.conn.messages = k.conn.messages ++ [HttpServer.badRequest] :=
        congrArg (·.2.2) log
      refine quiet dispatched kept ⟨dispatched.trans share.1, Or.inr ⟨?_, ?_⟩⟩
      · rw [state]
        decide
      · rw [messages, answered opened]
  | @answers input context opened parsed complete reset state log next =>
      have messages : session.conn.messages = k.conn.messages ++
          [(server.serve s.world context.request).2.message] := congrArg (·.2.2) log
      rw [answered opened] at messages
      exact serialized_call serialized found found' others drained (congrArg (·.2.1) log) next messages

end Sharing

/-! ## Runs -/

section Runs

variable {σ L : Type} [DecidableEq L] [Fintype L] {server : HttpServer σ} {start : σ} {main : L}
  {loops : List L} {s t : SharedServer σ L}

/-- What holds in every state: the server is in order, and answers as one object. -/
structure Sound (server : HttpServer σ) (start : σ) (main : L) (s : SharedServer σ L) : Prop where
  invariant : TcpServer.Invariant main s.server
  awaits : TcpServer.Awaits (fun _ => True) s.server
  serialized : Serialized server start s

/-- An event makes one turn of its connection. -/
theorem event_serialized (sound : Sound server start main s) {l : L} {inputs : Inputs σ} {c : Nat}
    {t : TcpServer σ L} (handling : s.handled l = some c)
    (stepped : s.server.step server main loops (.event l { inputs with world := s.world }) =
      some (.ok t)) : Serialized server start (s.record c t) := by
  cases TcpServer.steps_of_step stepped with
  | @event _ _ c' events k session rest phase found held handled =>
      have same : c' = c := by
        rw [SharedServer.handled, phase] at handling
        exact Option.some.inj handling
      subst same
      obtain ⟨others, here⟩ := TcpServer.event_session sound.invariant phase found handled
      by_cases fresh : k.stage = .fresh
      · -- nothing is known of the connection yet, and nothing comes of the event
        have before : s.server.session c' = none := by
          rw [TcpServer.session_of_found found, k.begun_of_fresh fresh]
        rw [if_pos fresh] at here
        have all : (s.server.settle l c' k session rest).session = s.server.session := by
          funext d
          by_cases same : d = c'
          · rw [same, here, before]
          · exact others d same
        rw [record_eq_of_quiet (by rw [requestsOf, requestsOf, here, before]) (by rw [here]; rfl)]
        apply sound.serialized.of_same
        · exact fun d unknown => all ▸ unknown
        · exact fun d a foundD => sound.serialized.drained d a (all ▸ foundD)
        · exact fun d a foundD => sound.serialized.shares d a (all ▸ foundD)
      · have before : s.server.session c' = some k.session := by
          rw [TcpServer.session_of_found found, k.begun_of_stage fresh]
        rw [if_neg fresh] at here
        have drained := sound.serialized.drained c' k.session before
        have turn := handleEvent_turn (s := { k.session with world := s.world })
          ⟨drained.valid, drained.empty⟩ handled
        exact turn_serialized sound.serialized before here others turn.1 turn.2

/-- A step of a session that is no event hands over nothing and sends nothing. -/
theorem quiet_step {a b : Session σ} {action : SessionAction σ}
    (noEvent : action.Answers fun _ => False) (stepped : sessionStep server a action = .ok b) :
    b.log = a.log ∧ (b.conn.state = a.conn.state ∨ b.conn.state ≠ .Connected) := by
  cases action with
  | event events inputs => exact noEvent.elim
  | activeClose now =>
      cases stepped
      unfold HttpServer.handleActiveClose
      split_ifs
      · simp [Session.log]
      · exact ⟨rfl, Or.inl rfl⟩
  | connectionDestructor =>
      cases stepped
      exact ⟨rfl, Or.inl rfl⟩

/-- Whatever else the loops do hands over nothing. -/
theorem other_serialized (sound : Sound server start main s) {action : ServerAction σ L}
    {t : TcpServer σ L} (noEvent : ∀ l inputs, action ≠ .event l inputs)
    (stepped : s.server.step server main loops action = some (.ok t)) :
    Serialized server start { s with server := t } := by
  have answers : action.Answers (fun _ => False) (fun _ => True) := by
    cases action with
    | event l inputs => exact absurd rfl (noEvent l inputs)
    | _ => trivial
  have touching := TcpServer.step_touching sound.invariant sound.awaits answers stepped
  have each (d : Nat) (a : Session σ) (found : t.session d = some a) :
      a.Drained ∧ Shares server start s.calls d a := by
    have touched := touching.touches d
    rw [found] at touched
    cases before : s.server.session d with
    | none =>
        rw [before] at touched
        cases touched with
        | begins new =>
            have unasked := sound.serialized.known d before
            refine ⟨drained_of_established new, ?_⟩
            obtain ⟨state, completeHeaders, world, -, rfl⟩ := new
            exact ⟨unasked.symm, Or.inl (answersOf_of_none unasked).symm⟩
    | some b =>
        have drained := sound.serialized.drained d b before
        have shares := sound.serialized.shares d b before
        rw [before] at touched
        cases touched with
        | stays => exact ⟨drained, shares⟩
        | steps allowed stepped =>
            obtain ⟨-, -, drained'⟩ := sessionStep_turn drained stepped
            obtain ⟨log, state⟩ := quiet_step allowed stepped
            exact ⟨drained', shares.of_log log state⟩
  refine sound.serialized.of_same ?_ (fun d a found => (each d a found).1)
    fun d a found => (each d a found).2
  intro d unknown
  have touched := touching.touches d
  rw [unknown] at touched
  cases before : s.server.session d with
  | none => rfl
  | some b =>
      rw [before] at touched
      cases touched

/-- **Step lemma**: the server goes on answering as one object. -/
theorem step_sound (sound : Sound server start main s) {action : ServerAction σ L}
    (stepped : s.step server main loops action = some (.ok t)) : Sound server start main t := by
  have keeps {action : ServerAction σ L} {u : TcpServer σ L}
      (stepped : s.server.step server main loops action = some (.ok u)) :
      TcpServer.Invariant main u ∧ TcpServer.Awaits (fun _ => True) u := by
    have answers : action.Answers (fun _ => True) (fun _ => True) := by
      cases action <;> trivial
    exact ⟨(TcpServer.step_advances sound.invariant stepped).invariant,
      (TcpServer.step_touching sound.invariant sound.awaits answers stepped).awaits⟩
  cases steps_of_step stepped with
  | event handling went =>
      exact ⟨(keeps went).1, (keeps went).2, event_serialized sound handling went⟩
  | other noEvent went =>
      exact ⟨(keeps went).1, (keeps went).2, other_serialized sound noEvent went⟩

theorem sound_start (server : HttpServer σ) (start : σ) (main : L) :
    Sound server start main { world := start } := by
  have empty : Reaches (TcpServer.step server main []) {} {} := .refl _
  refine ⟨TcpServer.reaches_invariant empty, ?_, ?_⟩
  · rintro c k ⟨⟩
  · refine ⟨rfl, fun _ _ => rfl, ?_, ?_⟩
    · rintro c session ⟨⟩
    · rintro c session ⟨⟩

theorem serialized_of_reaches
    (reaches : Reaches (step server main loops) { world := start } s) : Serialized server start s :=
  (reaches.invariant (fun _ _ _ sound stepped => step_sound sound stepped)
    (sound_start server start main)).serialized

/-- **One order for all connections**, where no two calls of `on_request_` overlap: the calls
of a run have one order in which the state behind `on_request_` and all answers are those of
calls made one after another, and each connection has asked its share of the calls and been
sent its share of the answers, with at most a refusal after them. -/
theorem one_order (reaches : Reaches (step server main loops) { world := start } s) :
    s.world = Serial.outcome server.serve start s.calls ∧
      (∀ c, s.server.session c = none → Serial.of c s.calls = []) ∧
      ∀ c session, s.server.session c = some session → Shares server start s.calls c session := by
  have serialized := serialized_of_reaches reaches
  exact ⟨serialized.world, serialized.known, serialized.shares⟩

/-- A run with the shared state is a run of the server with the states that `on_request_` met. -/
theorem performed_server {good : Inputs σ → Prop} {memory : Bool → Prop}
    (anyWorld : ∀ inputs world, good inputs → good { inputs with world := world })
    {s t : SharedServer σ L} {actions : List (ServerAction σ L)}
    (performed : perform (step server main loops) s actions = some t)
    (answers : ∀ action ∈ actions, action.Answers good memory) :
    ∃ actions', perform (TcpServer.step server main loops) s.server actions' = some t.server ∧
      ∀ action ∈ actions', action.Answers good memory := by
  induction actions generalizing s with
  | nil =>
      cases performed
      exact ⟨[], rfl, nofun⟩
  | cons action actions ih =>
      obtain ⟨u, stepped, performed⟩ := perform_cons performed
      obtain ⟨answers, later⟩ := List.forall_mem_cons.mp answers
      obtain ⟨actions', performed', answers'⟩ := ih performed later
      obtain ⟨action', went, allowed⟩ : ∃ action',
          s.server.step server main loops action' = some (.ok u.server) ∧
            action'.Answers good memory := by
        cases steps_of_step stepped with
        | @event l inputs c t handling went =>
            exact ⟨.event l { inputs with world := s.world }, went, anyWorld inputs s.world answers⟩
        | other noEvent went => exact ⟨action, went, answers⟩
      refine ⟨action' :: actions', ?_, List.forall_mem_cons.mpr ⟨allowed, answers'⟩⟩
      rw [perform, went]
      exact performed'

end Runs

/-- Two connections on a single loop, and an event of each. -/
def twoPeersRun {σ : Type} (world : σ) (first second : Bytes) : List (ServerAction σ Unit) :=
  let inputs (input : Bytes) : Inputs σ :=
    ⟨world, [.data input, .failed .eagain], 0, .accepts 500, .accepts 0⟩
  [.poll () [.channel .accept, .channel .accept], .accept 7 .Invalid false world, .establish,
    .accept 8 .Invalid false world, .establish] ++ List.replicate 4 (.proceed ()) ++
    [.poll () [.channel (.connection 0 EPOLLIN), .channel (.connection 1 EPOLLIN)],
      .event () (inputs first), .event () (inputs second)]

/-- A callback that counts its calls, and puts their number into the body. -/
def countingServer : HttpServer Nat where
  onRequest_ count _ response := (count + 1, response.setBody (toDecimal count))
  timeout := 0

/-- The second connection is told the second number. -/
theorem one_order_counting :
    ∃ s session, Reaches (step countingServer () []) { world := 0 } s ∧ s.world = 2 ∧
      s.world = Serial.outcome countingServer.serve 0 s.calls ∧
      s.server.session 1 = some session ∧ Shares countingServer 0 s.calls 1 session := by
  let request := ascii "GET / HTTP/1.1\r\n\r\n"
  have performed : ((perform (step countingServer () []) { world := 0 }
      (twoPeersRun 0 request request)).any fun s =>
        s.world = 2 ∧ (s.server.session 1).isSome) = true := by
    decide +kernel
  obtain ⟨s, performed, known⟩ := (Option.any_eq_true _ _).mp performed
  obtain ⟨two, isSome⟩ := of_decide_eq_true known
  obtain ⟨session, found⟩ := Option.isSome_iff_exists.mp isSome
  have reaches := reaches_of_perform performed
  obtain ⟨world, -, shares⟩ := one_order reaches
  exact ⟨s, session, reaches, two, world, found, shares 1 session found⟩

end SharedServer

end CppFileServer.Http
