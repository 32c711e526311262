/-
# Tcp.Sessions -- every connection of the server is a session of its own

The loops, the map and the other connections decide when a connection is called, and what
the state behind `on_request_` is by then; they never reach into it.  Once established, a
connection is a `Session` that `HandleEvent`, the idle timer and `ConnectionDestructor`
act on one after another, and the last of them once and at the end (`session_lived`): so what
the runs of one session keep holds of every connection in every interleaving.
-/
import CppFileServer.Tcp.Lifecycle
import CppFileServer.Tcp.SendPath
import CppFileServer.Theory.Parts

namespace CppFileServer.Tcp

set_option autoImplicit false

open CppFileServer.Cpp CppFileServer.Http CppFileServer.Theory

/-- What the loops do to an established connection. -/
inductive SessionAction (σ : Type)
  | event (events : BitVec 32) (inputs : Inputs σ)
  | activeClose (now : Int)
  | connectionDestructor

section Session

variable {σ L : Type}

def sessionStep (server : HttpServer σ) (s : Session σ) : SessionAction σ → Result (Session σ)
  | .event events inputs => handleEvent server { s with world := inputs.world } events inputs
  | .activeClose now => .ok (server.handleActiveClose s now)
  | .connectionDestructor =>
      .ok { s with conn := { s.conn with channel := s.conn.channel.delete } }

/-- A session that has just been constructed, on memory that was as `memory` says. -/
def Constructed (memory : Bool → Prop) (s : Session σ) : Prop :=
  ∃ state completeHeaders world, memory completeHeaders ∧
    s = { conn := TcpConnection.construct state completeHeaders, world := world }

/-- A session that has just been established. -/
def Established (memory : Bool → Prop) (s : Session σ) : Prop :=
  ∃ state completeHeaders world, memory completeHeaders ∧
    s = { conn := TcpConnection.established state completeHeaders, world := world }

/-- The system calls of the action answer as `good` says. -/
def SessionAction.Answers (good : Inputs σ → Prop) : SessionAction σ → Prop
  | .event _ inputs => good inputs
  | _ => True

/-- The same of an action of the server, which constructs connections on some memory. -/
def ServerAction.Answers (good : Inputs σ → Prop) (memory : Bool → Prop) :
    ServerAction σ L → Prop
  | .event _ inputs => good inputs
  | .accept _ _ completeHeaders _ => memory completeHeaders
  | _ => True

/-- The session, once it is established. -/
def Connection.begun (k : Connection σ L) : Option (Session σ) :=
  if k.stage = .fresh then none else some k.session

/-- The connection is established, and `ConnectionDestructor` has not run. -/
structure Connection.Live (k : Connection σ L) : Prop where
  begun : k.stage ≠ .fresh
  present : k.stage ≠ .destructed

theorem Connection.begun_of_fresh {k : Connection σ L} (fresh : k.stage = .fresh) :
    k.begun = none := if_pos fresh

theorem Connection.begun_of_stage {k : Connection σ L} (stage : k.stage ≠ .fresh) :
    k.begun = some k.session := if_neg stage

end Session

namespace TcpServer

variable {σ L : Type}

/-- The established session of a connection. -/
def session (s : TcpServer σ L) (c : Nat) : Option (Session σ) :=
  (s.connection c).bind Connection.begun

theorem session_of_found {s : TcpServer σ L} {c : Nat} {k : Connection σ L}
    (found : s.connection c = some k) : s.session c = k.begun := by
  rw [session, found, Option.bind_some]

/-- What is not established yet is as it was constructed. -/
def Awaits (memory : Bool → Prop) (s : TcpServer σ L) : Prop :=
  ∀ c k, s.connection c = some k → k.stage = .fresh → Constructed memory k.session

/-! ## One step -/

/-- What a step does to the established sessions. -/
structure Touching (server : HttpServer σ) (good : Inputs σ → Prop) (memory : Bool → Prop)
    (s t : TcpServer σ L) : Prop where
  awaits : Awaits memory t
  touches : ∀ c, Touches (sessionStep server) (Established memory) (SessionAction.Answers good)
    (s.session c) (t.session c)

section Frame

variable {server : HttpServer σ} {good : Inputs σ → Prop} {memory : Bool → Prop}
  {s t : TcpServer σ L}

theorem touching_of_same (awaits : Awaits memory s) (same : t.connection = s.connection) :
    Touching server good memory s t := by
  refine ⟨?_, ?_⟩
  · intro c k found
    exact awaits c k (same ▸ found)
  · intro c
    rw [session, session, same]
    exact .stays _

/-- One connection is changed, or comes into being. -/
theorem touching_of_update (awaits : Awaits memory s) {c : Nat} {k' : Connection σ L}
    (changed : t.connection = Function.update s.connection c (some k'))
    (fresh : k'.stage = .fresh → Constructed memory k'.session)
    (touches : Touches (sessionStep server) (Established memory) (SessionAction.Answers good)
      (s.session c) k'.begun) : Touching server good memory s t := by
  have self : t.connection c = some k' := by rw [changed, Function.update_self]
  have others {d : Nat} (other : d ≠ c) : t.connection d = s.connection d := by
    rw [changed, Function.update_of_ne other]
  refine ⟨?_, ?_⟩
  · intro d k found
    by_cases here : d = c
    · rw [here, self, Option.some.injEq] at found
      exact found ▸ fresh
    · exact awaits d k (others here ▸ found)
  · intro d
    by_cases here : d = c
    · rw [here, session_of_found self]
      exact touches
    · rw [session, session, others here]
      exact .stays _

/-- A connection moves on to another stage, its session left alone. -/
theorem touching_of_stage (awaits : Awaits memory s) {c : Nat} {k : Connection σ L}
    {stage : Stage} (found : s.connection c = some k) (begun : k.stage ≠ .fresh)
    (later : stage ≠ .fresh)
    (changed : t.connection = Function.update s.connection c (some { k with stage := stage })) :
    Touching server good memory s t := by
  apply touching_of_update awaits changed fun fresh => absurd fresh later
  rw [session_of_found found, k.begun_of_stage begun, Connection.begun_of_stage later]
  exact .stays _

/-- A connection takes a step of its session. -/
theorem touching_of_step (awaits : Awaits memory s) {c : Nat} {k k' : Connection σ L}
    (found : s.connection c = some k)
    (changed : t.connection = Function.update s.connection c (some k'))
    (begun : k.stage ≠ .fresh) (later : k'.stage ≠ .fresh) (action : SessionAction σ)
    (answers : action.Answers good) (stepped : sessionStep server k.session action = .ok k'.session) :
    Touching server good memory s t := by
  apply touching_of_update awaits changed fun fresh => absurd fresh later
  rw [session_of_found found, k.begun_of_stage begun, k'.begun_of_stage later]
  exact .steps answers stepped

end Frame

section Steps

variable [DecidableEq L] {main : L} {s t : TcpServer σ L}

theorem handleCloseInLoop_connection {c : Nat} (closed : s.handleCloseInLoop main c = .ok t) :
    ∃ k, s.connection c = some k ∧
      t.connection = Function.update s.connection c (some { k with stage := .erased }) := by
  unfold handleCloseInLoop at closed
  split at closed
  · cases closed
  · rename_i k found
    split_ifs at closed
    exact ⟨k, found, (queueOneFunc_spec closed).1⟩

theorem handleClose_connection {l : L} {c : Nat} (closed : s.handleClose main l c = .ok t) :
    ∃ k stage, s.connection c = some k ∧ (stage = .erased ∨ stage = .requested) ∧
      t.connection = Function.update s.connection c (some { k with stage := stage }) := by
  unfold handleClose at closed
  split at closed
  · cases closed
  · rename_i k found
    split_ifs at closed
    · obtain ⟨k', found', changed⟩ := handleCloseInLoop_connection closed
      exact ⟨k', .erased, found', Or.inl rfl, changed⟩
    · exact ⟨k, .requested, found, Or.inr rfl, (queueOneFunc_spec closed).1⟩

/-- A callback leaves a connection established, or not established, and destructed, or not. -/
theorem settle_connection (s : TcpServer σ L) (l : L) (c : Nat) (k : Connection σ L)
    (session : Session σ) (rest : List (Active Ready))
    (quiet : k.stage = .fresh ∨ k.stage = .destructed →
      session.conn.closeRequests ≤ k.session.conn.closeRequests) :
    ∃ stage, (stage = .fresh ↔ k.stage = .fresh) ∧ (stage = .destructed ↔ k.stage = .destructed) ∧
      (s.settle l c k session rest).connection =
        Function.update s.connection c (some { k with session := session, stage := stage }) := by
  unfold settle
  split_ifs with requested
  · have living : ¬ (k.stage = .fresh ∨ k.stage = .destructed) := fun ended =>
      absurd (quiet ended) (not_le.mpr requested)
    obtain ⟨begun, present⟩ := not_or.mp living
    exact ⟨.closing, by simp [begun], by simp [present], rfl⟩
  · exact ⟨k.stage, Iff.rfl, Iff.rfl, rfl⟩

omit [DecidableEq L] in
/-- A loop has work of a live connection, or the rest of `HandleNewConnection`. -/
theorem live_of_work (invariant : Invariant main s) {l : L} {w : Work}
    (inside : w ∈ (s.loop l).work) (later : ∀ c, w ≠ .establishing c) {k : Connection σ L}
    (found : s.connection w.conn = some k) : k.Live := by
  obtain ⟨k', found', token⟩ := (invariant.work l w).mp inside
  rw [found] at found'
  cases found'
  constructor
  · intro fresh
    simp only [Connection.token, fresh, Option.some.injEq, Prod.mk.injEq] at token
    exact later _ token.2.symm
  · intro gone
    simp only [Connection.token, gone, reduceCtorEq] at token

variable {server : HttpServer σ} {loops : List L} {good : Inputs σ → Prop}
  {memory : Bool → Prop}

omit [DecidableEq L] in
/-- Before a connection is established, epoll reports nothing that leads to a callback. -/
theorem event_quiet (invariant : Invariant main s) {l : L} {inputs : Inputs σ} {c : Nat}
    {events : BitVec 32} {k : Connection σ L} {session : Session σ} {rest : List (Active Ready)}
    (handling : (s.loop l).phase = .handling (.channel (.connection c events) :: rest))
    (found : s.connection c = some k)
    (handled : handleEvent server { k.session with world := inputs.world } events inputs =
      .ok session) :
    k.stage ≠ .destructed ∧
      (k.stage = .fresh → session = { k.session with world := inputs.world }) := by
  obtain ⟨-, -, ready⟩ := EventLoop.handling_eq handling
  have inside : .channel (.connection c events) ∈ (s.loop l).ready := by simp [ready]
  obtain ⟨k₀, found₀, reportable⟩ := invariant.reported l c events inside
  rw [found] at found₀
  cases found₀
  exact ⟨reportable.present, fun fresh => handleEvent_quiet (reportable.quiet fresh) handled⟩

/-- What an event makes of its connection. -/
theorem event_connection (invariant : Invariant main s) {l : L} {inputs : Inputs σ} {c : Nat}
    {events : BitVec 32} {k : Connection σ L} {session : Session σ} {rest : List (Active Ready)}
    (handling : (s.loop l).phase = .handling (.channel (.connection c events) :: rest))
    (found : s.connection c = some k)
    (handled : handleEvent server { k.session with world := inputs.world } events inputs =
      .ok session) :
    ∃ stage, (stage = .fresh ↔ k.stage = .fresh) ∧ (stage = .destructed ↔ k.stage = .destructed) ∧
      (s.settle l c k session rest).connection =
        Function.update s.connection c (some { k with session := session, stage := stage }) := by
  obtain ⟨present, quiet⟩ := event_quiet invariant handling found handled
  refine settle_connection s l c k session rest ?_
  rintro (fresh | gone)
  · rw [quiet fresh]
  · exact absurd gone present

/-- What the idle timer makes of its connection. -/
theorem timer_connection (invariant : Invariant main s) {l : L} {c : Nat} {now : Int} {again : Bool}
    {k : Connection σ L} (rest : List (Active Ready)) (found : s.connection c = some k)
    (set : k.timer = true) :
    k.stage ≠ .fresh ∧ ∃ stage, stage ≠ .fresh ∧ (stage = .destructed ↔ k.stage = .destructed) ∧
      (s.settle l c { k with timer := again } (server.handleActiveClose k.session now)
          rest).connection =
        Function.update s.connection c (some { k with
          session := server.handleActiveClose k.session now, timer := again, stage := stage }) := by
  have healthy := invariant.healthy c k found
  have begun : k.stage ≠ .fresh := by
    intro fresh
    simp only [Connection.Healthy, fresh, set] at healthy
    exact absurd healthy.2.1 (by decide)
  obtain ⟨stage, same, gone, changed⟩ := settle_connection s l c { k with timer := again }
    (server.handleActiveClose k.session now) rest <| by
      rintro (fresh | gone)
      · exact absurd fresh begun
      · simp only [Connection.Healthy, show k.stage = .destructed from gone] at healthy
        unfold HttpServer.handleActiveClose
        split_ifs
        · simp only [TcpConnection.handleClose_of_closed healthy.1.state, le_refl]
        · exact le_refl _
  exact ⟨begun, stage, fun new => begun (same.mp new), gone, changed⟩

/-- A callback begins no session and ends none. -/
theorem event_session (invariant : Invariant main s) {l : L} {inputs : Inputs σ} {c : Nat}
    {events : BitVec 32} {k : Connection σ L} {session : Session σ} {rest : List (Active Ready)}
    (handling : (s.loop l).phase = .handling (.channel (.connection c events) :: rest))
    (found : s.connection c = some k)
    (handled : handleEvent server { k.session with world := inputs.world } events inputs =
      .ok session) :
    (∀ d, d ≠ c → (s.settle l c k session rest).session d = s.session d) ∧
      (s.settle l c k session rest).session c =
        if k.stage = .fresh then none else some session := by
  obtain ⟨stage, same, -, changed⟩ := event_connection invariant handling found handled
  constructor
  · intro d other
    rw [TcpServer.session, changed, Function.update_of_ne other, TcpServer.session]
  · rw [session_of_found (changed ▸ Function.update_self c _ _), Connection.begun]
    simp only [same]

theorem event_touching (invariant : Invariant main s) (awaits : Awaits memory s) {l : L}
    {inputs : Inputs σ} (answers : good inputs) {c : Nat} {events : BitVec 32}
    {k : Connection σ L} {session : Session σ} {rest : List (Active Ready)}
    (handling : (s.loop l).phase = .handling (.channel (.connection c events) :: rest))
    (found : s.connection c = some k)
    (handled : handleEvent server { k.session with world := inputs.world } events inputs =
      .ok session) : Touching server good memory s (s.settle l c k session rest) := by
  obtain ⟨stage, same, -, changed⟩ := event_connection invariant handling found handled
  by_cases fresh : k.stage = .fresh
  · obtain ⟨state, completeHeaders, world, cleared, constructed⟩ := awaits c k found fresh
    have quiet := (event_quiet invariant handling found handled).2 fresh
    apply touching_of_update awaits changed
    · exact fun _ => ⟨state, completeHeaders, inputs.world, cleared, by rw [quiet, constructed]⟩
    · rw [session_of_found found, k.begun_of_fresh fresh,
        Connection.begun_of_fresh (same.mpr fresh)]
      exact .stays none
  · exact touching_of_step awaits found changed fresh (fun new => fresh (same.mp new))
      (.event events inputs) answers handled

theorem timer_touching (invariant : Invariant main s) (awaits : Awaits memory s) {l : L} {c : Nat}
    {now : Int} {again : Bool} {k : Connection σ L} {rest : List (Active Ready)}
    (found : s.connection c = some k) (set : k.timer = true) :
    Touching server good memory s
      (s.settle l c { k with timer := again } (server.handleActiveClose k.session now) rest) := by
  obtain ⟨begun, stage, later, -, changed⟩ := timer_connection invariant rest found set
  exact touching_of_step awaits found changed begun later (.activeClose now) trivial rfl

/-- What a task makes of its connection. -/
theorem task_connection (server : HttpServer σ) (invariant : Invariant main s) {l : L} {f : Task}
    {done rest : List Task} {loop : EventLoop Ready Task}
    (running : (s.loop l).phase = .running done (f :: rest))
    (ran : (s.setLoop l loop).runTask main f = .ok t) :
    ∃ k k', s.connection f.conn = some k ∧ k.Live ∧
      t.connection = Function.update s.connection f.conn (some k') ∧
      (k' = { k with stage := .erased } ∨ k'.stage = .destructed ∧
        sessionStep server k.session .connectionDestructor = .ok k'.session) := by
  obtain ⟨work, -, -⟩ := EventLoop.running_eq running
  have inside : .task f ∈ (s.loop l).work := by simp [work]
  have live {k : Connection σ L} (found : s.connection f.conn = some k) : k.Live :=
    live_of_work invariant inside (fun _ impossible => by cases impossible) found
  cases f with
  | handleCloseInLoop c =>
      obtain ⟨k, found, changed⟩ := handleCloseInLoop_connection ran
      exact ⟨k, _, found, live found, changed, Or.inl rfl⟩
  | connectionDestructor c =>
      rw [runTask, connectionDestructor] at ran
      split at ran
      · cases ran
      · rename_i k found
        cases ran
        exact ⟨k, _, found, live found, rfl, Or.inr ⟨rfl, rfl⟩⟩

/-- What the call of `on_close_` makes of its connection. -/
theorem close_connection (invariant : Invariant main s) {l : L} {c : Nat}
    {rest : List (Active Ready)}
    (handling : (s.loop l).phase = .handling (.channel (.closing c) :: rest))
    (closed : (s.setLoop l { s.loop l with phase := .handling rest }).handleClose main l c = .ok t) :
    ∃ k stage, s.connection c = some k ∧ k.Live ∧ stage ≠ .fresh ∧
      t.connection = Function.update s.connection c (some { k with stage := stage }) := by
  obtain ⟨k, stage, found, passed, changed⟩ := handleClose_connection closed
  obtain ⟨work, -, -⟩ := EventLoop.handling_eq handling
  have inside : .closing c ∈ (s.loop l).work := by simp [work, Active.work]
  refine ⟨k, stage, found,
    live_of_work invariant inside (fun _ impossible => by cases impossible) found, ?_, changed⟩
  rcases passed with rfl | rfl <;> simp

omit [DecidableEq L] in
/-- A connection is established once. -/
theorem fresh_of_establishing (invariant : Invariant main s) {c : Nat} {k : Connection σ L}
    {rest : List (Active Ready)}
    (handling : (s.loop main).phase = .handling (.channel (.establishing c) :: rest))
    (found : s.connection c = some k) : k.stage = .fresh := by
  obtain ⟨work, -, -⟩ := EventLoop.handling_eq handling
  have inside : .establishing c ∈ (s.loop main).work := by simp [work, Active.work]
  obtain ⟨k', found', token⟩ := (invariant.work main _).mp inside
  rw [show (Work.establishing c).conn = c from rfl, found] at found'
  cases found'
  exact Connection.token_establishing token

theorem task_touching (invariant : Invariant main s) (awaits : Awaits memory s) {l : L} {f : Task}
    {done rest : List Task} {loop : EventLoop Ready Task}
    (running : (s.loop l).phase = .running done (f :: rest))
    (ran : (s.setLoop l loop).runTask main f = .ok t) : Touching server good memory s t := by
  obtain ⟨k, k', found, live, changed, ended⟩ := task_connection server invariant running ran
  rcases ended with rfl | ⟨gone, stepped⟩
  · exact touching_of_stage awaits found live.begun (by decide) changed
  · exact touching_of_step awaits found changed live.begun (by rw [gone]; decide)
      .connectionDestructor trivial stepped

theorem close_touching (invariant : Invariant main s) (awaits : Awaits memory s) {l : L} {c : Nat}
    {rest : List (Active Ready)}
    (handling : (s.loop l).phase = .handling (.channel (.closing c) :: rest))
    (closed : (s.setLoop l { s.loop l with phase := .handling rest }).handleClose main l c = .ok t) :
    Touching server good memory s t := by
  obtain ⟨k, stage, found, live, later, changed⟩ := close_connection invariant handling closed
  exact touching_of_stage awaits found live.begun later changed

theorem establish_touching (invariant : Invariant main s) (awaits : Awaits memory s) {c : Nat}
    {k : Connection σ L} {rest : List (Active Ready)} {loop : EventLoop Ready Task}
    (handling : (s.loop main).phase = .handling (.channel (.establishing c) :: rest))
    (found : s.connection c = some k) :
    Touching server good memory s ((s.establish server c k).setLoop main loop) := by
  have fresh := fresh_of_establishing invariant handling found
  obtain ⟨state, completeHeaders, world, cleared, same⟩ := awaits c k found fresh
  apply touching_of_update awaits rfl
  · intro impossible
    cases impossible
  · rw [session_of_found found, k.begun_of_fresh fresh, Connection.begun_of_stage (by simp)]
    exact .begins ⟨state, completeHeaders, world, cleared,
      by simp only [same, TcpConnection.established]⟩

theorem accept_touching (invariant : Invariant main s) (awaits : Awaits memory s) {fd : Nat}
    {state : ConnectionState} {completeHeaders : Bool} {world : σ} {loop : EventLoop Ready Task}
    (cleared : memory completeHeaders) :
    Touching server good memory s
      ((s.newConnection main loops fd state completeHeaders world).setLoop main loop) := by
  have unknown : s.session s.created = none := by
    cases known : s.connection s.created with
    | none => rw [session, known, Option.bind_none]
    | some k => exact absurd (invariant.known _ k known) (lt_irrefl _)
  apply touching_of_update awaits rfl
  · exact fun _ => ⟨state, completeHeaders, world, cleared, rfl⟩
  · rw [unknown, Connection.begun_of_fresh rfl]
    exact .stays none

omit [DecidableEq L] in
/-- The timer of a connection that is destroyed is not set anew. -/
theorem expired_touching (awaits : Awaits memory s) {c : Nat} {k : Connection σ L}
    (found : s.connection c = some k) :
    Touching server good memory s (s.setConnection c { k with timer := false }) := by
  refine touching_of_update awaits rfl (awaits c k found) ?_
  rw [session_of_found found]
  exact .stays k.begun

/-- **Step lemma**: a step of the server leaves every session alone, brings one, or takes one
step of it. -/
theorem step_touching [Fintype L] (invariant : Invariant main s) (awaits : Awaits memory s)
    {action : ServerAction σ L} (answers : action.Answers good memory)
    (stepped : s.step server main loops action = some (.ok t)) :
    Touching server good memory s t := by
  cases steps_of_step stepped with
  | poll reported polled => exact touching_of_same awaits rfl
  | accept handling notOpen => exact accept_touching invariant awaits answers
  | establish handling found => exact establish_touching invariant awaits handling found
  | event handling found held handled =>
      exact event_touching invariant awaits answers handling found handled
  | timer handling found held set own => exact timer_touching invariant awaits found set
  | expired found => exact expired_touching awaits found
  | close handling closed => exact close_touching invariant awaits handling closed
  | proceed proceeded noTask noCallback => exact touching_of_same awaits rfl
  | task running proceeded ran => exact task_touching invariant awaits running ran

end Steps

/-! ## Runs -/

section Runs

variable [DecidableEq L] [Fintype L] {server : HttpServer σ} {main : L} {loops : List L}
  {good : Inputs σ → Prop} {memory : Bool → Prop}

/-- Whatever the loops do in whatever order, what has become of a connection is a run of its
own session, from the moment it was established. -/
theorem lived_of_performed {s : TcpServer σ L} {actions : List (ServerAction σ L)}
    (performed : perform (step server main loops) {} actions = some s)
    (answers : ∀ action ∈ actions, action.Answers good memory) {c : Nat} {session : Session σ}
    (found : s.session c = some session) :
    Lived (sessionStep server) (Established memory) (SessionAction.Answers good) session := by
  have empty : Reaches (step server main loops) {} {} := .refl _
  refine parts_run (P := fun s => Invariant main s ∧ Awaits memory s) ?_ performed answers
    ⟨reaches_invariant empty, ?_⟩ (fun _ => rfl) found
  · rintro s action t ⟨invariant, awaits⟩ answers stepped
    have touching := step_touching invariant awaits answers stepped
    exact ⟨⟨(step_advances invariant stepped).invariant, touching.awaits⟩, touching.touches⟩
  · rintro c k ⟨⟩

/-! ## While a connection lives -/

/-- `Q` holds of all live connections. -/
def AllLive (Q : Session σ → Prop) (s : TcpServer σ L) : Prop :=
  ∀ c k, s.connection c = some k → k.Live → Q k.session

omit [DecidableEq L] [Fintype L] in
/-- One connection changes, and what holds of all still does. -/
theorem every_of_update {P : Connection σ L → Prop} {s t : TcpServer σ L}
    (before : ∀ c k, s.connection c = some k → P k) {c : Nat} {k' : Connection σ L}
    (changed : t.connection = Function.update s.connection c (some k')) (here : P k') :
    ∀ c k, t.connection c = some k → P k := by
  intro d k found
  rw [changed] at found
  by_cases same : d = c
  · rw [same, Function.update_self, Option.some.injEq] at found
    exact found ▸ here
  · rw [Function.update_of_ne same] at found
    exact before d k found

/-- **Step lemma**: what a session has when it is established, and events and the idle timer
keep, all live connections keep. -/
theorem step_allLive {Q : Session σ → Prop}
    (begins : ∀ session, Established memory session → Q session)
    (keeps : ∀ session action t, Q session → action ≠ .connectionDestructor →
      action.Answers good → sessionStep server session action = .ok t → Q t)
    {s t : TcpServer σ L} (invariant : Invariant main s) (awaits : Awaits memory s)
    (before : AllLive Q s) {action : ServerAction σ L} (answers : action.Answers good memory)
    (stepped : s.step server main loops action = some (.ok t)) : AllLive Q t := by
  cases steps_of_step stepped with
  | poll reported polled => exact before
  | accept handling notOpen =>
      exact every_of_update before rfl fun live => absurd rfl live.begun
  | @establish c k rest handling found =>
      obtain ⟨state, completeHeaders, world, cleared, same⟩ :=
        awaits c k found (fresh_of_establishing invariant handling found)
      refine every_of_update before rfl fun _ => begins _ ⟨state, completeHeaders, world, cleared, ?_⟩
      simp only [same, TcpConnection.established]
  | @event l inputs c events k session rest handling found held handled =>
      obtain ⟨stage, fresh, gone, changed⟩ := event_connection invariant handling found handled
      refine every_of_update before changed fun live => ?_
      have live' : k.Live := ⟨fun new => live.begun (fresh.mpr new),
        fun old => live.present (gone.mpr old)⟩
      exact keeps k.session (.event events inputs) session (before c k found live')
        (by intro impossible; cases impossible) answers handled
  | @timer l c now k rest handling found held set own =>
      obtain ⟨begun, stage, -, gone, changed⟩ := timer_connection invariant
        (.channel .timers :: rest) found set
      refine every_of_update before changed fun live => ?_
      have live' : k.Live := ⟨begun, fun old => live.present (gone.mpr old)⟩
      exact keeps k.session (.activeClose now) _ (before c k found live')
        (by intro impossible; cases impossible) trivial rfl
  | @expired l c now k found =>
      exact every_of_update before rfl fun live => before c k found ⟨live.begun, live.present⟩
  | close handling closed =>
      obtain ⟨k, stage, found, live, -, changed⟩ := close_connection invariant handling closed
      exact every_of_update before changed fun _ => before _ k found live
  | proceed proceeded noTask noCallback => exact before
  | @task l f done rest loop t running proceeded ran =>
      obtain ⟨k, k', found, live, changed, rfl | ⟨gone, -⟩⟩ :=
        task_connection server invariant running ran
      · exact every_of_update before changed fun _ => before _ k found live
      · exact every_of_update before changed fun live => absurd gone live.present

/-- **Rule for live connections**: what a session has when it is established, and events and
the idle timer keep, every connection of every run has until its `ConnectionDestructor`. -/
theorem live_invariant {Q : Session σ → Prop}
    (begins : ∀ session, Established memory session → Q session)
    (keeps : ∀ session action t, Q session → action ≠ .connectionDestructor →
      action.Answers good → sessionStep server session action = .ok t → Q t)
    {s : TcpServer σ L} {actions : List (ServerAction σ L)}
    (performed : perform (step server main loops) {} actions = some s)
    (answers : ∀ action ∈ actions, action.Answers good memory) : AllLive Q s := by
  have empty : Reaches (step server main loops) {} {} := .refl _
  have all : Invariant main s ∧ Awaits memory s ∧ AllLive Q s := by
    have inside : Throughout (step server main loops) (fun _ action => action ∈ actions) {} actions :=
      throughout_of_forall fun _ _ inside => inside
    refine inside.invariant (P := fun s => Invariant main s ∧ Awaits memory s ∧ AllLive Q s) ?_
      performed ⟨reaches_invariant empty, ?_, ?_⟩
    · rintro s action t ⟨invariant, awaits, before⟩ inside stepped
      have answers := answers action inside
      exact ⟨(step_advances invariant stepped).invariant,
        (step_touching invariant awaits answers stepped).awaits,
        step_allLive begins keeps invariant awaits before answers stepped⟩
    · rintro c k ⟨⟩
    · rintro c k ⟨⟩
  exact all.2.2

/-! ## The life of a connection -/

/-- The session is what events and the idle timer have made of an established one, and at the
end, once, its `ConnectionDestructor`. -/
def LivedOut (server : HttpServer σ) (good : Inputs σ → Prop) (memory : Bool → Prop)
    (k : Connection σ L) : Prop :=
  ∃ session, Lived (sessionStep server) (Established memory)
      (fun action => action ≠ .connectionDestructor ∧ action.Answers good) session ∧
    if k.stage = .destructed then sessionStep server session .connectionDestructor = .ok k.session
    else k.session = session

/-- Every connection that was established has lived so. -/
def AllLivedOut (server : HttpServer σ) (good : Inputs σ → Prop) (memory : Bool → Prop)
    (s : TcpServer σ L) : Prop :=
  ∀ c k, s.connection c = some k → k.stage ≠ .fresh → LivedOut server good memory k

omit [DecidableEq L] [Fintype L] in
/-- The stage moves on, and the session stays. -/
theorem LivedOut.of_session {k k' : Connection σ L} (lived : LivedOut server good memory k)
    (session : k'.session = k.session) (gone : k'.stage = .destructed ↔ k.stage = .destructed) :
    LivedOut server good memory k' := by
  unfold LivedOut at *
  simpa only [session, gone] using lived

omit [DecidableEq L] [Fintype L] in
/-- A live connection takes one more step. -/
theorem LivedOut.next {k k' : Connection σ L} (lived : LivedOut server good memory k)
    (present : k.stage ≠ .destructed) (action : SessionAction σ)
    (noDestructor : action ≠ .connectionDestructor) (answers : action.Answers good)
    (stepped : sessionStep server k.session action = .ok k'.session)
    (present' : k'.stage ≠ .destructed) : LivedOut server good memory k' := by
  obtain ⟨session, lived, same⟩ := lived
  rw [if_neg present] at same
  rw [same] at stepped
  exact ⟨k'.session, lived.next ⟨noDestructor, answers⟩ stepped, by rw [if_neg present']⟩

omit [DecidableEq L] [Fintype L] in
/-- The idle timer does nothing to a connection whose `ConnectionDestructor` has run. -/
theorem handleActiveClose_of_destructed {k : Connection σ L} (healthy : k.Healthy)
    (gone : k.stage = .destructed) (now : Int) :
    server.handleActiveClose k.session now = k.session := by
  simp only [Connection.Healthy, gone] at healthy
  unfold HttpServer.handleActiveClose
  split_ifs
  · rw [TcpConnection.handleClose_of_closed healthy.1.state]
  · rfl

/-- **Step lemma**: connections live on, each by itself. -/
theorem step_allLivedOut {s t : TcpServer σ L} (invariant : Invariant main s)
    (awaits : Awaits memory s) (before : AllLivedOut server good memory s)
    {action : ServerAction σ L} (answers : action.Answers good memory)
    (stepped : s.step server main loops action = some (.ok t)) :
    AllLivedOut server good memory t := by
  cases steps_of_step stepped with
  | poll reported polled => exact before
  | accept handling notOpen => exact every_of_update before rfl fun begun => absurd rfl begun
  | @establish c k rest handling found =>
      obtain ⟨state, completeHeaders, world, cleared, same⟩ :=
        awaits c k found (fresh_of_establishing invariant handling found)
      refine every_of_update before rfl fun _ => ?_
      refine ⟨_, lived_of_born ⟨state, completeHeaders, world, cleared, rfl⟩, ?_⟩
      rw [if_neg (by simp)]
      simp only [same, TcpConnection.established]
  | @event l inputs c events k session rest handling found held handled =>
      obtain ⟨stage, fresh, gone, changed⟩ := event_connection invariant handling found handled
      have present := (event_quiet invariant handling found handled).1
      refine every_of_update before changed fun begun => ?_
      exact (before c k found (mt fresh.mpr begun)).next present
        (.event events inputs) (by intro impossible; cases impossible) answers handled
        (mt gone.mp present)
  | @timer l c now k rest handling found held set own =>
      obtain ⟨begun, stage, -, gone, changed⟩ := timer_connection invariant
        (.channel .timers :: rest) found set
      refine every_of_update before changed fun _ => ?_
      by_cases ended : k.stage = .destructed
      · exact (before c k found begun).of_session
          (handleActiveClose_of_destructed (invariant.healthy c k found) ended now) gone
      · exact (before c k found begun).next ended (.activeClose now)
          (by intro impossible; cases impossible) trivial rfl (mt gone.mp ended)
  | @expired l c now k found =>
      exact every_of_update before rfl fun begun => before c k found begun
  | close handling closed =>
      obtain ⟨k, stage, found, passed, changed⟩ := handleClose_connection closed
      obtain ⟨k₀, -, found₀, live, -, -⟩ := close_connection invariant handling closed
      cases found₀.symm.trans found
      refine every_of_update before changed fun _ => ?_
      refine (before _ k found live.begun).of_session rfl ?_
      rcases passed with rfl | rfl <;> simp [live.present]
  | proceed proceeded noTask noCallback => exact before
  | @task l f done rest loop t running proceeded ran =>
      obtain ⟨k, k', found, live, changed, rfl | ⟨gone, ended⟩⟩ :=
        task_connection server invariant running ran
      · refine every_of_update before changed fun _ => ?_
        exact (before _ k found live.begun).of_session rfl (by simp [live.present])
      · refine every_of_update before changed fun _ => ?_
        obtain ⟨session, lived, same⟩ := before _ k found live.begun
        rw [if_neg live.present] at same
        exact ⟨session, lived, by rw [if_pos gone, ← same, ended]⟩

/-- **Every connection lives its own life**: whatever the loops do in whatever order, the
session of an established connection is what its own events and its idle timer have made of it
since, one after another, and after its `ConnectionDestructor` nothing more. -/
theorem session_lived {s : TcpServer σ L} {actions : List (ServerAction σ L)}
    (performed : perform (step server main loops) {} actions = some s)
    (answers : ∀ action ∈ actions, action.Answers good memory) {c : Nat} {k : Connection σ L}
    (found : s.connection c = some k) (begun : k.stage ≠ .fresh) :
    LivedOut server good memory k := by
  have empty : Reaches (step server main loops) {} {} := .refl _
  have inside : Throughout (step server main loops) (fun _ action => action ∈ actions) {} actions :=
    throughout_of_forall fun _ _ inside => inside
  have all : Invariant main s ∧ Awaits memory s ∧ AllLivedOut server good memory s := by
    refine inside.invariant (P := fun s => Invariant main s ∧ Awaits memory s ∧
      AllLivedOut server good memory s) ?_ performed ⟨reaches_invariant empty, ?_, ?_⟩
    · rintro s action t ⟨invariant, awaits, before⟩ inside stepped
      have answers := answers action inside
      exact ⟨(step_advances invariant stepped).invariant,
        (step_touching invariant awaits answers stepped).awaits,
        step_allLivedOut invariant awaits before answers stepped⟩
    · rintro c k ⟨⟩
    · rintro c k ⟨⟩
  exact all.2.2 c k found begun

end Runs

/-- Two connections on one descriptor, one after the other: each has a life of its own, and
the first is over. -/
theorem session_lived_fdReused :
    ∃ s k k', perform (step (HttpServer.construct 0) false [true]) {} fdReusedRun = some s ∧
      s.connection 0 = some k ∧ s.connection 1 = some k' ∧ k.fd = k'.fd ∧ k.stage = .destructed ∧
      LivedOut (HttpServer.construct 0) (fun _ => True) (fun _ => True) k ∧
      LivedOut (HttpServer.construct 0) (fun _ => True) (fun _ => True) k' := by
  have performed : ((perform (step (HttpServer.construct 0) false [true]) {} fdReusedRun).any
      fun s => (s.connection 0).any fun k => (s.connection 1).any fun k' =>
        k.fd = k'.fd ∧ k.stage = .destructed ∧ k'.stage = .established) = true := by
    decide +kernel
  obtain ⟨s, performed, known⟩ := (Option.any_eq_true _ _).mp performed
  obtain ⟨k, found, known⟩ := (Option.any_eq_true _ _).mp known
  obtain ⟨k', found', known⟩ := (Option.any_eq_true _ _).mp known
  obtain ⟨same, gone, established⟩ := of_decide_eq_true known
  have answers : ∀ action ∈ fdReusedRun,
      action.Answers (fun _ => True) fun _ => True := by
    intro action _
    cases action <;> trivial
  exact ⟨s, k, k', performed, found, found', same, gone,
    session_lived performed answers found (by simp [gone]),
    session_lived performed answers found' (by simp [established])⟩

end TcpServer

end CppFileServer.Tcp
