/-
# Tcp.Ownership -- one piece of work for each connection

A connection moves through its stages one hop at a time, and every stage but
`established` and `destructed` has one piece of work that carries it on: a
callback or a queued task of one loop.  `Invariant` ties the stages, this work,
the map, the descriptors and the state of the session together, and `Moves` is
a hop of one connection, which keeps it.
-/
import CppFileServer.Tcp.Callbacks

namespace CppFileServer.Tcp

set_option autoImplicit false

open CppFileServer.Cpp CppFileServer.Http CppFileServer.Theory

/-! ## Work and references of a loop -/

namespace EventLoop

variable {loop loop' : EventLoop Ready Task}

theorem queueOneFunc_eq_ok {inLoopThread : Bool} {f : Task}
    (queued : loop.queueOneFunc inLoopThread f = .ok loop') :
    loop'.phase = loop.phase ∧ loop'.toDoList = loop.toDoList ++ [f] := by
  unfold queueOneFunc at queued
  split_ifs at queued
  · rw [wakeup_eq_ok queued]
    exact ⟨rfl, rfl⟩
  · cases queued
    exact ⟨rfl, rfl⟩

/-- What queueing a task adds. -/
theorem queued_eq {f : Task} (phase : loop'.phase = loop.phase)
    (toDoList : loop'.toDoList = loop.toDoList ++ [f]) :
    loop'.work = loop.work ++ [.task f] ∧ loop'.held = loop.held ++ [f.conn] ∧
      loop'.ready = loop.ready := by
  unfold work held ready round functors
  rw [phase, toDoList]
  simp

/-- What stands in the list of channels that `Poll` returned. -/
theorem handling_eq {active : List (Active Ready)} (handling : loop.phase = .handling active) :
    loop.work = active.filterMap Active.work ++ loop.toDoList.map Work.task ∧
      loop.held = (active.filterMap Active.work).map Work.conn ++ loop.toDoList.map Task.conn ∧
      loop.ready = active := by
  unfold work held ready round functors
  simp [handling]

/-- The callback that runs now is left, and one that has work of a connection takes its place. -/
theorem begun_eq (loop' : EventLoop Ready Task) {before rest : List (Active Ready)}
    {active : Active Ready} {w : Work} (handling : loop.phase = .handling before)
    (sameWork : rest.filterMap Active.work = before.filterMap Active.work)
    (begins : Active.work active = some w) (handling' : loop'.phase = .handling (active :: rest))
    (toDoList : loop'.toDoList = loop.toDoList) :
    loop'.work = w :: loop.work ∧ loop'.held = w.conn :: loop.held ∧
      loop'.ready = active :: rest := by
  obtain ⟨work, held, -⟩ := handling_eq handling
  obtain ⟨work', held', ready'⟩ := handling_eq handling'
  rw [List.filterMap_cons_some begins, sameWork, toDoList] at work' held'
  rw [work, held, work', held', ready']
  exact ⟨rfl, rfl, rfl⟩

/-- Callbacks without work are left. -/
theorem left_eq (loop' : EventLoop Ready Task) {before rest : List (Active Ready)}
    (handling : loop.phase = .handling before)
    (sameWork : rest.filterMap Active.work = before.filterMap Active.work)
    (handling' : loop'.phase = .handling rest) (toDoList : loop'.toDoList = loop.toDoList) :
    loop'.work = loop.work ∧ loop'.held = loop.held ∧ loop'.ready = rest := by
  obtain ⟨work, held, -⟩ := handling_eq handling
  obtain ⟨work', held', ready'⟩ := handling_eq handling'
  rw [sameWork, toDoList] at work' held'
  rw [work, held, work', held', ready']
  exact ⟨rfl, rfl, rfl⟩

theorem running_eq {done rest : List Task} (running : loop.phase = .running done rest) :
    loop.work = (rest ++ loop.toDoList).map Work.task ∧
      loop.held = (done ++ rest ++ loop.toDoList).map Task.conn ∧ loop.ready = [] := by
  unfold work held ready round functors
  simp [running]

/-- The first task of the round is started. -/
theorem started_eq {f : Task} {done rest : List Task}
    (running : loop.phase = .running done (f :: rest)) (proceeded : loop.proceed = some (.ok loop')) :
    loop.work = .task f :: loop'.work ∧ (∀ c, c ∈ loop'.held → c ∈ loop.held) ∧
      loop'.ready = [] := by
  simp only [proceed, running, Option.some.injEq, Except.ok.injEq] at proceeded
  subst proceeded
  refine ⟨?_, ?_, rfl⟩
  · simp [work, ready, round, running]
  · intro c inside
    simpa [held, ready, functors, running] using inside

theorem polling_eq (polling : loop.phase = .polling) :
    loop.work = loop.toDoList.map Work.task ∧ loop.held = loop.toDoList.map Task.conn ∧
      loop.ready = [] := by
  unfold work held ready round functors
  simp [polling]

/-- The work of a loop keeps its connection from being destroyed. -/
theorem held_of_work {w : Work} (inside : w ∈ loop.work) : w.conn ∈ loop.held := by
  unfold work at inside
  unfold held
  rw [List.mem_append, List.map_append, List.mem_append] at inside
  rw [List.mem_append, List.map_append, List.mem_append]
  have ofTask {fs : List Task} (inTasks : w ∈ fs.map Work.task) : w.conn ∈ fs.map Task.conn := by
    obtain ⟨f, inFs, rfl⟩ := List.mem_map.mp inTasks
    exact List.mem_map_of_mem inFs
  rcases inside with inReady | inRound | inList
  · exact Or.inl (List.mem_map_of_mem inReady)
  · refine Or.inr (Or.inl ?_)
    have inRound := ofTask inRound
    unfold round at inRound
    unfold functors
    cases phase : loop.phase with
    | running done rest =>
        simp only [phase] at inRound ⊢
        rw [List.map_append]
        exact List.mem_append_right _ inRound
    | polling => simp [phase] at inRound
    | handling active => simp [phase] at inRound
    | swapping => simp [phase] at inRound
    | releasing functors => simp [phase] at inRound
  · exact Or.inr (Or.inr (ofTask inList))

/-- A callback without work is left. -/
theorem popped_eq {active : Active Ready} {rest : List (Active Ready)}
    (handling : loop.phase = .handling (active :: rest)) (quiet : Active.work active = none)
    (counter : Nat) (handled : loop' = { loop with counter := counter, phase := .handling rest }) :
    loop'.work = loop.work ∧ (∀ c, c ∈ loop'.held → c ∈ loop.held) ∧
      (∀ active, active ∈ loop'.ready → active ∈ loop.ready) := by
  subst handled
  obtain ⟨work, held, ready⟩ :=
    left_eq { loop with counter := counter, phase := .handling rest } handling
      (List.filterMap_cons_none quiet).symm rfl rfl
  obtain ⟨-, -, before⟩ := handling_eq handling
  rw [work, held, ready, before]
  exact ⟨rfl, fun _ inside => inside, fun _ inside => List.mem_cons_of_mem _ inside⟩

/-- A step of the thread outside of tasks and connections moves no work. -/
theorem proceed_eq (proceeded : loop.proceed = some (.ok loop'))
    (noTask : ∀ done f rest, loop.phase ≠ .running done (f :: rest))
    (noCallback : ∀ active rest, loop.phase = .handling (active :: rest) → Active.work active = none) :
    loop'.work = loop.work ∧ (∀ c, c ∈ loop'.held → c ∈ loop.held) ∧
      (∀ active, active ∈ loop'.ready → active ∈ loop.ready) := by
  unfold proceed at proceeded
  cases phase : loop.phase with
  | polling => simp [phase] at proceeded
  | handling ready =>
      cases ready with
      | nil =>
          simp only [phase] at proceeded
          cases proceeded
          simp [work, held, EventLoop.ready, round, functors, phase]
      | cons active ready =>
          have quiet := noCallback active ready phase
          cases active with
          | wakeup =>
              simp only [phase] at proceeded
              obtain ⟨read, handled, left⟩ := bind_eq_ok (Option.some.inj proceeded)
              cases left
              unfold handleRead at handled
              split_ifs at handled
              cases handled
              exact popped_eq phase quiet 0 rfl
          | channel event =>
              simp only [phase] at proceeded
              cases proceeded
              exact popped_eq phase quiet loop.counter rfl
  | swapping =>
      simp only [phase] at proceeded
      cases proceeded
      simp [work, held, EventLoop.ready, round, functors, phase]
  | running done rest =>
      cases rest with
      | nil =>
          simp only [phase] at proceeded
          cases proceeded
          simp [work, held, EventLoop.ready, round, functors, phase]
      | cons f rest => exact absurd phase (noTask done f rest)
  | releasing fs =>
      simp only [phase] at proceeded
      cases fs with
      | nil =>
          cases proceeded
          simp [work, held, EventLoop.ready, round, functors, phase]
      | cons f fs =>
          cases proceeded
          refine ⟨?_, ?_, ?_⟩
          · simp [work, EventLoop.ready, round, phase]
          · intro c inside
            simp only [held, EventLoop.ready, functors, phase, List.filterMap_nil, List.map_nil,
              List.nil_append, List.cons_append, List.map_cons, List.mem_cons] at inside ⊢
            exact Or.inr inside
          · simp [EventLoop.ready]

end EventLoop

/-! ## The invariant -/

namespace Stage

/-- The connection is in `connectionsMap_`. -/
def mapped : Stage → Bool
  | established => true
  | closing => true
  | requested => true
  | _ => false

end Stage

namespace Connection

variable {σ L : Type}

/-- The one piece of work that carries a connection to its next stage, and the loop that has it. -/
def token (main : L) (c : Nat) (k : Connection σ L) : Option (L × Work) :=
  match k.stage with
  | .fresh => some (main, .establishing c)
  | .established => none
  | .closing => some (k.loop, .closing c)
  | .requested => some (main, .task (.handleCloseInLoop c))
  | .erased => some (k.loop, .task (.connectionDestructor c))
  | .destructed => none

/-- The work is about the connection. -/
theorem token_conn {main l : L} {c : Nat} {k : Connection σ L} {w : Work}
    (isToken : k.token main c = some (l, w)) : w.conn = c := by
  unfold token at isToken
  cases stage : k.stage with
  | fresh => simp only [stage, Option.some.injEq, Prod.mk.injEq] at isToken; rw [← isToken.2]; rfl
  | established => simp [stage] at isToken
  | closing => simp only [stage, Option.some.injEq, Prod.mk.injEq] at isToken; rw [← isToken.2]; rfl
  | requested => simp only [stage, Option.some.injEq, Prod.mk.injEq] at isToken; rw [← isToken.2]; rfl
  | erased => simp only [stage, Option.some.injEq, Prod.mk.injEq] at isToken; rw [← isToken.2]; rfl
  | destructed => simp [stage] at isToken

/-- The session is as its stage says. -/
def Healthy (k : Connection σ L) : Prop :=
  match k.stage with
  | .fresh => k.session.conn.closeRequests = 0 ∧ k.timer = false ∧ k.destructions = 0 ∧
      k.session.conn.channel.registered = some 0
  | .established => k.session.conn.closeRequests = 0 ∧ k.session.conn.state = .Connected ∧
      k.destructions = 0
  | .destructed => Closed k.session ∧ k.destructions = 1 ∧ k.session.conn.channel.registered = none
  | _ => Closed k.session ∧ k.destructions = 0

theorem Healthy.closed {k : Connection σ L} (healthy : k.Healthy)
    (requested : 0 < k.session.conn.closeRequests) : Closed k.session := by
  unfold Healthy at healthy
  cases stage : k.stage with
  | fresh => simp only [stage] at healthy; omega
  | established => simp only [stage] at healthy; omega
  | closing => simp only [stage] at healthy; exact healthy.1
  | requested => simp only [stage] at healthy; exact healthy.1
  | erased => simp only [stage] at healthy; exact healthy.1
  | destructed => simp only [stage] at healthy; exact healthy.1

/-- `on_close_` has been called once or not at all. -/
theorem Healthy.closeRequests_le {k : Connection σ L} (healthy : k.Healthy) :
    k.session.conn.closeRequests ≤ 1 := by
  rcases Nat.eq_zero_or_pos k.session.conn.closeRequests with uncalled | requested
  · omega
  · exact le_of_eq (healthy.closed requested).requests

/-- `on_close_` is called on an open connection only. -/
theorem Healthy.opened {k : Connection σ L} (healthy : k.Healthy) {t : Session σ}
    (evolves : Evolves k.session t)
    (closing : k.session.conn.closeRequests < t.conn.closeRequests)
    (unopened : k.stage = .fresh → t.conn = k.session.conn) :
    k.stage = .established ∧ k.session.conn.closeRequests = 0 ∧ k.destructions = 0 ∧
      Closed t := by
  obtain ⟨count, opened, closed⟩ := evolves.closes.resolve_left fun ⟨same, _⟩ => by omega
  unfold Healthy at healthy
  cases stage : k.stage with
  | established =>
      simp only [stage] at healthy
      obtain ⟨uncalled, -, intact⟩ := healthy
      exact ⟨rfl, uncalled, intact, by rw [count, uncalled], closed⟩
  | fresh =>
      rw [unopened stage] at closing
      exact absurd closing (lt_irrefl _)
  | closing => simp only [stage] at healthy; exact absurd healthy.1.state opened
  | requested => simp only [stage] at healthy; exact absurd healthy.1.state opened
  | erased => simp only [stage] at healthy; exact absurd healthy.1.state opened
  | destructed => simp only [stage] at healthy; exact absurd healthy.1.state opened

/-- A callback that does not call `on_close_` leaves a connection healthy. -/
theorem Healthy.evolves {k : Connection σ L} (healthy : k.Healthy) {t : Session σ} {timer : Bool}
    (count : t.conn.closeRequests = k.session.conn.closeRequests)
    (state : t.conn.state = k.session.conn.state)
    (unopened : k.stage = .fresh → t.conn = k.session.conn ∧ timer = false)
    (deleted : k.stage = .destructed → t.conn.channel = k.session.conn.channel) :
    ({ k with timer := timer, session := t } : Connection σ L).Healthy := by
  have closedKept (closed : Closed k.session) : Closed t :=
    ⟨count.trans closed.requests, state.trans closed.state⟩
  unfold Healthy at healthy ⊢
  cases stage : k.stage with
  | fresh =>
      simp only [stage] at healthy
      obtain ⟨conn, noTimer⟩ := unopened stage
      exact ⟨count.trans healthy.1, noTimer, healthy.2.2.1, by rw [conn]; exact healthy.2.2.2⟩
  | established =>
      simp only [stage] at healthy
      exact ⟨count.trans healthy.1, state.trans healthy.2.1, healthy.2.2⟩
  | closing => simp only [stage] at healthy; exact ⟨closedKept healthy.1, healthy.2⟩
  | requested => simp only [stage] at healthy; exact ⟨closedKept healthy.1, healthy.2⟩
  | erased => simp only [stage] at healthy; exact ⟨closedKept healthy.1, healthy.2⟩
  | destructed =>
      simp only [stage] at healthy
      exact ⟨closedKept healthy.1, healthy.2.1, by rw [deleted stage]; exact healthy.2.2⟩

/-- `ConnectionDestructor` has run once or not at all. -/
theorem Healthy.destructions_eq {k : Connection σ L} (healthy : k.Healthy) :
    k.destructions = if k.stage = .destructed then 1 else 0 := by
  unfold Healthy at healthy
  cases stage : k.stage with
  | fresh => simp only [stage] at healthy; simp [healthy.2.2.1]
  | established => simp only [stage] at healthy; simp [healthy.2.2]
  | closing => simp only [stage] at healthy; simp [healthy.2]
  | requested => simp only [stage] at healthy; simp [healthy.2]
  | erased => simp only [stage] at healthy; simp [healthy.2]
  | destructed => simp only [stage] at healthy; simp [healthy.2.1]

/-- Once `on_close_` has been called it is not called again, and no request is dispatched. -/
def Silent (k k' : Connection σ L) : Prop :=
  Closed k.session → k'.session.conn.closeRequests = 1 ∧ k'.session.dispatched = k.session.dispatched

theorem silent_of_evolves {k k' : Connection σ L} (evolves : Evolves k.session k'.session) :
    k.Silent k' := by
  rintro ⟨requests, state⟩
  refine ⟨?_, evolves.silent state⟩
  rcases evolves.closes with ⟨count, -⟩ | ⟨-, opened, -⟩
  · exact count.trans requests
  · exact absurd state opened

theorem token_establishing {main l : L} {c : Nat} {k : Connection σ L}
    (isToken : k.token main c = some (l, .establishing c)) : k.stage = .fresh := by
  unfold token at isToken
  cases stage : k.stage <;> simp [stage] at isToken
  rfl

theorem token_closing {main l : L} {c : Nat} {k : Connection σ L}
    (isToken : k.token main c = some (l, .closing c)) : k.stage = .closing ∧ k.loop = l := by
  unfold token at isToken
  cases stage : k.stage <;> simp [stage] at isToken
  exact ⟨rfl, isToken⟩

theorem token_handleCloseInLoop {main l : L} {c : Nat} {k : Connection σ L}
    (isToken : k.token main c = some (l, .task (.handleCloseInLoop c))) :
    k.stage = .requested ∧ main = l := by
  unfold token at isToken
  cases stage : k.stage <;> simp [stage] at isToken
  exact ⟨rfl, isToken⟩

theorem token_connectionDestructor {main l : L} {c : Nat} {k : Connection σ L}
    (isToken : k.token main c = some (l, .task (.connectionDestructor c))) :
    k.stage = .erased ∧ k.loop = l := by
  unfold token at isToken
  cases stage : k.stage <;> simp [stage] at isToken
  exact ⟨rfl, isToken⟩

/-- An event that a loop may hold for the connection. -/
structure Reportable (k : Connection σ L) (l : L) (events : BitVec 32) : Prop where
  own : k.loop = l
  present : k.stage ≠ .destructed
  quiet : k.stage = .fresh → events &&& callbackEvents = 0

end Connection

namespace TcpServer

variable {σ L : Type}

structure Invariant (main : L) (s : TcpServer σ L) : Prop where
  known : ∀ c k, s.connection c = some k → c < s.created
  work : ∀ l w, w ∈ (s.loop l).work ↔
    ∃ k, s.connection w.conn = some k ∧ k.token main w.conn = some (l, w)
  nodup : ∀ l, (s.loop l).work.Nodup
  mapped : ∀ fd c, s.connectionsMap fd = some c ↔
    ∃ k, s.connection c = some k ∧ k.fd = fd ∧ k.stage.mapped = true
  healthy : ∀ c k, s.connection c = some k → k.Healthy
  reported : ∀ l c events, .channel (.connection c events) ∈ (s.loop l).ready →
    ∃ k, s.connection c = some k ∧ k.Reportable l events
  fds : ∀ c d k k', s.connection c = some k → s.connection d = some k' →
    s.Held c → s.Held d → k.fd = k'.fd → c = d

/-- One connection moves on: its record and its work change, and nothing of the others'. -/
structure Moves (main : L) (s s' : TcpServer σ L) (c : Nat) (k : Connection σ L) : Prop where
  same : ∀ d, d ≠ c → s'.connection d = s.connection d
  moved : s'.connection c = some k
  known : c < s'.created ∧ s.created ≤ s'.created
  work : ∀ l w, w ∈ (s'.loop l).work ↔
    w ∈ (s.loop l).work ∧ w.conn ≠ c ∨ k.token main c = some (l, w)
  nodup : ∀ l, (s'.loop l).work.Nodup
  others : ∀ fd d, d ≠ c → (s'.connectionsMap fd = some d ↔ s.connectionsMap fd = some d)
  mapped : ∀ fd, s'.connectionsMap fd = some c ↔ k.fd = fd ∧ k.stage.mapped = true
  healthy : k.Healthy
  held : ∀ l d, d ≠ c → d ∈ (s'.loop l).held → d ∈ (s.loop l).held
  ready : ∀ l d events, d ≠ c → .channel (.connection d events) ∈ (s'.loop l).ready →
    .channel (.connection d events) ∈ (s.loop l).ready
  reportable : ∀ l events, .channel (.connection c events) ∈ (s'.loop l).ready →
    k.Reportable l events
  fds : ∀ d k', d ≠ c → s.connection d = some k' → s.Held d → k'.fd ≠ k.fd

theorem Moves.invariant {main : L} {s s' : TcpServer σ L} {c : Nat} {k : Connection σ L}
    (moves : Moves main s s' c k) (invariant : Invariant main s) : Invariant main s' := by
  have held_old {d : Nat} (other : d ≠ c) (held : s'.Held d) : s.Held d := by
    rcases held with ⟨k', found, mapped⟩ | ⟨l, inside⟩
    · rw [moves.same d other] at found
      exact Or.inl ⟨k', found, (moves.others _ d other).mp mapped⟩
    · exact Or.inr ⟨l, moves.held l d other inside⟩
  refine ⟨?_, ?_, moves.nodup, ?_, ?_, ?_, ?_⟩
  · intro d k' found
    by_cases here : d = c
    · exact here ▸ moves.known.1
    · rw [moves.same d here] at found
      exact lt_of_lt_of_le (invariant.known d k' found) moves.known.2
  · intro l w
    rw [moves.work]
    by_cases here : w.conn = c
    · rw [here, moves.moved]
      simp
    · rw [moves.same _ here, invariant.work]
      constructor
      · rintro (⟨token, -⟩ | impossible)
        · exact token
        · exact absurd (Connection.token_conn impossible) here
      · exact fun token => Or.inl ⟨token, here⟩
  · intro fd d
    by_cases here : d = c
    · rw [here, moves.mapped, moves.moved]
      simp
    · rw [moves.others fd d here, moves.same d here, invariant.mapped]
  · intro d k' found
    by_cases here : d = c
    · rw [here, moves.moved] at found
      cases found
      exact moves.healthy
    · rw [moves.same d here] at found
      exact invariant.healthy d k' found
  · intro l d events inside
    by_cases here : d = c
    · subst here
      exact ⟨k, moves.moved, moves.reportable l events inside⟩
    · rw [moves.same d here]
      exact invariant.reported l d events (moves.ready l d events here inside)
  · intro d e k' k'' foundD foundE heldD heldE same
    by_cases hereD : d = c
    · by_cases hereE : e = c
      · rw [hereD, hereE]
      · rw [hereD, moves.moved] at foundD
        cases foundD
        rw [moves.same e hereE] at foundE
        exact absurd same.symm (moves.fds e k'' hereE foundE (held_old hereE heldE))
    · rw [moves.same d hereD] at foundD
      by_cases hereE : e = c
      · rw [hereE, moves.moved] at foundE
        cases foundE
        exact absurd same (moves.fds d k' hereD foundD (held_old hereD heldD))
      · rw [moves.same e hereE] at foundE
        exact invariant.fds d e k' k'' foundD foundE (held_old hereD heldD)
          (held_old hereE heldE) same

/-! ## One hop -/

section Hops

variable {main : L} {s : TcpServer σ L} (invariant : Invariant main s)

include invariant

/-- Until `ConnectionDestructor` has run, a connection is not destroyed. -/
theorem held_of_present {c : Nat} {k : Connection σ L} (found : s.connection c = some k)
    (present : k.stage ≠ .destructed) : s.Held c := by
  cases token : k.token main c with
  | some place =>
      obtain ⟨l, w⟩ := place
      have conn := Connection.token_conn token
      have inside : w ∈ (s.loop l).work := (invariant.work l w).mpr ⟨k, by rwa [conn], by rwa [conn]⟩
      exact Or.inr ⟨l, conn ▸ EventLoop.held_of_work inside⟩
  | none =>
      refine Or.inl ⟨k, found, (invariant.mapped _ _).mpr ⟨k, found, rfl, ?_⟩⟩
      unfold Connection.token at token
      cases stage : k.stage with
      | established => rfl
      | destructed => exact absurd stage present
      | fresh => simp [stage] at token
      | closing => simp [stage] at token
      | requested => simp [stage] at token
      | erased => simp [stage] at token

theorem fds_of_held {c : Nat} {k : Connection σ L} (found : s.connection c = some k)
    (held : s.Held c) (d : Nat) (k' : Connection σ L) (other : d ≠ c)
    (foundD : s.connection d = some k') (heldD : s.Held d) : k'.fd ≠ k.fd :=
  fun same => other (invariant.fds d c k' k foundD found heldD held same)

/-- The loop that has the work of a connection, and where the work comes first. -/
theorem token_of_head {l : L} {w : Work} {rest : List Work} (head : (s.loop l).work = w :: rest) :
    ∃ k, s.connection w.conn = some k ∧ k.token main w.conn = some (l, w) :=
  (invariant.work l w).mp (by rw [head]; exact List.mem_cons_self)

/-- The work of a connection is its token. -/
theorem work_kept {c : Nat} {k : Connection σ L} (found : s.connection c = some k) (l : L)
    (v : Work) : v ∈ (s.loop l).work ↔
      v ∈ (s.loop l).work ∧ v.conn ≠ c ∨ k.token main c = some (l, v) := by
  by_cases here : v.conn = c
  · rw [invariant.work, here, found]
    simp
  · simp only [here, ne_eq, not_false_eq_true, and_true, iff_self_or]
    exact fun token => absurd (Connection.token_conn token) here

theorem mapped_of_stage {c : Nat} {k : Connection σ L} (found : s.connection c = some k)
    (stage : k.stage.mapped = true) : s.connectionsMap k.fd = some c :=
  (invariant.mapped _ _).mpr ⟨k, found, rfl, stage⟩

/-- A connection that exists moves on, and keeps its loop and its descriptor. -/
theorem moves_of {c : Nat} {k k' : Connection σ L} {s' : TcpServer σ L}
    (found : s.connection c = some k) (held : s.Held c)
    (connections : s'.connection = Function.update s.connection c (some k'))
    (created : s'.created = s.created) (fd : k'.fd = k.fd)
    (work : ∀ l v, v ∈ (s'.loop l).work ↔
      v ∈ (s.loop l).work ∧ v.conn ≠ c ∨ k'.token main c = some (l, v))
    (nodup : ∀ l, (s'.loop l).work.Nodup)
    (others : ∀ fd d, d ≠ c → (s'.connectionsMap fd = some d ↔ s.connectionsMap fd = some d))
    (mapped : s'.connectionsMap k.fd = some c ↔ k'.stage.mapped = true)
    (unmapped : ∀ fd, fd ≠ k.fd → s'.connectionsMap fd = s.connectionsMap fd)
    (healthy : k'.Healthy)
    (refs : ∀ l d, d ≠ c → d ∈ (s'.loop l).held → d ∈ (s.loop l).held)
    (ready : ∀ l d events, .channel (.connection d events) ∈ (s'.loop l).ready →
      .channel (.connection d events) ∈ (s.loop l).ready)
    (reportable : ∀ l events, .channel (.connection c events) ∈ (s'.loop l).ready →
      k.Reportable l events → k'.Reportable l events) :
    Moves main s s' c k' := by
  refine ⟨?_, ?_, ?_, work, nodup, others, ?_, healthy, refs, fun l d events _ => ready l d events,
    ?_, ?_⟩
  · intro d other
    rw [connections, Function.update_of_ne other]
  · rw [connections, Function.update_self]
  · rw [created]
    exact ⟨invariant.known c k found, le_refl _⟩
  · intro fd'
    by_cases here : fd' = k.fd
    · rw [here, mapped, fd]
      simp
    · rw [unmapped fd' here, invariant.mapped, fd]
      simp [found, Ne.symm here]
  · intro l events inside
    obtain ⟨k'', found', old⟩ := invariant.reported l c events (ready l c events inside)
    rw [found] at found'
    cases found'
    exact reportable l events inside old
  · rw [fd]
    exact fds_of_held invariant found held

end Hops

/-- The map with the descriptor of one connection taken out. -/
theorem update_none_others {s : TcpServer σ L} {c : Nat} {fd : Nat}
    (isMapped : s.connectionsMap fd = some c) (fd' d : Nat) (other : d ≠ c) :
    Function.update s.connectionsMap fd none fd' = some d ↔ s.connectionsMap fd' = some d := by
  by_cases here : fd' = fd
  · subst here
    simp [isMapped, Ne.symm other]
  · rw [Function.update_of_ne here]

variable [DecidableEq L]

@[simp] theorem setLoop_connection (s : TcpServer σ L) (l : L) (loop : EventLoop Ready Task) :
    (s.setLoop l loop).connection = s.connection := rfl

@[simp] theorem setLoop_connectionsMap (s : TcpServer σ L) (l : L)
    (loop : EventLoop Ready Task) : (s.setLoop l loop).connectionsMap = s.connectionsMap := rfl

@[simp] theorem setLoop_self (s : TcpServer σ L) (l : L) (loop : EventLoop Ready Task) :
    (s.setLoop l loop).loop l = loop := Function.update_self _ _ _

theorem setLoop_other (s : TcpServer σ L) {l l' : L} (other : l' ≠ l)
    (loop : EventLoop Ready Task) : (s.setLoop l loop).loop l' = s.loop l' :=
  Function.update_of_ne other _ _

/-- What one loop has now, and the others had before, all of them have. -/
theorem setLoop_forall {s : TcpServer σ L} {l : L} {loop : EventLoop Ready Task}
    {P : L → EventLoop Ready Task → Prop} (now : P l loop)
    (before : ∀ l', l' ≠ l → P l' (s.loop l')) (l' : L) : P l' ((s.setLoop l loop).loop l') := by
  by_cases here : l' = l
  · subst here
    rwa [setLoop_self]
  · rw [setLoop_other s here]
    exact before l' here

/-- The references to the other connections come from before. -/
theorem setLoop_held {s : TcpServer σ L} {l : L} {loop : EventLoop Ready Task} {c : Nat}
    (here : ∀ d, d ≠ c → d ∈ loop.held → d ∈ (s.loop l).held) :
    ∀ l' d, d ≠ c → d ∈ ((s.setLoop l loop).loop l').held → d ∈ (s.loop l').held :=
  setLoop_forall (P := fun l' loop => ∀ d, d ≠ c → d ∈ loop.held → d ∈ (s.loop l').held) here
    fun _ _ _ _ => id

/-- The events come from before. -/
theorem setLoop_ready {s : TcpServer σ L} {l : L} {loop : EventLoop Ready Task}
    (here : ∀ d events, .channel (.connection d events) ∈ loop.ready →
      .channel (.connection d events) ∈ (s.loop l).ready) :
    ∀ l' d events, .channel (.connection d events) ∈ ((s.setLoop l loop).loop l').ready →
      .channel (.connection d events) ∈ (s.loop l').ready :=
  setLoop_forall (P := fun l' loop => ∀ d events, .channel (.connection d events) ∈ loop.ready →
    .channel (.connection d events) ∈ (s.loop l').ready) here fun _ _ _ _ => id

section Hops

variable {main : L} {s : TcpServer σ L} (invariant : Invariant main s)

include invariant

/-- Taking up the work of a connection leaves that of the others. -/
theorem work_popped {l : L} {w : Work} {loop : EventLoop Ready Task}
    (head : (s.loop l).work = w :: loop.work) :
    (∀ l' v, v ∈ ((s.setLoop l loop).loop l').work ↔ v ∈ (s.loop l').work ∧ v.conn ≠ w.conn) ∧
      ∀ l', ((s.setLoop l loop).loop l').work.Nodup := by
  obtain ⟨k, found, token⟩ := token_of_head invariant head
  have only {l' : L} {v : Work} (inside : v ∈ (s.loop l').work) (same : v.conn = w.conn) :
      l' = l ∧ v = w := by
    obtain ⟨k', found', token'⟩ := (invariant.work l' v).mp inside
    rw [same, found] at found'
    cases found'
    rw [same, token] at token'
    cases token'
    exact ⟨rfl, rfl⟩
  have distinct := invariant.nodup l
  rw [head, List.nodup_cons] at distinct
  refine ⟨?_, setLoop_forall (P := fun _ loop => loop.work.Nodup) distinct.2
    fun l' _ => invariant.nodup l'⟩
  apply setLoop_forall (P := fun l' loop =>
    ∀ v, v ∈ loop.work ↔ v ∈ (s.loop l').work ∧ v.conn ≠ w.conn)
  · intro v
    rw [head, List.mem_cons]
    constructor
    · intro inside
      refine ⟨Or.inr inside, ?_⟩
      intro same
      have isHead := (only (by rw [head]; exact List.mem_cons_of_mem w inside) same).2
      exact distinct.1 (isHead ▸ inside)
    · rintro ⟨rfl | inside, other⟩
      · exact absurd rfl other
      · exact inside
  · intro l' other v
    exact ⟨fun inside => ⟨inside, fun same => other (only inside same).1⟩, And.left⟩

/-- Beginning work of a connection that has none leaves that of the others. -/
theorem work_begun {l : L} {w : Work} {loop : EventLoop Ready Task}
    (work : loop.work = w :: (s.loop l).work)
    (unbusy : ∀ l' v, v ∈ (s.loop l').work → v.conn ≠ w.conn) :
    (∀ l' v, v ∈ ((s.setLoop l loop).loop l').work ↔
        v ∈ (s.loop l').work ∧ v.conn ≠ w.conn ∨ some (l, w) = some (l', v)) ∧
      ∀ l', ((s.setLoop l loop).loop l').work.Nodup := by
  constructor
  · apply setLoop_forall (P := fun l' loop => ∀ v, v ∈ loop.work ↔
      v ∈ (s.loop l').work ∧ v.conn ≠ w.conn ∨ some (l, w) = some (l', v))
    · intro v
      rw [work, List.mem_cons]
      constructor
      · rintro (rfl | inside)
        · exact Or.inr rfl
        · exact Or.inl ⟨inside, unbusy l v inside⟩
      · rintro (⟨inside, -⟩ | same)
        · exact Or.inr inside
        · cases same
          exact Or.inl rfl
    · intro l' here v
      constructor
      · exact fun inside => Or.inl ⟨inside, unbusy l' v inside⟩
      · rintro (⟨inside, -⟩ | same)
        · exact inside
        · cases same
          exact absurd rfl here
  · apply setLoop_forall (P := fun _ loop => loop.work.Nodup)
    · rw [work, List.nodup_cons]
      exact ⟨fun inside => unbusy l w inside rfl, invariant.nodup l⟩
    · exact fun l' _ => invariant.nodup l'

end Hops

/-- What `QueueOneFunc` on a loop adds to the work, the references and the events. -/
theorem queueOneFunc_spec {s s' : TcpServer σ L} {caller l : L} {f : Task}
    (queued : s.queueOneFunc caller l f = .ok s') :
    s'.connection = s.connection ∧ s'.connectionsMap = s.connectionsMap ∧
      s'.created = s.created ∧
      (∀ l', (s'.loop l').work = (s.loop l').work ++ if l' = l then [.task f] else []) ∧
      (∀ l' d, d ∈ (s'.loop l').held → d ∈ (s.loop l').held ∨ d = f.conn) ∧
      (∀ l', (s'.loop l').ready = (s.loop l').ready) := by
  obtain ⟨loop, pushed, ended⟩ := bind_eq_ok queued
  cases ended
  obtain ⟨phase, toDoList⟩ := EventLoop.queueOneFunc_eq_ok pushed
  obtain ⟨work, held, ready⟩ := EventLoop.queued_eq phase toDoList
  refine ⟨rfl, rfl, rfl, ?_, ?_, setLoop_forall (P := fun l' loop => loop.ready = (s.loop l').ready)
    ready fun _ _ => rfl⟩
  · apply setLoop_forall (P := fun l' loop =>
      loop.work = (s.loop l').work ++ if l' = l then [Work.task f] else [])
    · rw [work, if_pos rfl]
    · intro l' other
      rw [if_neg other, List.append_nil]
  · apply setLoop_forall (P := fun l' loop =>
      ∀ d, d ∈ loop.held → d ∈ (s.loop l').held ∨ d = f.conn)
    · intro d
      rw [held, List.mem_append, List.mem_singleton]
      exact id
    · exact fun _ _ _ => Or.inl

section Hops

variable {main : L} {s : TcpServer σ L} (invariant : Invariant main s)

include invariant

/-- Work of a connection is taken up on one loop, and its next work queued on another one. -/
theorem work_passed {l l₂ caller : L} {w : Work} {loop : EventLoop Ready Task} {f : Task}
    {s₂ s' : TcpServer σ L} (head : (s.loop l).work = w :: loop.work)
    (loops : s₂.loop = (s.setLoop l loop).loop) (conn : f.conn = w.conn)
    (queued : s₂.queueOneFunc caller l₂ f = .ok s') :
    (∀ l' v, v ∈ (s'.loop l').work ↔
        v ∈ (s.loop l').work ∧ v.conn ≠ w.conn ∨ some (l₂, Work.task f) = some (l', v)) ∧
      ∀ l', (s'.loop l').work.Nodup := by
  obtain ⟨popped, nodup⟩ := work_popped invariant head
  obtain ⟨-, -, -, work, -, -⟩ := queueOneFunc_spec queued
  rw [loops] at work
  constructor
  · intro l' v
    rw [work, List.mem_append, popped]
    refine or_congr Iff.rfl ?_
    split_ifs with here
    · simp [here, eq_comm]
    · simp [Ne.symm here]
  · intro l'
    rw [work, List.nodup_append]
    refine ⟨nodup l', by split_ifs <;> simp, ?_⟩
    rintro v inside _ isNew rfl
    split_ifs at isNew with here
    · rw [List.mem_singleton] at isNew
      subst isNew
      exact ((popped l' _).mp inside).2 conn
    · cases isNew

/-- Work of a connection is taken up, and its next work queued. -/
theorem moves_passed {c : Nat} {k k' : Connection σ L} {l l₂ caller : L} {w : Work}
    {loop : EventLoop Ready Task} {f : Task} {s₂ s' : TcpServer σ L}
    (found : s.connection c = some k) (present : k.stage ≠ .destructed)
    (head : (s.loop l).work = w :: loop.work) (conn : w.conn = c)
    (refs : ∀ d, d ∈ loop.held → d ∈ (s.loop l).held)
    (ready : ∀ active, active ∈ loop.ready → active ∈ (s.loop l).ready)
    (queued : s₂.queueOneFunc caller l₂ f = .ok s')
    (loops : s₂.loop = (s.setLoop l loop).loop)
    (connections : s₂.connection = Function.update s.connection c (some k'))
    (created : s₂.created = s.created) (kept : k'.loop = k.loop ∧ k'.fd = k.fd)
    (token : k'.token main c = some (l₂, .task f))
    (others : ∀ fd d, d ≠ c → (s₂.connectionsMap fd = some d ↔ s.connectionsMap fd = some d))
    (mapped : s₂.connectionsMap k.fd = some c ↔ k'.stage.mapped = true)
    (unmapped : ∀ fd, fd ≠ k.fd → s₂.connectionsMap fd = s.connectionsMap fd)
    (healthy : k'.Healthy) (later : k'.stage ≠ .fresh ∧ k'.stage ≠ .destructed) :
    Moves main s s' c k' := by
  have fConn : f.conn = c := Connection.token_conn token
  obtain ⟨work, nodup⟩ := work_passed invariant head loops (by rw [fConn, conn]) queued
  obtain ⟨connection, map, created', -, refs', ready'⟩ := queueOneFunc_spec queued
  rw [loops] at refs' ready'
  refine moves_of invariant found (held_of_present invariant found present)
    (connection.trans connections) (created'.trans created) kept.2 ?_ nodup (by rwa [map])
    (by rwa [map]) (by rwa [map]) healthy ?_ ?_ ?_
  · intro l' v
    rw [work, conn, token]
  · intro l' d other inside
    rcases refs' l' d inside with before | isNew
    · exact setLoop_forall (P := fun l' loop => ∀ d, d ∈ loop.held → d ∈ (s.loop l').held) refs
        (fun _ _ _ => id) l' d before
    · exact absurd (isNew.trans fConn) other
  · intro l' d events inside
    rw [ready'] at inside
    exact setLoop_forall (P := fun l' loop => ∀ active, active ∈ loop.ready →
      active ∈ (s.loop l').ready) ready (fun _ _ _ => id) l' _ inside
  · intro l' events _ old
    exact ⟨kept.1.trans old.own, later.2, fun fresh => absurd fresh later.1⟩

/-- Work of a connection is done, and none is left for it. -/
theorem moves_done {c : Nat} {k k' : Connection σ L} {l : L} {w : Work}
    {loop : EventLoop Ready Task} {s' : TcpServer σ L}
    (found : s.connection c = some k) (present : k.stage ≠ .destructed)
    (head : (s.loop l).work = w :: loop.work) (conn : w.conn = c)
    (refs : ∀ d, d ∈ loop.held → d ∈ (s.loop l).held)
    (ready : ∀ active, active ∈ loop.ready → active ∈ (s.loop l).ready)
    (loops : s'.loop = (s.setLoop l loop).loop)
    (connections : s'.connection = Function.update s.connection c (some k'))
    (created : s'.created = s.created) (fd : k'.fd = k.fd) (token : k'.token main c = none)
    (others : ∀ fd d, d ≠ c → (s'.connectionsMap fd = some d ↔ s.connectionsMap fd = some d))
    (mapped : s'.connectionsMap k.fd = some c ↔ k'.stage.mapped = true)
    (unmapped : ∀ fd, fd ≠ k.fd → s'.connectionsMap fd = s.connectionsMap fd)
    (healthy : k'.Healthy)
    (reportable : ∀ l' events, .channel (.connection c events) ∈ ((s.setLoop l loop).loop l').ready →
      k.Reportable l' events → k'.Reportable l' events) :
    Moves main s s' c k' := by
  obtain ⟨work, nodup⟩ := work_popped invariant head
  have refs' := setLoop_forall (P := fun l' loop => ∀ d, d ∈ loop.held → d ∈ (s.loop l').held) refs
    fun _ _ _ => id
  have ready' := setLoop_forall (P := fun l' loop => ∀ active, active ∈ loop.ready →
    active ∈ (s.loop l').ready) ready fun _ _ _ => id
  rw [← loops] at work nodup reportable refs' ready'
  refine moves_of invariant found (held_of_present invariant found present) connections created fd
    ?_ nodup others mapped unmapped healthy (fun l' d _ => refs' l' d) (fun l' d events => ready' l' _)
    reportable
  intro l' v
  rw [work, conn, token]
  simp

/-- `HandleCloseInLoop` finds its connection in the map and takes that one out. -/
theorem moves_handleCloseInLoop {c : Nat} {k : Connection σ L} {w : Work}
    {loop : EventLoop Ready Task} {s' : TcpServer σ L} (found : s.connection c = some k)
    (stage : k.stage = .closing ∨ k.stage = .requested)
    (head : (s.loop main).work = w :: loop.work) (conn : w.conn = c)
    (refs : ∀ d, d ∈ loop.held → d ∈ (s.loop main).held)
    (ready : ∀ active, active ∈ loop.ready → active ∈ (s.loop main).ready)
    (closed : (s.setLoop main loop).handleCloseInLoop main c = .ok s') :
    Moves main s s' c { k with stage := .erased } := by
  have isMapped : s.connectionsMap k.fd = some c :=
    mapped_of_stage invariant found (by rcases stage with here | here <;> simp [here, Stage.mapped])
  have closedSession : Closed k.session ∧ k.destructions = 0 := by
    have healthy := invariant.healthy c k found
    unfold Connection.Healthy at healthy
    rcases stage with here | here <;> simpa [here] using healthy
  have present : k.stage ≠ .destructed := by rcases stage with here | here <;> simp [here]
  simp only [handleCloseInLoop, setLoop_connection, found, setLoop_connectionsMap, isMapped,
    reduceCtorEq, if_false] at closed
  refine moves_passed invariant found present head conn refs ready closed rfl rfl rfl ⟨rfl, rfl⟩ rfl
    ?_ ?_ ?_ closedSession (by simp)
  · exact update_none_others isMapped
  · simp [setConnection, Stage.mapped]
  · intro fd other
    exact Function.update_of_ne other _ _

/-- `HandleClose` on another loop than the main one queues `HandleCloseInLoop` there. -/
theorem moves_requested {c : Nat} {k : Connection σ L} {l : L} {w : Work}
    {loop : EventLoop Ready Task} {s' : TcpServer σ L} (found : s.connection c = some k)
    (stage : k.stage = .closing) (head : (s.loop l).work = w :: loop.work) (conn : w.conn = c)
    (refs : ∀ d, d ∈ loop.held → d ∈ (s.loop l).held)
    (ready : ∀ active, active ∈ loop.ready → active ∈ (s.loop l).ready)
    (queued : ((s.setLoop l loop).setConnection c { k with stage := .requested }).queueOneFunc l main
      (.handleCloseInLoop c) = .ok s') :
    Moves main s s' c { k with stage := .requested } := by
  have healthy := invariant.healthy c k found
  have isMapped : s.connectionsMap k.fd = some c :=
    mapped_of_stage invariant found (by simp [stage, Stage.mapped])
  simp only [Connection.Healthy, stage] at healthy
  refine moves_passed invariant found (by simp [stage]) head conn refs ready queued rfl rfl rfl
    ⟨rfl, rfl⟩ rfl (fun _ _ _ => Iff.rfl) ?_ (fun _ _ => rfl)
    healthy (by simp)
  simpa [setConnection, Stage.mapped] using isMapped

/-- `ConnectionDestructor` takes the channel out of the poller. -/
theorem moves_connectionDestructor {c : Nat} {k : Connection σ L} {w : Work}
    {loop : EventLoop Ready Task} {s' : TcpServer σ L} (found : s.connection c = some k)
    (stage : k.stage = .erased) (head : (s.loop k.loop).work = w :: loop.work) (conn : w.conn = c)
    (refs : ∀ d, d ∈ loop.held → d ∈ (s.loop k.loop).held) (noReady : loop.ready = [])
    (destructed : (s.setLoop k.loop loop).connectionDestructor c = .ok s') :
    ∃ k', Moves main s s' c k' ∧ k.Silent k' := by
  have healthy := invariant.healthy c k found
  simp only [Connection.Healthy, stage] at healthy
  simp only [connectionDestructor, setLoop_connection, found, Except.ok.injEq] at destructed
  subst destructed
  refine ⟨_, moves_done invariant found (by simp [stage]) head conn refs (by simp [noReady]) rfl rfl
    rfl rfl rfl (fun _ _ _ => Iff.rfl) ?_ (fun _ _ => rfl)
    ⟨⟨healthy.1.requests, healthy.1.state⟩, by rw [healthy.2], rfl⟩ ?_,
    fun closed => ⟨closed.requests, rfl⟩⟩
  · have absent : s.connectionsMap k.fd ≠ some c := by
      intro isMapped
      obtain ⟨k', found', -, stage'⟩ := (invariant.mapped _ _).mp isMapped
      rw [found] at found'
      cases found'
      simp [stage, Stage.mapped] at stage'
    simpa [setConnection, Stage.mapped] using absent
  · intro l' events inside old
    rw [← old.own, setLoop_self, noReady] at inside
    cases inside

/-- `HandleNewConnection` puts its connection into the map. -/
theorem moves_establish {server : HttpServer σ} {c : Nat} {k : Connection σ L}
    {loop : EventLoop Ready Task} (found : s.connection c = some k)
    (head : (s.loop main).work = .establishing c :: loop.work)
    (refs : ∀ d, d ∈ loop.held → d ∈ (s.loop main).held)
    (ready : ∀ active, active ∈ loop.ready → active ∈ (s.loop main).ready) :
    ∃ k', Moves main s ((s.establish server c k).setLoop main loop) c k' ∧ k.Silent k' := by
  obtain ⟨k', found', token⟩ := token_of_head invariant head
  rw [show (Work.establishing c).conn = c from rfl, found] at found'
  cases found'
  have stage : k.stage = .fresh := Connection.token_establishing token
  have healthy := invariant.healthy c k found
  simp only [Connection.Healthy, stage] at healthy
  have held := held_of_present invariant found (by simp [stage])
  refine ⟨_, moves_done invariant found (by simp [stage]) head rfl refs ready rfl rfl rfl rfl rfl
    ?_ ?_ ?_ ⟨healthy.1, rfl, healthy.2.2.1⟩ ?_, fun closed => ⟨closed.requests, rfl⟩⟩
  · intro fd d other
    show Function.update s.connectionsMap k.fd (some c) fd = some d ↔ _
    by_cases here : fd = k.fd
    · subst here
      have absent : s.connectionsMap k.fd ≠ some d := by
        intro isMapped
        obtain ⟨k', found', sameFd, -⟩ := (invariant.mapped _ _).mp isMapped
        exact fds_of_held invariant found held d k' other found'
          (Or.inl ⟨k', found', by rwa [sameFd]⟩) sameFd
      simp [absent, Ne.symm other]
    · rw [Function.update_of_ne here]
  · simp [establish, Stage.mapped]
  · intro fd other
    exact Function.update_of_ne other _ _
  · intro l' events _ old
    exact ⟨old.own, by simp, by simp⟩

/-- A callback has called `on_close_`, which is what the loop does next. -/
theorem moves_called {c : Nat} {k : Connection σ L} {t : Session σ}
    {active rest : List (Active Ready)} {timer : Bool} (found : s.connection c = some k)
    (handling : (s.loop k.loop).phase = .handling active)
    (sameWork : rest.filterMap Active.work = active.filterMap Active.work)
    (fewer : ∀ a, a ∈ rest → a ∈ active) (stage : k.stage = .established)
    (intact : k.destructions = 0) (closed : Closed t) :
    Moves main s
      ((s.setConnection c { k with timer := timer, session := t, stage := .closing }).setLoop k.loop
        { s.loop k.loop with phase := .handling (.channel (.closing c) :: rest) }) c
      { k with timer := timer, session := t, stage := .closing } := by
  have isMapped : s.connectionsMap k.fd = some c :=
    mapped_of_stage invariant found (by simp [stage, Stage.mapped])
  have begins : Active.work (.channel (.closing c)) = some (.closing c) := rfl
  have noWork (l' : L) (v : Work) (inside : v ∈ (s.loop l').work) : v.conn ≠ c := by
    have split := (work_kept invariant found l' v).mp inside
    simpa [Connection.token, stage, inside] using split
  obtain ⟨-, -, ready⟩ := EventLoop.handling_eq handling
  obtain ⟨work', refs', ready'⟩ := EventLoop.begun_eq
    { s.loop k.loop with phase := .handling (.channel (.closing c) :: rest) } handling sameWork
    begins rfl rfl
  obtain ⟨begun, nodup⟩ := work_begun invariant work' noWork
  refine moves_of invariant found (Or.inl ⟨k, found, isMapped⟩) rfl rfl rfl begun nodup
    (fun _ _ _ => Iff.rfl) ⟨fun _ => rfl, fun _ => isMapped⟩ (fun _ _ => rfl) ⟨closed, intact⟩
    (setLoop_held ?_) (setLoop_ready ?_) fun _ _ _ old => ⟨old.own, by simp, by simp⟩
  · intro d other inside
    rw [refs', List.mem_cons] at inside
    exact inside.resolve_left other
  · intro d events inside
    rw [ready', List.mem_cons] at inside
    exact ready ▸ fewer _ (inside.resolve_left (by simp))

/-- A callback has changed nothing but its session. -/
theorem moves_returned {c : Nat} {k : Connection σ L} {l : L} {t : Session σ}
    {active rest : List (Active Ready)} {timer : Bool} (found : s.connection c = some k)
    (held : s.Held c) (handling : (s.loop l).phase = .handling active)
    (sameWork : rest.filterMap Active.work = active.filterMap Active.work)
    (fewer : ∀ a, a ∈ rest → a ∈ active)
    (healthy : ({ k with timer := timer, session := t } : Connection σ L).Healthy) :
    Moves main s
      ((s.setConnection c { k with timer := timer, session := t }).setLoop l
        { s.loop l with phase := .handling rest }) c { k with timer := timer, session := t } := by
  obtain ⟨-, -, ready⟩ := EventLoop.handling_eq handling
  obtain ⟨work', refs', ready'⟩ := EventLoop.left_eq
    { s.loop l with phase := .handling rest } handling sameWork rfl rfl
  refine moves_of invariant found held rfl rfl rfl ?_ ?_ (fun _ _ _ => Iff.rfl) ?_
    (fun _ _ => rfl) healthy (setLoop_held ?_) (setLoop_ready ?_)
    fun _ _ _ old => ⟨old.own, old.present, old.quiet⟩
  · apply setLoop_forall (P := fun l' loop => ∀ v, v ∈ loop.work ↔
      v ∈ (s.loop l').work ∧ v.conn ≠ c ∨ k.token main c = some (l', v))
    · rw [work']
      exact work_kept invariant found l
    · exact fun l' _ => work_kept invariant found l'
  · apply setLoop_forall (P := fun _ loop => loop.work.Nodup)
    · rw [work']
      exact invariant.nodup l
    · exact fun l' _ => invariant.nodup l'
  · show s.connectionsMap k.fd = some c ↔ k.stage.mapped = true
    rw [invariant.mapped]
    simp [found]
  · intro d _ inside
    rwa [refs'] at inside
  · intro d events inside
    rw [ready'] at inside
    exact ready ▸ fewer _ inside

/-- A callback on a session leaves the rest as it was, or it calls `on_close_`. -/
theorem moves_settle {c : Nat} {k : Connection σ L} {l : L} {t : Session σ}
    {active rest : List (Active Ready)} {timer : Bool} (found : s.connection c = some k)
    (held : s.Held c) (own : k.loop = l) (handling : (s.loop l).phase = .handling active)
    (sameWork : rest.filterMap Active.work = active.filterMap Active.work)
    (fewer : ∀ a, a ∈ rest → a ∈ active) (evolves : Evolves k.session t)
    (unopened : k.stage = .fresh → t.conn = k.session.conn ∧ timer = false)
    (deleted : k.stage = .destructed → t.conn.channel = k.session.conn.channel) :
    ∃ k', Moves main s (s.settle l c { k with timer := timer } t rest) c k' ∧ k.Silent k' := by
  have healthy := invariant.healthy c k found
  unfold settle
  split_ifs with closing
  · obtain ⟨stage, -, intact, closed⟩ :=
      healthy.opened evolves closing fun fresh => (unopened fresh).1
    subst own
    exact ⟨_, moves_called (k := k) invariant found handling sameWork fewer stage intact closed,
      Connection.silent_of_evolves evolves⟩
  · obtain ⟨count, state⟩ := evolves.closes.resolve_right fun ⟨grown, _⟩ => closing (by
      show k.session.conn.closeRequests < t.conn.closeRequests
      omega)
    have healthy' := healthy.evolves count state unopened deleted
    exact ⟨_, moves_returned (k := k) invariant found held handling sameWork fewer healthy',
      Connection.silent_of_evolves evolves⟩

/-- `HandleNewConnection` constructs a connection. -/
theorem moves_accept [Fintype L] {loops : List L} {fd : Nat} {state : ConnectionState}
    {completeHeaders : Bool} {world : σ} {rest : List (Active Ready)}
    (handling : (s.loop main).phase = .handling (.channel .accept :: rest))
    (notOpen : s.fdOpen fd = false) :
    ∃ k', Moves main s ((s.newConnection main loops fd state completeHeaders world).setLoop main
      { s.loop main with phase := .handling (.channel (.establishing s.created) :: rest) })
      s.created k' := by
  have unknown : s.connection s.created = none := by
    cases found : s.connection s.created with
    | none => rfl
    | some k => exact absurd (invariant.known _ k found) (lt_irrefl _)
  have noWork (l : L) (v : Work) (inside : v ∈ (s.loop l).work) : v.conn ≠ s.created := by
    intro here
    obtain ⟨k, found, -⟩ := (invariant.work l v).mp inside
    rw [here, unknown] at found
    cases found
  obtain ⟨-, -, ready⟩ := EventLoop.handling_eq handling
  have begins : Active.work (.channel (.establishing s.created)) = some (.establishing s.created) :=
    rfl
  have sameWork : rest.filterMap Active.work =
      (Active.channel Ready.accept :: rest).filterMap Active.work := rfl
  obtain ⟨work', refs', ready'⟩ := EventLoop.begun_eq
    { s.loop main with phase := .handling (.channel (.establishing s.created) :: rest) } handling
    sameWork begins rfl rfl
  obtain ⟨begun, nodup⟩ := work_begun invariant work' noWork
  have readyBefore := setLoop_ready (s := s) (l := main) fun d events inside => by
    rw [ready', List.mem_cons] at inside
    rw [ready]
    exact List.mem_cons_of_mem _ (inside.resolve_left (by simp))
  refine ⟨_, ?_, Function.update_self _ _ _, ⟨Nat.lt_succ_self _, Nat.le_succ _⟩, begun, nodup,
    fun _ _ _ => Iff.rfl, ?_, ⟨rfl, rfl, rfl, ?_⟩, ?_, fun l d events _ => readyBefore l d events,
    ?_, ?_⟩
  · intro d other
    exact Function.update_of_ne other _ _
  · intro fd'
    constructor
    · intro isMapped
      obtain ⟨k, found, -⟩ := (invariant.mapped _ _).mp isMapped
      rw [unknown] at found
      cases found
    · rintro ⟨-, impossible⟩
      cases impossible
  · rfl
  · apply setLoop_held
    intro d other inside
    rw [refs', List.mem_cons] at inside
    exact inside.resolve_left other
  · intro l events inside
    obtain ⟨k, found, -⟩ := invariant.reported l _ events (readyBefore l _ events inside)
    rw [unknown] at found
    cases found
  · intro d k' _ found held same
    simp only [fdOpen, List.any_eq_false, List.mem_range] at notOpen
    have inside := invariant.known d k' found
    have opened := notOpen d inside
    rw [found] at opened
    simp [held] at opened
    exact opened same

end Hops

end TcpServer

end CppFileServer.Tcp
