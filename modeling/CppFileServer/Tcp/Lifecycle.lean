/-
# Tcp.Lifecycle -- a connection is closed once, by the right loops, and then destroyed

Each step of each loop keeps the invariant of `Tcp.Ownership`, whatever the other
loops do in between: it moves one connection on, or it moves none.  What the
invariant says of the loop that runs next is then true in every interleaving.
-/
import CppFileServer.Tcp.Ownership

namespace CppFileServer.Tcp

set_option autoImplicit false

open CppFileServer.Cpp CppFileServer.Http CppFileServer.Theory

namespace TcpServer

variable {σ L : Type}

section Steps

variable {main : L} {s : TcpServer σ L}

/-! ## What a step does -/

/-- What a step does: it keeps the invariant, and a closed connection stays silent. -/
structure Advances (main : L) (s t : TcpServer σ L) : Prop where
  invariant : Invariant main t
  silent : ∀ c k, s.connection c = some k → ∃ k', t.connection c = some k' ∧ k.Silent k'

theorem advances_of_same {t : TcpServer σ L} (invariant : Invariant main t)
    (same : t.connection = s.connection) : Advances main s t := by
  refine ⟨invariant, ?_⟩
  intro c k found
  exact ⟨k, same ▸ found, fun closed => ⟨closed.requests, rfl⟩⟩

theorem Moves.advances {t : TcpServer σ L} {c : Nat} {k' : Connection σ L}
    (moves : Moves main s t c k') (invariant : Invariant main s)
    (silent : ∀ k, s.connection c = some k → k.Silent k') : Advances main s t := by
  refine ⟨moves.invariant invariant, ?_⟩
  intro d k found
  by_cases here : d = c
  · subst here
    exact ⟨k', moves.moved, silent k found⟩
  · exact ⟨k, (moves.same d here).trans found, fun closed => ⟨closed.requests, rfl⟩⟩

theorem Moves.advances_of_found {t : TcpServer σ L} {c : Nat} {k k' : Connection σ L}
    (moves : Moves main s t c k') (invariant : Invariant main s) (found : s.connection c = some k)
    (silent : k.Silent k') : Advances main s t := by
  apply moves.advances invariant
  intro k₀ old
  rw [found] at old
  cases old
  exact silent

/-- The callback of a channel that runs now is left. -/
theorem popped {l : L} {active : Active Ready} {rest : List (Active Ready)} {w : Work}
    (handling : (s.loop l).phase = .handling (active :: rest)) (begun : Active.work active = some w)
    (loop : EventLoop Ready Task) (phase : loop.phase = .handling rest)
    (toDoList : loop.toDoList = (s.loop l).toDoList) :
    (s.loop l).work = w :: loop.work ∧ (∀ d, d ∈ loop.held → d ∈ (s.loop l).held) ∧
      ∀ a, a ∈ loop.ready → a ∈ (s.loop l).ready := by
  obtain ⟨work, held, ready⟩ :=
    EventLoop.begun_eq (s.loop l) phase rfl begun handling toDoList.symm
  obtain ⟨-, -, ready'⟩ := EventLoop.handling_eq phase
  refine ⟨work, ?_, ?_⟩
  · intro d inside
    rw [held]
    exact List.mem_cons_of_mem _ inside
  · intro a inside
    rw [ready'] at inside
    rw [ready]
    exact List.mem_cons_of_mem _ inside

/-- Only `Healthy` looks at the timer, and none is always right. -/
theorem expired_healthy {k : Connection σ L} (healthy : k.Healthy) :
    ({ k with timer := false } : Connection σ L).Healthy := by
  unfold Connection.Healthy at healthy ⊢
  cases stage : k.stage with
  | fresh =>
      simp only [stage] at healthy
      exact ⟨healthy.1, rfl, healthy.2.2⟩
  | established => simpa only [stage] using healthy
  | closing => simpa only [stage] using healthy
  | requested => simpa only [stage] using healthy
  | erased => simpa only [stage] using healthy
  | destructed => simpa only [stage] using healthy

section Expired

variable {c : Nat} {k : Connection σ L} (found : s.connection c = some k)

include found

/-- Every connection is there before a timer expires, with the same stage and work. -/
theorem expired_before {d : Nat} {k' : Connection σ L}
    (now : (s.setConnection c { k with timer := false }).connection d = some k') :
    ∃ k₀, s.connection d = some k₀ ∧ k'.fd = k₀.fd ∧ k'.stage = k₀.stage ∧
      (∀ main, k'.token main d = k₀.token main d) ∧ (k₀.Healthy → k'.Healthy) := by
  have after : Function.update s.connection c (some { k with timer := false }) d = some k' := now
  by_cases here : d = c
  · subst here
    rw [Function.update_self] at after
    cases after
    exact ⟨k, found, rfl, rfl, fun _ => rfl, expired_healthy⟩
  · rw [Function.update_of_ne here] at after
    exact ⟨k', after, rfl, rfl, fun _ => rfl, id⟩

/-- And it is there afterwards. -/
theorem expired_after {d : Nat} {k₀ : Connection σ L} (old : s.connection d = some k₀) :
    ∃ k', (s.setConnection c { k with timer := false }).connection d = some k' ∧
      k'.fd = k₀.fd ∧ k'.stage = k₀.stage ∧ (∀ main, k'.token main d = k₀.token main d) ∧
      ∀ l events, k₀.Reportable l events → k'.Reportable l events := by
  by_cases here : d = c
  · subst here
    rw [found] at old
    cases old
    exact ⟨_, Function.update_self _ _ _, rfl, rfl, fun _ => rfl,
      fun _ _ old => ⟨old.own, old.present, old.quiet⟩⟩
  · exact ⟨k₀, (Function.update_of_ne here _ _).trans old, rfl, rfl, fun _ => rfl,
      fun _ _ old => old⟩

theorem expired_held {d : Nat} (held : (s.setConnection c { k with timer := false }).Held d) :
    s.Held d := by
  rcases held with ⟨k', now, mapped⟩ | inside
  · obtain ⟨k₀, old, fd', -⟩ := expired_before found now
    exact Or.inl ⟨k₀, old, fd' ▸ mapped⟩
  · exact Or.inr inside

/-- A timer finds its connection destroyed and is not set again. -/
theorem expired_invariant (invariant : Invariant main s) :
    Invariant main (s.setConnection c { k with timer := false }) := by
  refine ⟨?_, ?_, invariant.nodup, ?_, ?_, ?_, ?_⟩
  · intro d k' now
    obtain ⟨k₀, old, -⟩ := expired_before found now
    exact invariant.known d k₀ old
  · intro l w
    refine (invariant.work l w).trans ⟨?_, ?_⟩
    · rintro ⟨k₀, old, token⟩
      obtain ⟨k', now, -, -, same, -⟩ := expired_after found old
      exact ⟨k', now, (same main).trans token⟩
    · rintro ⟨k', now, token⟩
      obtain ⟨k₀, old, -, -, same, -⟩ := expired_before found now
      exact ⟨k₀, old, (same main).symm.trans token⟩
  · intro fd d
    refine (invariant.mapped fd d).trans ⟨?_, ?_⟩
    · rintro ⟨k₀, old, sameFd, mapped⟩
      obtain ⟨k', now, fd', stage, -⟩ := expired_after found old
      exact ⟨k', now, fd'.trans sameFd, stage ▸ mapped⟩
    · rintro ⟨k', now, sameFd, mapped⟩
      obtain ⟨k₀, old, fd', stage, -⟩ := expired_before found now
      exact ⟨k₀, old, fd'.symm.trans sameFd, stage ▸ mapped⟩
  · intro d k' now
    obtain ⟨k₀, old, -, -, -, healthy⟩ := expired_before found now
    exact healthy (invariant.healthy d k₀ old)
  · intro l d events inside
    obtain ⟨k₀, old, reportable⟩ := invariant.reported l d events inside
    obtain ⟨k', now, -, -, -, kept⟩ := expired_after found old
    exact ⟨k', now, kept l events reportable⟩
  · intro d e k' k'' now now' held held' same
    obtain ⟨k₀, old, fd, -⟩ := expired_before found now
    obtain ⟨k₁, old', fd', -⟩ := expired_before found now'
    exact invariant.fds d e k₀ k₁ old old' (expired_held found held)
      (expired_held found held') (fd.symm.trans (same.trans fd'))

end Expired

variable [DecidableEq L]

/-! ## Every step -/

/-- The loop goes on without beginning or ending work of a connection. -/
theorem setLoop_invariant (invariant : Invariant main s) {l : L} {loop : EventLoop Ready Task}
    (work : loop.work = (s.loop l).work) (refs : ∀ c, c ∈ loop.held → c ∈ (s.loop l).held)
    (ready : ∀ c events, .channel (.connection c events) ∈ loop.ready →
      ∃ k, s.connection c = some k ∧ k.Reportable l events) :
    Invariant main (s.setLoop l loop) := by
  have held_old {c : Nat} (held : (s.setLoop l loop).Held c) : s.Held c := by
    rcases held with mapped | ⟨l', inside⟩
    · exact Or.inl mapped
    · refine Or.inr ⟨l', ?_⟩
      exact setLoop_forall (P := fun l' loop => ∀ c, c ∈ loop.held → c ∈ (s.loop l').held) refs
        (fun _ _ _ => id) l' c inside
  have sameWork : ∀ l', ((s.setLoop l loop).loop l').work = (s.loop l').work :=
    setLoop_forall (P := fun l' loop => loop.work = (s.loop l').work) work fun _ _ => rfl
  refine ⟨invariant.known, ?_, ?_, invariant.mapped, invariant.healthy, ?_, ?_⟩
  · intro l' w
    rw [sameWork]
    exact invariant.work l' w
  · intro l'
    rw [sameWork]
    exact invariant.nodup l'
  · apply setLoop_forall (P := fun l' loop => ∀ c events,
      .channel (.connection c events) ∈ loop.ready →
        ∃ k, s.connection c = some k ∧ k.Reportable l' events)
    · exact ready
    · exact fun l' _ => invariant.reported l'
  · intro c d k k' found found' held held' same
    exact invariant.fds c d k k' found found' (held_old held) (held_old held') same

/-- What epoll may report for a connection. -/
theorem reportable_of_reports [Fintype L] (invariant : Invariant main s) {l : L} {c : Nat}
    {events : BitVec 32} (reported : s.reports main l (.channel (.connection c events)) = true) :
    ∃ k, s.connection c = some k ∧ k.Reportable l events := by
  unfold reports at reported
  cases found : s.connection c with
  | none => simp [found] at reported
  | some k =>
      cases registered : k.session.conn.channel.registered with
      | none => simp [found, registered] at reported
      | some wanted =>
          simp only [found, registered, decide_eq_true_eq] at reported
          obtain ⟨own, allowed⟩ := reported
          have healthy := invariant.healthy c k found
          refine ⟨k, rfl, own, ?_, ?_⟩
          · intro stage
            simp only [Connection.Healthy, stage, registered] at healthy
            cases healthy.2.2
          · -- only errors are reported before `EnableRead`
            intro stage
            simp only [Connection.Healthy, stage, registered, Option.some.injEq] at healthy
            rw [healthy.2.2.2] at allowed
            exact and_eq_zero_of_subset allowed (by decide)

theorem poll_advances [Fintype L] (invariant : Invariant main s) {l : L} {loop : EventLoop Ready Task}
    {ready : List (Active Ready)} (reported : ready.all (s.reports main l) = true)
    (polled : (s.loop l).poll ready = some loop) : Advances main s (s.setLoop l loop) := by
  obtain ⟨polling, -, rfl⟩ := EventLoop.poll_eq_some polled
  rw [List.all_eq_true] at reported
  have noWork : ready.filterMap Active.work = [] := by
    rw [List.filterMap_eq_nil_iff]
    intro active inside
    have isReported := reported active inside
    cases active with
    | wakeup => rfl
    | channel event =>
        cases event with
        | accept => rfl
        | establishing c => simp [reports] at isReported
        | connection c events => rfl
        | closing c => simp [reports] at isReported
        | timers => rfl
  obtain ⟨work, held, -⟩ := EventLoop.polling_eq polling
  have handling : ({ s.loop l with phase := .handling ready } : EventLoop Ready Task).phase =
    .handling ready := rfl
  obtain ⟨work', held', ready'⟩ := EventLoop.handling_eq handling
  rw [noWork] at work' held'
  refine advances_of_same (setLoop_invariant invariant ?_ ?_ ?_) rfl
  · rw [work', work]
    rfl
  · intro c inside
    rw [held'] at inside
    rwa [held]
  · intro c events inside
    rw [ready'] at inside
    exact reportable_of_reports invariant (reported _ inside)

theorem close_advances (invariant : Invariant main s) {t : TcpServer σ L} {l : L} {c : Nat}
    {rest : List (Active Ready)}
    (handling : (s.loop l).phase = .handling (.channel (.closing c) :: rest))
    (closed : (s.setLoop l { s.loop l with phase := .handling rest }).handleClose main l c = .ok t) :
    Advances main s t := by
  have begun : Active.work (.channel (.closing c)) = some (.closing c) := rfl
  obtain ⟨head, refs, ready⟩ := popped handling begun
    { s.loop l with phase := .handling rest } rfl rfl
  obtain ⟨k, found, token⟩ := token_of_head invariant head
  have found : s.connection c = some k := found
  obtain ⟨stage, -⟩ := Connection.token_closing token
  simp only [handleClose, setLoop_connection, found] at closed
  split_ifs at closed with here
  · subst here
    have moves := moves_handleCloseInLoop invariant found (Or.inl stage) head rfl refs ready closed
    exact moves.advances_of_found invariant found fun shut => ⟨shut.requests, rfl⟩
  · have moves := moves_requested invariant found stage head rfl refs ready closed
    exact moves.advances_of_found invariant found fun shut => ⟨shut.requests, rfl⟩

theorem task_advances (invariant : Invariant main s) {t : TcpServer σ L} {l : L} {f : Task}
    {done rest : List Task} {loop : EventLoop Ready Task}
    (running : (s.loop l).phase = .running done (f :: rest))
    (proceeded : (s.loop l).proceed = some (.ok loop))
    (ran : (s.setLoop l loop).runTask main f = .ok t) : Advances main s t := by
  obtain ⟨head, refs, noReady⟩ := EventLoop.started_eq running proceeded
  have ready : ∀ active, active ∈ loop.ready → active ∈ (s.loop l).ready := by simp [noReady]
  obtain ⟨k, found, token⟩ := token_of_head invariant head
  cases f with
  | handleCloseInLoop c =>
      have found : s.connection c = some k := found
      obtain ⟨stage, rfl⟩ := Connection.token_handleCloseInLoop token
      have moves := moves_handleCloseInLoop invariant found (Or.inr stage) head rfl refs ready ran
      exact moves.advances_of_found invariant found fun shut => ⟨shut.requests, rfl⟩
  | connectionDestructor c =>
      have found : s.connection c = some k := found
      obtain ⟨stage, rfl⟩ := Connection.token_connectionDestructor token
      obtain ⟨k', moves, silent⟩ :=
        moves_connectionDestructor invariant found stage head rfl refs noReady ran
      exact moves.advances_of_found invariant found silent

/-- A step of the thread that is neither a task nor a callback with work. -/
theorem proceed_advances (invariant : Invariant main s) {l : L} {loop : EventLoop Ready Task}
    (proceeded : (s.loop l).proceed = some (.ok loop))
    (noTask : ∀ done f rest, (s.loop l).phase ≠ .running done (f :: rest))
    (noCallback : ∀ active rest, (s.loop l).phase = .handling (active :: rest) →
      Active.work active = none) : Advances main s (s.setLoop l loop) := by
  obtain ⟨work, refs, ready⟩ := EventLoop.proceed_eq proceeded noTask noCallback
  refine advances_of_same (setLoop_invariant invariant work refs ?_) rfl
  intro c events inside
  exact invariant.reported l c events (ready _ inside)

variable {server : HttpServer σ} {loops : List L}

theorem event_advances (invariant : Invariant main s) {l : L} {c : Nat} {events : BitVec 32}
    {rest : List (Active Ready)} {inputs : Inputs σ} {k : Connection σ L} {session : Session σ}
    (handling : (s.loop l).phase = .handling (.channel (.connection c events) :: rest))
    (found : s.connection c = some k) (held : s.Held c)
    (handled : handleEvent server { k.session with world := inputs.world } events inputs = .ok session) :
    Advances main s (s.settle l c k session rest) := by
  obtain ⟨-, -, ready⟩ := EventLoop.handling_eq handling
  have reportable : k.Reportable l events := by
    have inside : .channel (.connection c events) ∈ (s.loop l).ready := by
      rw [ready]
      exact List.mem_cons_self
    obtain ⟨k', found', reportable⟩ := invariant.reported l c events inside
    rw [found] at found'
    cases found'
    exact reportable
  have evolves : Evolves k.session session := by
    have fromWorld := Evolves.handleEvent handled
    exact ⟨fromWorld.closes, fromWorld.silent⟩
  have unopened : k.stage = .fresh → session.conn = k.session.conn ∧ k.timer = false := by
    intro stage
    have healthy := invariant.healthy c k found
    simp only [Connection.Healthy, stage] at healthy
    rw [handleEvent_quiet (reportable.quiet stage) handled]
    exact ⟨rfl, healthy.2.1⟩
  have sameWork : rest.filterMap Active.work =
      (Active.channel (Ready.connection c events) :: rest).filterMap Active.work := rfl
  obtain ⟨k', moves, silent⟩ := moves_settle invariant found held reportable.own handling sameWork
    (fun _ inside => List.mem_cons_of_mem _ inside) evolves unopened
    (fun stage => absurd stage reportable.present)
  exact moves.advances_of_found invariant found silent

theorem timer_advances (invariant : Invariant main s) {l : L} {c : Nat} {now : Int} {again : Bool}
    {rest : List (Active Ready)} {k : Connection σ L}
    (handling : (s.loop l).phase = .handling (.channel .timers :: rest))
    (found : s.connection c = some k) (held : s.Held c) (set : k.timer = true) (own : k.loop = l) :
    Advances main s (s.settle l c { k with timer := again } (server.handleActiveClose k.session now)
      (.channel .timers :: rest)) := by
  have unopened : k.stage = .fresh →
      (server.handleActiveClose k.session now).conn = k.session.conn ∧ again = false := by
    intro stage
    have healthy := invariant.healthy c k found
    simp only [Connection.Healthy, stage] at healthy
    rw [set] at healthy
    cases healthy.2.1
  have deleted : k.stage = .destructed →
      (server.handleActiveClose k.session now).conn.channel = k.session.conn.channel := by
    intro stage
    have healthy := invariant.healthy c k found
    simp only [Connection.Healthy, stage] at healthy
    unfold HttpServer.handleActiveClose
    split_ifs
    · rw [TcpConnection.handleClose_of_closed healthy.1.state]
    · rfl
  obtain ⟨k', moves, silent⟩ := moves_settle invariant found held own handling rfl
    (fun _ inside => inside) (Evolves.handleActiveClose k.session now) unopened deleted
  exact moves.advances_of_found invariant found silent

variable [Fintype L]

/-- **Step lemma**: whatever a loop does, the invariant holds after it. -/
theorem step_advances (invariant : Invariant main s) {t : TcpServer σ L} {action : ServerAction σ L}
    (stepped : s.step server main loops action = some (.ok t)) : Advances main s t := by
  cases steps_of_step stepped with
  | poll reported polled => exact poll_advances invariant reported polled
  | accept handling notOpen =>
      obtain ⟨k', moves⟩ := moves_accept invariant handling notOpen
      apply moves.advances invariant
      intro k found
      exact absurd (invariant.known _ k found) (lt_irrefl _)
  | @establish c k rest handling found =>
      have begun : Active.work (.channel (.establishing c)) = some (.establishing c) := rfl
      obtain ⟨head, refs, ready⟩ := popped handling begun
        { s.loop main with phase := .handling rest } rfl rfl
      obtain ⟨k', moves, silent⟩ := moves_establish invariant found head refs ready
      exact moves.advances_of_found invariant found silent
  | event handling found held handled => exact event_advances invariant handling found held handled
  | timer handling found held set own => exact timer_advances invariant handling found held set own
  | @expired l c now k found =>
      refine ⟨expired_invariant found invariant, ?_⟩
      intro d k₀ old
      by_cases here : d = c
      · subst here
        rw [found] at old
        cases old
        exact ⟨_, Function.update_self _ _ _, fun shut => ⟨shut.requests, rfl⟩⟩
      · exact ⟨k₀, (Function.update_of_ne here _ _).trans old, fun shut => ⟨shut.requests, rfl⟩⟩
  | close handling closed => exact close_advances invariant handling closed
  | proceed proceeded noTask noCallback =>
      exact proceed_advances invariant proceeded noTask noCallback
  | task running proceeded ran => exact task_advances invariant running proceeded ran

/-- What holds in every state that the server reaches. -/
theorem reaches_invariant (reaches : Reaches (step server main loops) {} s) : Invariant main s := by
  refine reaches.invariant (fun _ _ _ invariant stepped => (step_advances invariant stepped).invariant) ?_
  refine ⟨?_, ?_, ?_, ?_, ?_, ?_, ?_⟩
  · rintro c k ⟨⟩
  · intro l w
    simp [EventLoop.work, EventLoop.ready, EventLoop.round]
  · intro l
    simp [EventLoop.work, EventLoop.ready, EventLoop.round]
  · simp
  · rintro c k ⟨⟩
  · intro l c events inside
    simp [EventLoop.ready] at inside
  · rintro c d k k' ⟨⟩

/-- A connection whose `on_close_` has been called stays closed and dispatches nothing. -/
theorem closed_silent (reaches : Reaches (step server main loops) {} s) {c : Nat}
    {k : Connection σ L} (found : s.connection c = some k) (closed : Closed k.session)
    {t : TcpServer σ L} (later : Reaches (step server main loops) s t) :
    ∃ k', t.connection c = some k' ∧ Closed k'.session ∧
      k'.session.dispatched = k.session.dispatched := by
  have both : Invariant main t ∧ ∃ k', t.connection c = some k' ∧ Closed k'.session ∧
      k'.session.dispatched = k.session.dispatched := by
    refine later.invariant (P := fun t => Invariant main t ∧ ∃ k', t.connection c = some k' ∧
      Closed k'.session ∧ k'.session.dispatched = k.session.dispatched) ?_
      ⟨reaches_invariant reaches, k, found, closed, rfl⟩
    rintro u action v ⟨invariant, k', found', closed', same⟩ stepped
    obtain ⟨invariant', silent⟩ := step_advances invariant stepped
    obtain ⟨k'', found'', kept⟩ := silent c k' found'
    obtain ⟨requests, same'⟩ := kept closed'
    refine ⟨invariant', k'', found'', ?_, same'.trans same⟩
    exact (invariant'.healthy c k'' found'').closed (by omega)
  exact both.2

end Steps

/-! ## The lifecycle -/

section Lifecycle

variable [DecidableEq L] [Fintype L] (server : HttpServer σ) (main : L) (loops : List L)

/-- `HandleCloseInLoop` of the connection is what the thread of the loop runs next: from
`HandleClose` on the main loop, or as a task. -/
def RunsHandleCloseInLoop (s : TcpServer σ L) (l : L) (c : Nat) : Prop :=
  (∃ rest, l = main ∧ (s.loop l).phase = .handling (.channel (.closing c) :: rest)) ∨
    ∃ done rest, (s.loop l).phase = .running done (.handleCloseInLoop c :: rest)

/-- `ConnectionDestructor` of the connection is what the thread of the loop runs next. -/
def RunsConnectionDestructor (s : TcpServer σ L) (l : L) (c : Nat) : Prop :=
  ∃ done rest, (s.loop l).phase = .running done (.connectionDestructor c :: rest)

/-- `HandleEvent` of the connection is what the thread of the loop runs next. -/
def RunsHandleEvent (s : TcpServer σ L) (l : L) (c : Nat) : Prop :=
  ∃ events rest, (s.loop l).phase = .handling (.channel (.connection c events) :: rest)

variable {server main loops} {s : TcpServer σ L}

omit [Fintype L] in
theorem handleCloseInLoop_map {t : TcpServer σ L} {l : L} {loop : EventLoop Ready Task} {c : Nat}
    {k : Connection σ L} (found : s.connection c = some k)
    (closed : (s.setLoop l loop).handleCloseInLoop main c = .ok t) :
    t.connectionsMap = Function.update s.connectionsMap k.fd none := by
  simp only [handleCloseInLoop, setLoop_connection, found] at closed
  split_ifs at closed
  obtain ⟨-, map, -⟩ := queueOneFunc_spec closed
  exact map

omit [DecidableEq L] [Fintype L] in
/-- The main loop finds the connection it closes in the map. -/
theorem runsHandleCloseInLoop_mapped (invariant : Invariant main s) {l : L} {c : Nat}
    {k : Connection σ L} (found : s.connection c = some k)
    (runs : s.RunsHandleCloseInLoop main l c) :
    l = main ∧ s.connectionsMap k.fd = some c ∧ s.Held c := by
  obtain ⟨w, inside, conn, queued⟩ : ∃ w, w ∈ (s.loop l).work ∧ w.conn = c ∧
      (w = .closing c ∧ l = main ∨ w = .task (.handleCloseInLoop c)) := by
    rcases runs with ⟨rest, onMain, handling⟩ | ⟨done, rest, running⟩
    · obtain ⟨work, -, -⟩ := EventLoop.handling_eq handling
      exact ⟨.closing c, by simp [work, Active.work], rfl, Or.inl ⟨rfl, onMain⟩⟩
    · obtain ⟨work, -, -⟩ := EventLoop.running_eq running
      exact ⟨.task (.handleCloseInLoop c), by simp [work], rfl, Or.inr rfl⟩
  obtain ⟨k', found', token⟩ := (invariant.work l w).mp inside
  rw [conn] at found' token
  rw [found] at found'
  cases found'
  have stage : l = main ∧ (k.stage = .closing ∨ k.stage = .requested) := by
    rcases queued with ⟨rfl, onMain⟩ | rfl
    · exact ⟨onMain, Or.inl (Connection.token_closing token).1⟩
    · obtain ⟨stage, onMain⟩ := Connection.token_handleCloseInLoop token
      exact ⟨onMain.symm, Or.inr stage⟩
  obtain ⟨rfl, stage⟩ := stage
  refine ⟨rfl, ?_, ?_⟩
  · refine mapped_of_stage invariant found ?_
    rcases stage with here | here <;> simp [here, Stage.mapped]
  · exact held_of_present invariant found (by rcases stage with here | here <;> simp [here])

/-- It takes no other one out. -/
theorem runsHandleCloseInLoop_spec (invariant : Invariant main s) {l : L} {c : Nat}
    {k : Connection σ L} (found : s.connection c = some k)
    (runs : s.RunsHandleCloseInLoop main l c) :
    l = main ∧ s.connectionsMap k.fd = some c ∧ s.Held c ∧
      ∀ action t, action = .close l ∨ action = .proceed l →
        s.step server main loops action = some (.ok t) →
        t.connectionsMap = Function.update s.connectionsMap k.fd none := by
  obtain ⟨rfl, mapped, held⟩ := runsHandleCloseInLoop_mapped invariant found runs
  refine ⟨rfl, mapped, held, ?_⟩
  intro action t taken stepped
  rcases runs with ⟨rest, -, handling⟩ | ⟨done, rest, running⟩
  · rcases taken with rfl | rfl
    · simp only [step, handling, Option.some.injEq, handleClose, setLoop_connection, found,
        if_true] at stepped
      exact handleCloseInLoop_map found stepped
    · simp [step, handling] at stepped
  · rcases taken with rfl | rfl
    · simp [step, running] at stepped
    · simp only [step, running, EventLoop.proceed, Option.map_some, ok_bind, Option.some.injEq]
        at stepped
      exact handleCloseInLoop_map found stepped

/-- `ConnectionDestructor` runs for the first time, in the loop of the connection, which is
not destroyed then or by it. -/
theorem runsConnectionDestructor_spec (invariant : Invariant main s) {l : L} {c : Nat}
    {k : Connection σ L} (found : s.connection c = some k)
    (runs : s.RunsConnectionDestructor l c) :
    l = k.loop ∧ k.destructions = 0 ∧ s.Held c ∧
      ∀ t, s.step server main loops (.proceed l) = some (.ok t) → t.Held c := by
  obtain ⟨done, rest, running⟩ := runs
  obtain ⟨work, held, -⟩ := EventLoop.running_eq running
  have inside : .task (.connectionDestructor c) ∈ (s.loop l).work := by simp [work]
  obtain ⟨k', found', token⟩ := (invariant.work l _).mp inside
  have found' : s.connection c = some k' := found'
  rw [found] at found'
  cases found'
  obtain ⟨stage, own⟩ := Connection.token_connectionDestructor token
  refine ⟨own.symm, ?_, held_of_present invariant found (by simp [stage]), ?_⟩
  · rw [(invariant.healthy c k found).destructions_eq, if_neg (by simp [stage])]
  · intro t stepped
    simp only [step, running, EventLoop.proceed, Option.map_some, ok_bind, Option.some.injEq,
      runTask, connectionDestructor, setLoop_connection, found, Except.ok.injEq] at stepped
    subst stepped
    -- the task is still in `functors`
    refine Or.inr ⟨l, ?_⟩
    show c ∈ ((s.setLoop l _).loop l).held
    rw [setLoop_self]
    simp [EventLoop.held, EventLoop.functors, Task.conn]

omit [DecidableEq L] [Fintype L] in
/-- `HandleEvent` is called on a connection that is not destroyed. -/
theorem runsHandleEvent_spec (invariant : Invariant main s) {l : L} {c : Nat}
    (runs : s.RunsHandleEvent l c) :
    ∃ k, s.connection c = some k ∧ k.loop = l ∧ s.Held c ∧ k.destructions = 0 := by
  obtain ⟨events, rest, handling⟩ := runs
  obtain ⟨-, -, ready⟩ := EventLoop.handling_eq handling
  have inside : .channel (.connection c events) ∈ (s.loop l).ready := by simp [ready]
  obtain ⟨k, found, reportable⟩ := invariant.reported l c events inside
  refine ⟨k, found, reportable.own, held_of_present invariant found reportable.present, ?_⟩
  rw [(invariant.healthy c k found).destructions_eq, if_neg reportable.present]

/-- **The lifecycle of a connection**, in every interleaving of accepts, events, timers and
tasks.  `on_close_` is called at most once.  `HandleCloseInLoop` runs on the main loop and
finds this connection in the map, and the one entry it erases.  `ConnectionDestructor` runs
at most once, on the loop of the connection, before the connection is destroyed and its
descriptor closed.  `HandleEvent` is called on no destroyed connection.  Once `on_close_` has
been called, now or by the read of this callback, no request is dispatched. -/
theorem connection_lifecycle (reaches : Reaches (step server main loops) {} s) :
    (∀ c k, s.connection c = some k →
      k.session.conn.closeRequests ≤ 1 ∧
      (∀ l, s.RunsHandleCloseInLoop main l c →
        l = main ∧ s.connectionsMap k.fd = some c ∧
          ∀ action t, action = .close l ∨ action = .proceed l →
            s.step server main loops action = some (.ok t) →
            t.connectionsMap = Function.update s.connectionsMap k.fd none) ∧
      k.destructions ≤ 1 ∧
      (∀ l, s.RunsConnectionDestructor l c →
        l = k.loop ∧ k.destructions = 0 ∧ s.Held c ∧
          ∀ t, s.step server main loops (.proceed l) = some (.ok t) → t.Held c) ∧
      (¬ s.Held c → k.destructions = 1) ∧
      (0 < k.session.conn.closeRequests → ∀ t, Reaches (step server main loops) s t →
        ∃ k', t.connection c = some k' ∧ k'.session.dispatched = k.session.dispatched) ∧
      ∀ results conn now result t, k.session.conn.readNonBlocking results = .ok conn →
        conn.state = .Disconected → server.handleMessage k.session results now result = .ok t →
        t.dispatched = k.session.dispatched) ∧
    ∀ l c, s.RunsHandleEvent l c →
      ∃ k, s.connection c = some k ∧ k.loop = l ∧ s.Held c ∧ k.destructions = 0 := by
  have invariant := reaches_invariant reaches
  refine ⟨?_, fun l c runs => runsHandleEvent_spec invariant runs⟩
  intro c k found
  have healthy := invariant.healthy c k found
  refine ⟨healthy.closeRequests_le, ?_, ?_, ?_, ?_, ?_, ?_⟩
  · intro l runs
    obtain ⟨onMain, mapped, -, erased⟩ := runsHandleCloseInLoop_spec invariant found runs
    exact ⟨onMain, mapped, erased⟩
  · rw [healthy.destructions_eq]
    split_ifs <;> omega
  · intro l runs
    exact runsConnectionDestructor_spec invariant found runs
  · intro destroyed
    rw [healthy.destructions_eq, if_pos]
    by_contra present
    exact destroyed (held_of_present invariant found present)
  · intro requested t later
    obtain ⟨k', found', -, same⟩ := closed_silent reaches found (healthy.closed requested) later
    exact ⟨k', found', same⟩
  · intro results conn now result t read shut handled
    obtain ⟨conn', read', handled⟩ := bind_eq_ok handled
    rw [read] at read'
    cases read'
    have notConnected : conn.state ≠ .Connected := by simp [shut]
    simp only [server.onMessage_of_not_connected
      (s := { k.session with conn := conn }) notConnected] at handled
    cases handled
    rfl

end Lifecycle

/-- The main loop `false` accepts a connection for the loop `true`, the peer closes it, the
three hops are made, and the next connection gets the same descriptor. -/
def fdReusedRun : List (ServerAction Unit Bool) :=
  let accept := [.poll false [.channel .accept], .accept 7 .Connected true (), .establish]
  let inputs := ⟨(), [.eof], 0, .accepts 0, .accepts 0⟩
  accept ++ List.replicate 4 (.proceed false) ++
    [.poll true [.channel (.connection 0 EPOLLIN)], .event true inputs, .close true] ++
    List.replicate 4 (.proceed true) ++ [.poll false [.wakeup]] ++
    List.replicate 7 (.proceed false) ++ [.poll true [.wakeup]] ++
    List.replicate 7 (.proceed true) ++ accept

/-- The first connection is destroyed then, after its `ConnectionDestructor`, and the map
has the second one. -/
theorem connection_lifecycle_fdReused :
    ∃ s k, Reaches (step (HttpServer.construct 0) false [true]) {} s ∧
      s.connection 0 = some k ∧ s.connectionsMap k.fd = some 1 ∧
      k.session.conn.closeRequests ≤ 1 ∧ k.destructions = 1 := by
  have performed : ((perform (step (HttpServer.construct 0) false [true]) {} fdReusedRun).any
      fun s => (s.connection 0).any fun k =>
        s.connectionsMap k.fd = some 1 ∧ ¬ s.Held 0) = true := by
    decide +kernel
  obtain ⟨s, performed, known⟩ := (Option.any_eq_true _ _).mp performed
  obtain ⟨k, found, reused⟩ := (Option.any_eq_true _ _).mp known
  obtain ⟨mapped, destroyed⟩ := of_decide_eq_true reused
  have reaches := reaches_of_perform performed
  obtain ⟨once, -, -, -, destructed, -⟩ := (connection_lifecycle reaches).1 0 k found
  exact ⟨s, k, reaches, found, mapped, once, destructed destroyed⟩

end TcpServer

end CppFileServer.Tcp
