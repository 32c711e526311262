/-
# Tcp.Rest -- what the loops have done when all of them are blocked

Every loop of the server is one of the loops of `Tcp.EventLoop`, with no thread
between a push and its wake-up, so that its invariant is theirs: a loop is not
blocked for good with a task in its list.  So when all loops are blocked no
connection is on its way from one stage to the next.
-/
import CppFileServer.Tcp.Asserts
import CppFileServer.Tcp.Sessions

namespace CppFileServer.Tcp

set_option autoImplicit false

open CppFileServer.Cpp CppFileServer.Http CppFileServer.Theory

/-! ## A loop of the server among the threads -/

namespace EventLoop

variable {loop loop' : EventLoop Ready Task}

/-- The invariant of the interleavings, where each `QueueOneFunc` is complete. -/
def Awake (loop : EventLoop Ready Task) : Prop :=
  Threads.Invariant ({ loop := loop } : Threads Ready Task Unit)

namespace Awake

theorem handling (awake : loop.Awake) {before after : List (Active Ready)}
    (handling : loop.phase = .handling before)
    (same : after.count .wakeup = before.count .wakeup) :
    ({ loop with phase := .handling after } : EventLoop Ready Task).Awake := by
  obtain ⟨order, calling, readable, -, -⟩ := awake
  refine ⟨?_, ?_, readable.handling handling same, ?_, ?_⟩
  · simpa [InOrder, round, handling] using order
  · simpa [Calling, handling] using calling
  · intro impossible
    cases impossible
  · intro impossible
    cases impossible

theorem poll (awake : loop.Awake) {ready : List (Active Ready)}
    (polled : loop.poll ready = some loop') : loop'.Awake :=
  Threads.poll_invariant awake polled

theorem proceed (awake : loop.Awake) (proceeded : loop.proceed = some (.ok loop')) :
    loop'.Awake :=
  Threads.proceed_invariant awake rfl proceeded

/-- A task is queued by another thread, or by the thread of the loop in a callback or a task. -/
theorem queueOneFunc (awake : loop.Awake) {inLoopThread : Bool} {f : Task}
    (busy : inLoopThread = true →
      (∃ ready, loop.phase = .handling ready) ∨ ∃ done rest, loop.phase = .running done rest)
    (queued : loop.queueOneFunc inLoopThread f = .ok loop') : loop'.Awake := by
  unfold EventLoop.queueOneFunc at queued
  split_ifs at queued with wakes
  · -- the thread pushes, and writes before anything else is done
    have pushed : Threads.Invariant
        ({ loop := loop.push f, waking := [()], owes := false } : Threads Ready Task Unit) :=
      Threads.push_invariant awake f (by simp) fun _ => Or.inl (by simp)
    exact Threads.write_invariant pushed queued (by simp)
  · cases queued
    obtain ⟨rfl, quiet⟩ : inLoopThread = true ∧ loop.callingFunctors = false := by
      simpa [EventLoop.wakes] using wakes
    -- a callback of a channel: the list is taken before the loop blocks
    have unsettled : ¬ loop.Settled := by
      have calling : loop.Calling := awake.calling
      rcases busy rfl with ⟨ready, handling⟩ | ⟨done, rest, running⟩
      · simp [EventLoop.Settled, handling]
      · simp [EventLoop.Calling, running, quiet] at calling
    exact Threads.push_invariant awake f (by simp) fun settled => absurd settled unsettled

end Awake

/-- A loop that blocks, and that nothing wakes, has no task. -/
theorem Awake.toDoList_eq_nil (awake : loop.Awake) (polling : loop.phase = .polling)
    (quiet : loop.counter = 0) : loop.toDoList = [] := by
  by_contra tasks
  have settled : loop.Settled := by simp [EventLoop.Settled, polling]
  rcases awake.awake settled tasks with pending | waking | owes
  · have pending : 0 < loop.counter := pending
    omega
  · exact absurd rfl waking
  · cases owes

end EventLoop

namespace TcpServer

variable {σ L : Type}

/-! ## What holds of each loop -/

/-- A property of one loop that nothing that is done to a loop breaks. -/
structure KeptByLoop (P : EventLoop Ready Task → Prop) : Prop where
  poll : ∀ {loop loop' : EventLoop Ready Task} {ready : List (Active Ready)}, P loop →
    loop.poll ready = some loop' → P loop'
  proceed : ∀ {loop loop' : EventLoop Ready Task}, P loop →
    loop.proceed = some (.ok loop') → P loop'
  handling : ∀ {loop : EventLoop Ready Task} {before after : List (Active Ready)}, P loop →
    loop.phase = .handling before → after.count .wakeup = before.count .wakeup →
    P { loop with phase := .handling after }
  queueOneFunc : ∀ {loop loop' : EventLoop Ready Task} {inLoopThread : Bool} {f : Task}, P loop →
    (inLoopThread = true →
      (∃ ready, loop.phase = .handling ready) ∨ ∃ done rest, loop.phase = .running done rest) →
    loop.queueOneFunc inLoopThread f = .ok loop' → P loop'

theorem keptByLoop_awake : KeptByLoop EventLoop.Awake where
  poll awake polled := awake.poll polled
  proceed awake proceeded := awake.proceed proceeded
  handling awake handling same := awake.handling handling same
  queueOneFunc awake busy queued := awake.queueOneFunc busy queued

namespace KeptByLoop

variable {P : EventLoop Ready Task → Prop} {main : L} {s t : TcpServer σ L}

variable [DecidableEq L]

theorem queued (kept : KeptByLoop P) (before : ∀ l, P (s.loop l)) {caller l : L} {f : Task}
    (busy : (∃ ready, (s.loop caller).phase = .handling ready) ∨
      ∃ done rest, (s.loop caller).phase = .running done rest)
    (queued : s.queueOneFunc caller l f = .ok t) : ∀ l', P (t.loop l') := by
  obtain ⟨loop, pushed, ended⟩ := bind_eq_ok queued
  cases ended
  refine setLoop_forall (P := fun _ loop => P loop) ?_ fun l' _ => before l'
  apply kept.queueOneFunc (before l) _ pushed
  intro own
  have same : caller = l := by simpa using own
  exact same ▸ busy

theorem handleCloseInLoop (kept : KeptByLoop P) (before : ∀ l, P (s.loop l)) {c : Nat}
    (busy : (∃ ready, (s.loop main).phase = .handling ready) ∨
      ∃ done rest, (s.loop main).phase = .running done rest)
    (closed : s.handleCloseInLoop main c = .ok t) : ∀ l, P (t.loop l) := by
  unfold TcpServer.handleCloseInLoop at closed
  split at closed
  · cases closed
  · split_ifs at closed
    exact kept.queued (s := ({ s with connectionsMap := _ } : TcpServer σ L).setConnection c _)
      before busy closed

theorem handleClose (kept : KeptByLoop P) (before : ∀ l, P (s.loop l)) {l : L} {c : Nat}
    (busy : ∃ ready, (s.loop l).phase = .handling ready)
    (closed : s.handleClose main l c = .ok t) : ∀ l', P (t.loop l') := by
  unfold TcpServer.handleClose at closed
  split at closed
  · cases closed
  · split_ifs at closed with onMain
    · subst onMain
      exact kept.handleCloseInLoop before (Or.inl busy) closed
    · exact kept.queued (s := s.setConnection c _) before (Or.inl busy) closed

theorem settle (kept : KeptByLoop P) (before : ∀ l, P (s.loop l)) {l : L} {c : Nat}
    {k : Connection σ L} {session : Session σ} {active rest : List (Active Ready)}
    (handling : (s.loop l).phase = .handling active)
    (same : rest.count .wakeup = active.count .wakeup) :
    ∀ l', P ((s.settle l c k session rest).loop l') := by
  unfold TcpServer.settle
  split_ifs
  · refine setLoop_forall (P := fun _ loop => P loop) ?_ fun l' _ => before l'
    apply kept.handling (before l) handling
    rw [List.count_cons_of_ne (by simp), same]
  · refine setLoop_forall (P := fun _ loop => P loop) ?_ fun l' _ => before l'
    exact kept.handling (before l) handling same

/-- **Step lemma**: no step of any loop breaks it, of its own loop or of another one. -/
theorem step [Fintype L] {server : HttpServer σ} {loops : List L} (kept : KeptByLoop P)
    (invariant : Invariant main s) (before : ∀ l, P (s.loop l)) {action : ServerAction σ L}
    (stepped : s.step server main loops action = some (.ok t)) : ∀ l, P (t.loop l) := by
  cases steps_of_step stepped with
  | @poll l ready loop reported polled =>
      exact setLoop_forall (P := fun _ loop => P loop) (kept.poll (before l) polled)
        fun l' _ => before l'
  | @accept fd state completeHeaders world rest handling notOpen =>
      refine setLoop_forall (P := fun _ loop => P loop) ?_ fun l' _ => before l'
      apply kept.handling (before main) handling
      rw [List.count_cons_of_ne (by simp), List.count_cons_of_ne (by simp)]
  | @establish c k rest handling found =>
      refine setLoop_forall (P := fun _ loop => P loop) ?_ fun l' _ => before l'
      apply kept.handling (before main) handling
      rw [List.count_cons_of_ne (by simp)]
  | event handling found held handled =>
      apply kept.settle before handling
      rw [List.count_cons_of_ne (by simp)]
  | timer handling found held set own => exact kept.settle before handling rfl
  | expired found => exact before
  | @close l c rest t handling closed =>
      refine kept.handleClose (s := s.setLoop l _) ?_ ⟨rest, ?_⟩ closed
      · refine setLoop_forall (P := fun _ loop => P loop) ?_ fun l' _ => before l'
        apply kept.handling (before l) handling
        rw [List.count_cons_of_ne (by simp)]
      · rw [setLoop_self]
  | @proceed l loop proceeded noTask noCallback =>
      exact setLoop_forall (P := fun _ loop => P loop) (kept.proceed (before l) proceeded)
        fun l' _ => before l'
  | @task l f done rest loop t running proceeded ran =>
      have started : ∀ l', P ((s.setLoop l loop).loop l') :=
        setLoop_forall (P := fun _ loop => P loop) (kept.proceed (before l) proceeded)
          fun l' _ => before l'
      cases f with
      | handleCloseInLoop c =>
          obtain ⟨head, -, -⟩ := EventLoop.started_eq running proceeded
          obtain ⟨k, -, token⟩ := token_of_head invariant head
          obtain ⟨-, rfl⟩ := Connection.token_handleCloseInLoop token
          refine kept.handleCloseInLoop started (Or.inr ⟨done ++ [.handleCloseInLoop c], rest, ?_⟩) ran
          rw [setLoop_self]
          simp only [EventLoop.proceed, running, Option.some.injEq, Except.ok.injEq] at proceeded
          rw [← proceeded]
      | connectionDestructor c =>
          have ran : (s.setLoop l loop).connectionDestructor c = .ok t := ran
          unfold TcpServer.connectionDestructor at ran
          split at ran
          · cases ran
          · cases ran
            exact started

end KeptByLoop

/-! ## When all loops are blocked -/

/-- Every loop is in `Poll`, and nothing has written to its eventfd. -/
def Blocked (s : TcpServer σ L) : Prop :=
  ∀ l, (s.loop l).phase = .polling ∧ (s.loop l).counter = 0

section Blocked

variable [DecidableEq L] [Fintype L] {server : HttpServer σ} {main : L} {loops : List L}
  {s : TcpServer σ L}

theorem awake_of_reaches (reaches : Reaches (step server main loops) {} s) (l : L) :
    (s.loop l).Awake := by
  have both : Invariant main s ∧ ∀ l, (s.loop l).Awake := by
    refine reaches.invariant (P := fun s => Invariant main s ∧ ∀ l, (s.loop l).Awake) ?_
      ⟨(initial_kept server main loops).1, fun _ => Threads.initial_invariant⟩
    rintro s action t ⟨invariant, awake⟩ stepped
    exact ⟨(step_advances invariant stepped).invariant,
      keptByLoop_awake.step invariant awake stepped⟩
  exact both.2 l

/-- No work and no reference is left in a blocked loop. -/
theorem idle_of_blocked (reaches : Reaches (step server main loops) {} s) (blocked : s.Blocked)
    (l : L) : (s.loop l).work = [] ∧ (s.loop l).held = [] := by
  obtain ⟨polling, quiet⟩ := blocked l
  obtain ⟨work, held, -⟩ := EventLoop.polling_eq polling
  have noTasks := (awake_of_reaches reaches l).toDoList_eq_nil polling quiet
  rw [work, held, noTasks]
  exact ⟨rfl, rfl⟩

/-- Only the map refers to a connection then. -/
theorem held_of_blocked (reaches : Reaches (step server main loops) {} s) (blocked : s.Blocked)
    {c : Nat} {k : Connection σ L} (found : s.connection c = some k) :
    s.Held c ↔ s.connectionsMap k.fd = some c := by
  constructor
  · rintro (⟨k', found', mapped⟩ | ⟨l, inside⟩)
    · rw [found] at found'
      cases found'
      exact mapped
    · rw [(idle_of_blocked reaches blocked l).2] at inside
      cases inside
  · exact fun mapped => Or.inl ⟨k, found, mapped⟩

theorem stage_of_blocked (reaches : Reaches (step server main loops) {} s) (blocked : s.Blocked)
    {c : Nat} {k : Connection σ L} (found : s.connection c = some k) :
    k.stage = .established ∨ k.stage = .destructed := by
  -- any other stage would have its work in some loop
  have noToken : k.token main c = none := by
    cases token : k.token main c with
    | none => rfl
    | some place =>
        obtain ⟨l, w⟩ := place
        have conn := Connection.token_conn token
        have inside : w ∈ (s.loop l).work :=
          ((reaches_invariant reaches).work l w).mpr ⟨k, conn ▸ found, conn ▸ token⟩
        rw [(idle_of_blocked reaches blocked l).1] at inside
        cases inside
  unfold Connection.token at noToken
  cases stage : k.stage <;> simp [stage] at noToken <;> simp

/-- A connection of which `on_close_` has been called is over, and its descriptor closed. -/
theorem over_of_blocked (reaches : Reaches (step server main loops) {} s) (blocked : s.Blocked)
    {c : Nat} {k : Connection σ L} (found : s.connection c = some k)
    (later : k.stage ≠ .established) :
    Closed k.session ∧ k.destructions = 1 ∧ k.session.conn.channel.registered = none ∧
      ¬ s.Held c := by
  have stage := (stage_of_blocked reaches blocked found).resolve_left later
  have healthy := (reaches_invariant reaches).healthy c k found
  simp only [Connection.Healthy, stage] at healthy
  obtain ⟨closed, destructed, unregistered⟩ := healthy
  refine ⟨closed, destructed, unregistered, ?_⟩
  rw [held_of_blocked reaches blocked found, (reaches_invariant reaches).mapped]
  rintro ⟨k', found', -, mapped⟩
  rw [found] at found'
  cases found'
  simp [stage, Stage.mapped] at mapped

/-- **Nothing is half done when all loops are blocked.**  A connection is then in service:
connected, in the map under its descriptor and never closed.  Or it is over: `on_close_` and
`ConnectionDestructor` have each been called once, epoll does not know its descriptor, and
no `shared_ptr` to it is left.  So the open descriptors are the keys of the map. -/
theorem blocked_settled (reaches : Reaches (step server main loops) {} s) (blocked : s.Blocked) :
    (∀ c k, s.connection c = some k →
      (k.session.conn.state = .Connected ∧ k.session.conn.closeRequests = 0 ∧ k.destructions = 0 ∧
        s.connectionsMap k.fd = some c) ∨
      (k.session.conn.state = .Disconected ∧ k.session.conn.closeRequests = 1 ∧
        k.destructions = 1 ∧ k.session.conn.channel.registered = none ∧ ¬ s.Held c)) ∧
    ∀ fd, s.fdOpen fd = true ↔ ∃ c, s.connectionsMap fd = some c := by
  have invariant := reaches_invariant reaches
  refine ⟨?_, ?_⟩
  · intro c k found
    by_cases stage : k.stage = .established
    · have healthy := invariant.healthy c k found
      simp only [Connection.Healthy, stage] at healthy
      exact Or.inl ⟨healthy.2.1, healthy.1, healthy.2.2,
        mapped_of_stage invariant found (by simp [stage, Stage.mapped])⟩
    · obtain ⟨closed, gone⟩ := over_of_blocked reaches blocked found stage
      exact Or.inr ⟨closed.state, closed.requests, gone⟩
  · intro fd
    constructor
    · intro isOpen
      simp only [fdOpen, List.any_eq_true, List.mem_range] at isOpen
      obtain ⟨c, -, isOpen⟩ := isOpen
      cases found : s.connection c with
      | none => simp [found] at isOpen
      | some k =>
          simp only [found, Bool.and_eq_true, beq_iff_eq, decide_eq_true_eq] at isOpen
          obtain ⟨rfl, held⟩ := isOpen
          exact ⟨c, (held_of_blocked reaches blocked found).mp held⟩
    · rintro ⟨c, mapped⟩
      exact fdOpen_of_mapped invariant mapped

end Blocked

/-- The first connection of the run is over and the second one is in service. -/
theorem blocked_settled_fdReused :
    ∃ (s : TcpServer Unit Bool) (k k' : Connection Unit Bool),
      s.Blocked ∧ s.connection 0 = some k ∧ s.connection 1 = some k' ∧ k.fd = k'.fd ∧
        k.destructions = 1 ∧ ¬ s.Held 0 ∧ k'.session.conn.state = .Connected ∧
        s.fdOpen k'.fd = true := by
  have performed : ((perform (step (HttpServer.construct 0) false [true]) {}
      (fdReusedRun ++ List.replicate 4 (.proceed false))).any fun s =>
        (∀ l, (s.loop l).phase = .polling ∧ (s.loop l).counter = 0) &&
        (s.connection 0).any fun k => (s.connection 1).any fun k' =>
          k.fd = k'.fd ∧ k.session.conn.state = .Disconected ∧
            s.connectionsMap k'.fd = some 1) = true := by
    decide +kernel
  obtain ⟨s, performed, known⟩ := (Option.any_eq_true _ _).mp performed
  rw [Bool.and_eq_true, decide_eq_true_eq] at known
  obtain ⟨blocked, known⟩ := known
  obtain ⟨k, found, known⟩ := (Option.any_eq_true _ _).mp known
  obtain ⟨k', found', known⟩ := (Option.any_eq_true _ _).mp known
  obtain ⟨same, shut, mapped⟩ := of_decide_eq_true known
  obtain ⟨settled, isOpen⟩ := blocked_settled (reaches_of_perform performed) blocked
  refine ⟨s, k, k', blocked, found, found', same, ?_⟩
  have gone : k.destructions = 1 ∧ ¬ s.Held 0 := by
    rcases settled 0 k found with ⟨connected, -⟩ | ⟨-, -, destructed, -, destroyed⟩
    · rw [shut] at connected
      cases connected
    · exact ⟨destructed, destroyed⟩
  have serves : k'.session.conn.state = .Connected := by
    rcases settled 1 k' found' with ⟨connected, -⟩ | ⟨-, -, -, -, destroyed⟩
    · exact connected
    · exact absurd (Or.inl ⟨k', found', mapped⟩) destroyed
  exact ⟨gone.1, gone.2, serves, (isOpen k'.fd).mpr ⟨1, mapped⟩⟩

end TcpServer

end CppFileServer.Tcp
