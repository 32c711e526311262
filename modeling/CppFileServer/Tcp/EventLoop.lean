/-
# Tcp.EventLoop -- the loop of a thread, its tasks and its wake-ups

A loop blocks in `Poll`, handles the ready channels, runs the tasks that other
threads and its own callbacks have queued, and starts again.  `EventLoop` is the
object with the place its thread has reached; `pushed` and `ran` are not in the
source but record the tasks queued and started so far.

`Threads` adds the threads that are between the push and the wake-up write of
`QueueOneFunc`, so that the two can be any number of steps apart.
-/
import CppFileServer.Cpp.Basic
import CppFileServer.Theory.Machine

namespace CppFileServer.Tcp

set_option autoImplicit false

open CppFileServer.Cpp CppFileServer.Theory

/-- A channel that `Poll` returned: the wake-up channel of the loop, or another one. -/
inductive Active (E : Type)
  | wakeup
  | channel (event : E)
  deriving DecidableEq

/-- Where the thread of the loop is. -/
inductive Phase (E F : Type)
  /-- In `poller_->Poll()`. -/
  | polling
  /-- `HandleEvent` of the first of these channels is running. -/
  | handling (ready : List (Active E))
  /-- `calling_functors_` is set, the tasks not yet taken. -/
  | swapping
  /-- The tasks of the round that have been started, and the others. -/
  | running (done rest : List F)
  /-- The tasks of the round that are still to be destroyed. -/
  | releasing (functors : List F)
  deriving DecidableEq

structure EventLoop (E F : Type) where
  phase : Phase E F := .polling
  toDoList : List F := []
  callingFunctors : Bool := false
  /-- The counter of the eventfd `wakeup_fd_`. -/
  counter : Nat := 0
  pushed : List F := []
  ran : List F := []
  deriving DecidableEq

/-- A write to an eventfd fails when the counter would pass this value. -/
def eventfdMax : Nat := 2 ^ 64 - 2

namespace EventLoop

variable {E F : Type}

/-! ## QueueOneFunc -/

/-- The block of `QueueOneFunc` under the mutex. -/
def push (loop : EventLoop E F) (f : F) : EventLoop E F :=
  { loop with toDoList := loop.toDoList ++ [f], pushed := loop.pushed ++ [f] }

/-- The test of `QueueOneFunc`, in the thread of the loop or in another one. -/
def wakes (loop : EventLoop E F) (inLoopThread : Bool) : Bool :=
  !inLoopThread || loop.callingFunctors

/-- The write of `QueueOneFunc`, with its assertion. -/
def wakeup (loop : EventLoop E F) : Result (EventLoop E F) :=
  if loop.counter < eventfdMax then .ok { loop with counter := loop.counter + 1 }
  else .error .assertion

def queueOneFunc (loop : EventLoop E F) (inLoopThread : Bool) (f : F) : Result (EventLoop E F) :=
  if loop.wakes inLoopThread then (loop.push f).wakeup else .ok (loop.push f)

/-! ## Loop, DoToDoList and HandleRead -/

/-- `Poll` may return these channels: the wake-up channel only with a positive counter. -/
def poll [DecidableEq E] (loop : EventLoop E F) (ready : List (Active E)) :
    Option (EventLoop E F) :=
  match loop.phase with
  | .polling =>
      if ready.count .wakeup = 0 ∨ ready.count .wakeup = 1 ∧ 0 < loop.counter then
        some { loop with phase := .handling ready }
      else none
  | _ => none

/-- The read of the eventfd, with its assertion. -/
def handleRead (loop : EventLoop E F) : Result (EventLoop E F) :=
  if 0 < loop.counter then .ok { loop with counter := 0 } else .error .assertion

/-- The next step of the thread in `Loop`, when it is in none of the callbacks; a
channel other than the wake-up channel has been handled when it is left. -/
def proceed (loop : EventLoop E F) : Option (Result (EventLoop E F)) :=
  match loop.phase with
  | .polling => none
  | .handling (.wakeup :: rest) => some do
      let loop ← loop.handleRead
      pure { loop with phase := .handling rest }
  | .handling (.channel _ :: rest) => some (.ok { loop with phase := .handling rest })
  | .handling [] => some (.ok { loop with phase := .swapping, callingFunctors := true })
  | .swapping => some (.ok { loop with phase := .running [] loop.toDoList, toDoList := [] })
  | .running done (f :: rest) =>
      some (.ok { loop with phase := .running (done ++ [f]) rest, ran := loop.ran ++ [f] })
  | .running done [] => some (.ok { loop with phase := .releasing done, callingFunctors := false })
  | .releasing (_ :: functors) => some (.ok { loop with phase := .releasing functors })
  | .releasing [] => some (.ok { loop with phase := .polling })

/-- The thread is in a callback of a channel or in a task. -/
def inCallback (loop : EventLoop E F) : Bool :=
  match loop.phase with
  | .handling (.channel _ :: _) => true
  | .running (_ :: _) _ => true
  | _ => false

/-- The channels of the last `Poll` that have not been handled. -/
def ready (loop : EventLoop E F) : List (Active E) :=
  match loop.phase with
  | .handling ready => ready
  | _ => []

/-- The tasks of the round that have not been destroyed. -/
def functors (loop : EventLoop E F) : List F :=
  match loop.phase with
  | .running done rest => done ++ rest
  | .releasing functors => functors
  | _ => []

/-- The tasks of the round that have not been started. -/
def round (loop : EventLoop E F) : List F :=
  match loop.phase with
  | .running _ rest => rest
  | _ => []

end EventLoop

/-! ## Interleavings -/

/-- A loop among threads: those that have pushed a task and not yet written, and
whether the thread of the loop is one of them. -/
structure Threads (E F T : Type) where
  loop : EventLoop E F := {}
  waking : List T := []
  owes : Bool := false
  deriving DecidableEq

inductive LoopAction (E F T : Type)
  | poll (ready : List (Active E))
  | proceed
  /-- `QueueOneFunc` in the thread of the loop, up to its test. -/
  | loopPush (f : F)
  | loopWrite
  /-- `QueueOneFunc` in another thread, up to its test. -/
  | otherPush (thread : T) (f : F)
  | otherWrite (thread : T)

namespace Threads

variable {E F T : Type} [DecidableEq E] [DecidableEq T]

def step (s : Threads E F T) : LoopAction E F T → Option (Result (Threads E F T))
  | .poll ready => (s.loop.poll ready).map fun loop => .ok { s with loop := loop }
  | .proceed =>
      if s.owes then none
      else s.loop.proceed.map fun proceeded => (do
        let loop ← proceeded
        pure { s with loop := loop })
  | .loopPush f =>
      if s.loop.inCallback ∧ ¬ s.owes then
        some (.ok { s with loop := s.loop.push f, owes := s.loop.wakes true })
      else none
  | .loopWrite =>
      if s.owes then some do
        let loop ← s.loop.wakeup
        pure { s with loop := loop, owes := false }
      else none
  | .otherPush thread f =>
      if thread ∈ s.waking then none
      else some (.ok { s with loop := s.loop.push f, waking := thread :: s.waking })
  | .otherWrite thread =>
      if thread ∈ s.waking then some do
        let loop ← s.loop.wakeup
        pure { s with loop := loop, waking := s.waking.erase thread }
      else none

end Threads

/-! ## What each operation leaves alone -/

namespace EventLoop

variable {E F : Type}

@[simp] theorem push_phase (loop : EventLoop E F) (f : F) : (loop.push f).phase = loop.phase := rfl

@[simp] theorem push_toDoList (loop : EventLoop E F) (f : F) :
    (loop.push f).toDoList = loop.toDoList ++ [f] := rfl

@[simp] theorem push_callingFunctors (loop : EventLoop E F) (f : F) :
    (loop.push f).callingFunctors = loop.callingFunctors := rfl

@[simp] theorem push_counter (loop : EventLoop E F) (f : F) :
    (loop.push f).counter = loop.counter := rfl

@[simp] theorem push_pushed (loop : EventLoop E F) (f : F) :
    (loop.push f).pushed = loop.pushed ++ [f] := rfl

@[simp] theorem push_ran (loop : EventLoop E F) (f : F) : (loop.push f).ran = loop.ran := rfl

theorem wakeup_eq_ok {loop loop' : EventLoop E F} (wrote : loop.wakeup = .ok loop') :
    loop' = { loop with counter := loop.counter + 1 } := by
  unfold wakeup at wrote
  split_ifs at wrote
  exact (Except.ok.inj wrote).symm

theorem poll_eq_some [DecidableEq E] {loop loop' : EventLoop E F} {ready : List (Active E)}
    (polled : loop.poll ready = some loop') :
    loop.phase = .polling ∧
      (ready.count .wakeup = 0 ∨ ready.count .wakeup = 1 ∧ 0 < loop.counter) ∧
      loop' = { loop with phase := .handling ready } := by
  unfold poll at polled
  split at polled
  · split_ifs at polled with reported
    exact ⟨‹_›, reported, (Option.some.inj polled).symm⟩
  · cases polled

/-- Tasks in the order they were queued: those started, the rest of the round, and the
list that the next round takes. -/
def InOrder (loop : EventLoop E F) : Prop :=
  loop.pushed = loop.ran ++ loop.round ++ loop.toDoList

/-- The thread has taken the tasks of a round and will block before it takes the next. -/
def Settled (loop : EventLoop E F) : Prop :=
  match loop.phase with
  | .polling => True
  | .running _ _ => True
  | .releasing _ => True
  | _ => False

/-- `calling_functors_` is set from before the swap to the end of the round. -/
def Calling (loop : EventLoop E F) : Prop :=
  match loop.phase with
  | .swapping => loop.callingFunctors = true
  | .running _ _ => loop.callingFunctors = true
  | _ => loop.callingFunctors = false

/-- A wake-up channel that was returned is still readable. -/
def Readable [DecidableEq E] (loop : EventLoop E F) : Prop :=
  match loop.phase with
  | .handling ready => ready.count .wakeup = 0 ∨ ready.count .wakeup = 1 ∧ 0 < loop.counter
  | _ => True

end EventLoop

/-! ## No task and no wake-up is lost -/

namespace Threads

variable {E F T : Type} [DecidableEq E]

/-- The invariant of the interleavings. -/
structure Invariant (s : Threads E F T) : Prop where
  order : s.loop.InOrder
  calling : s.loop.Calling
  readable : s.loop.Readable
  /-- Only a task makes the thread of the loop write. -/
  owing : s.owes = true → ∃ done rest, s.loop.phase = .running done rest
  awake : s.loop.Settled → s.loop.toDoList ≠ [] →
    0 < s.loop.counter ∨ s.waking ≠ [] ∨ s.owes = true

theorem initial_invariant : Invariant ({} : Threads E F T) where
  order := rfl
  calling := rfl
  readable := trivial
  owing := by
    intro impossible
    cases impossible
  awake := by
    intro _ impossible
    exact absurd rfl impossible

theorem poll_invariant {s : Threads E F T} {loop : EventLoop E F} {ready : List (Active E)}
    (invariant : Invariant s) (polled : s.loop.poll ready = some loop) :
    Invariant { s with loop := loop } := by
  obtain ⟨polling, reported, rfl⟩ := EventLoop.poll_eq_some polled
  obtain ⟨order, calling, readable, owing, awake⟩ := invariant
  refine ⟨?_, ?_, reported, ?_, ?_⟩
  · simpa [EventLoop.InOrder, EventLoop.round, polling] using order
  · simpa [EventLoop.Calling, polling] using calling
  · intro owes
    obtain ⟨done, rest, running⟩ := owing owes
    rw [polling] at running
    cases running
  · intro impossible
    cases impossible

theorem proceed_invariant {s : Threads E F T} {loop : EventLoop E F} (invariant : Invariant s)
    (free : s.owes = false) (proceeded : s.loop.proceed = some (.ok loop)) :
    Invariant { s with loop := loop } := by
  obtain ⟨order, calling, readable, -, awake⟩ := invariant
  have owing (owes : s.owes = true) : ∃ done rest, loop.phase = .running done rest := by
    rw [free] at owes
    cases owes
  unfold EventLoop.InOrder EventLoop.round at order
  unfold EventLoop.Calling at calling
  unfold EventLoop.Readable at readable
  unfold EventLoop.Settled at awake
  unfold EventLoop.proceed at proceeded
  cases phase : s.loop.phase with
  | polling => simp [phase] at proceeded
  | handling ready =>
      simp only [phase] at order calling readable proceeded
      cases ready with
      | nil =>
          cases proceeded
          exact ⟨order, rfl, trivial, owing, fun impossible => by cases impossible⟩
      | cons active ready =>
          cases active with
          | wakeup =>
              obtain ⟨read, handled, left⟩ := bind_eq_ok (Option.some.inj proceeded)
              cases left
              unfold EventLoop.handleRead at handled
              split_ifs at handled
              cases handled
              refine ⟨order, calling, Or.inl ?_, owing, fun impossible => by cases impossible⟩
              rw [List.count_cons_self] at readable
              omega
          | channel event =>
              cases proceeded
              refine ⟨order, calling, ?_, owing, fun impossible => by cases impossible⟩
              rwa [List.count_cons_of_ne (by simp)] at readable
  | swapping =>
      simp only [phase] at order calling proceeded
      cases proceeded
      refine ⟨?_, calling, trivial, owing, fun _ impossible => absurd rfl impossible⟩
      simpa [EventLoop.InOrder, EventLoop.round] using order
  | running done rest =>
      simp only [phase] at order calling awake proceeded
      cases rest with
      | nil =>
          cases proceeded
          exact ⟨order, rfl, trivial, owing, awake⟩
      | cons f rest =>
          cases proceeded
          refine ⟨?_, calling, trivial, owing, awake⟩
          simpa [EventLoop.InOrder, EventLoop.round] using order
  | releasing functors =>
      simp only [phase] at order calling awake proceeded
      cases functors with
      | nil =>
          cases proceeded
          exact ⟨order, calling, trivial, owing, awake⟩
      | cons f functors =>
          cases proceeded
          exact ⟨order, calling, trivial, owing, awake⟩

/-- A task that a thread which will write has queued keeps the invariant. -/
theorem push_invariant {s : Threads E F T} (invariant : Invariant s) (f : F) {waking : List T}
    {owes : Bool} (running : owes = true → ∃ done rest, s.loop.phase = .running done rest)
    (writes : s.loop.Settled → waking ≠ [] ∨ owes = true) :
    Invariant { loop := s.loop.push f, waking := waking, owes := owes } where
  order := by
    have order := invariant.order
    unfold EventLoop.InOrder EventLoop.round at *
    simp [order]
  calling := invariant.calling
  readable := invariant.readable
  owing := running
  awake := by
    intro settled _
    exact Or.inr (writes settled)

theorem write_invariant {s : Threads E F T} {loop : EventLoop E F} (invariant : Invariant s)
    (wrote : s.loop.wakeup = .ok loop) {waking : List T} {owes : Bool}
    (running : owes = true → ∃ done rest, s.loop.phase = .running done rest) :
    Invariant { loop := loop, waking := waking, owes := owes } := by
  rw [EventLoop.wakeup_eq_ok wrote]
  obtain ⟨order, calling, readable, -, -⟩ := invariant
  refine ⟨order, calling, ?_, running, fun _ _ => Or.inl (Nat.succ_pos _)⟩
  unfold EventLoop.Readable at *
  cases phase : s.loop.phase with
  | handling ready =>
      simp only [phase] at readable ⊢
      omega
  | polling => simp
  | swapping => simp
  | running done rest => simp
  | releasing functors => simp

/-- A task that the loop's own thread has queued: it will write if no other turn of the loop is
sure to come. -/
theorem loopPush_invariant {s : Threads E F T} (invariant : Invariant s)
    (inCallback : s.loop.inCallback = true) (f : F) :
    Invariant { s with loop := s.loop.push f, owes := s.loop.wakes true } := by
  have calling := invariant.calling
  unfold EventLoop.inCallback at inCallback
  unfold EventLoop.Calling at calling
  have writes : s.loop.wakes true = s.loop.callingFunctors := by simp [EventLoop.wakes]
  apply push_invariant invariant f
  · intro owes
    rw [writes] at owes
    cases phase : s.loop.phase with
    | running done rest => exact ⟨done, rest, rfl⟩
    | polling => simp [phase] at inCallback
    | handling ready => simp [phase, owes] at calling
    | swapping => simp [phase] at inCallback
    | releasing functors => simp [phase] at inCallback
  · intro settled
    rw [writes]
    unfold EventLoop.Settled at settled
    cases phase : s.loop.phase with
    | running done rest =>
        simp only [phase] at calling
        exact Or.inr calling
    | polling => simp [phase] at inCallback
    | handling ready => simp [phase] at settled
    | swapping => simp [phase] at inCallback
    | releasing functors => simp [phase] at inCallback

variable [DecidableEq T]

theorem step_invariant {s t : Threads E F T} {action : LoopAction E F T} (invariant : Invariant s)
    (stepped : s.step action = some (.ok t)) : Invariant t := by
  cases action with
  | poll ready =>
      obtain ⟨loop, polled, same⟩ := Option.map_eq_some_iff.mp stepped
      cases same
      exact poll_invariant invariant polled
  | proceed =>
      rw [step] at stepped
      split_ifs at stepped with owes
      obtain ⟨outcome, proceeded, same⟩ := Option.map_eq_some_iff.mp stepped
      obtain ⟨loop, returned, same⟩ := bind_eq_ok same
      cases same
      exact proceed_invariant invariant (by simpa using owes) (by rw [proceeded, returned])
  | loopPush f =>
      rw [step] at stepped
      split_ifs at stepped with free
      cases stepped
      exact loopPush_invariant invariant free.1 f
  | loopWrite =>
      rw [step] at stepped
      split_ifs at stepped
      obtain ⟨loop, wrote, same⟩ := bind_eq_ok (Option.some.inj stepped)
      cases same
      exact write_invariant invariant wrote (fun impossible => by cases impossible)
  | otherPush thread f =>
      rw [step] at stepped
      split_ifs at stepped
      cases stepped
      apply push_invariant invariant f invariant.owing
      intro _
      exact Or.inl (List.cons_ne_nil _ _)
  | otherWrite thread =>
      rw [step] at stepped
      split_ifs at stepped
      obtain ⟨loop, wrote, same⟩ := bind_eq_ok (Option.some.inj stepped)
      cases same
      exact write_invariant invariant wrote invariant.owing

/-- The read of a wake-up channel that `Poll` returned never fails its assertion. -/
theorem handleRead_returns {s : Threads E F T} (reaches : Reaches step {} s)
    {rest : List (Active E)} (handling : s.loop.phase = .handling (.wakeup :: rest)) :
    ∃ loop, s.loop.handleRead = .ok loop := by
  have invariant : Invariant s :=
    reaches.invariant (fun _ _ _ => step_invariant) initial_invariant
  have readable := invariant.readable
  simp only [EventLoop.Readable, handling, List.count_cons_self] at readable
  exact ⟨_, if_pos (by omega)⟩

/-- Nothing joins a round once it has begun. -/
theorem round_suffix {s t : Threads E F T} {action : LoopAction E F T} {done rest : List F}
    (running : s.loop.phase = .running done rest) (stepped : s.step action = some (.ok t)) :
    t.loop.round <:+ rest := by
  have same {loop : EventLoop E F} (unmoved : loop.phase = s.loop.phase) :
      loop.round <:+ rest := by
    simp [EventLoop.round, unmoved, running]
  cases action with
  | poll ready => simp [step, EventLoop.poll, running] at stepped
  | proceed =>
      rw [step] at stepped
      split_ifs at stepped
      unfold EventLoop.proceed at stepped
      simp only [running] at stepped
      cases rest with
      | nil =>
          cases stepped
          exact List.nil_suffix
      | cons f rest =>
          cases stepped
          exact List.suffix_cons f rest
  | loopPush f =>
      rw [step] at stepped
      split_ifs at stepped
      cases stepped
      exact same rfl
  | loopWrite =>
      rw [step] at stepped
      split_ifs at stepped
      obtain ⟨loop, wrote, ended⟩ := bind_eq_ok (Option.some.inj stepped)
      cases ended
      exact same (by rw [EventLoop.wakeup_eq_ok wrote])
  | otherPush thread f =>
      rw [step] at stepped
      split_ifs at stepped
      cases stepped
      exact same rfl
  | otherWrite thread =>
      rw [step] at stepped
      split_ifs at stepped
      obtain ⟨loop, wrote, ended⟩ := bind_eq_ok (Option.some.inj stepped)
      cases ended
      exact same (by rw [EventLoop.wakeup_eq_ok wrote])

/-- **No task is lost, repeated or reordered, and no wake-up is lost.**  The tasks pushed
so far are those started, then the rest of the round, then `to_do_list_`; what is pushed
during a round stays out of it; and a loop that blocks in `Poll` on a non-empty list has
a positive counter, or another thread is about to write. -/
theorem event_loop_loses_nothing {s : Threads E F T} (reaches : Reaches step {} s) :
    s.loop.pushed = s.loop.ran ++ s.loop.round ++ s.loop.toDoList ∧
      (∀ done rest, s.loop.phase = .running done rest →
        ∀ action t, s.step action = some (.ok t) → t.loop.round <:+ rest) ∧
      (s.loop.phase = .polling → s.loop.toDoList ≠ [] →
        0 < s.loop.counter ∨ ∃ thread, thread ∈ s.waking) := by
  have invariant : Invariant s :=
    reaches.invariant (fun _ _ _ => step_invariant) initial_invariant
  refine ⟨invariant.order, fun _ _ running _ _ => round_suffix running, ?_⟩
  intro polling waiting
  have settled : s.loop.Settled := by simp [EventLoop.Settled, polling]
  rcases invariant.awake settled waiting with counted | between | owes
  · exact Or.inl counted
  · exact Or.inr (List.exists_mem_of_ne_nil _ between)
  · obtain ⟨done, rest, running⟩ := invariant.owing owes
    rw [polling] at running
    cases running

/-- A run with a task from another thread, one from a callback and one from a task. -/
def mixedRun : List (LoopAction Unit Nat Nat) :=
  [.otherPush 0 7, .otherWrite 0, .poll [.wakeup, .channel ()], .proceed, .loopPush 8, .proceed,
    .proceed, .proceed, .proceed, .loopPush 9, .loopWrite, .proceed, .proceed, .proceed, .proceed,
    .proceed]

/-- It blocks with the third task queued, and its counter is positive. -/
theorem event_loop_loses_nothing_mixedRun :
    ∃ s : Threads Unit Nat Nat, Reaches step {} s ∧ s.loop.phase = .polling ∧
      s.loop.ran = [7, 8] ∧ s.loop.toDoList = [9] ∧
      (0 < s.loop.counter ∨ ∃ thread, thread ∈ s.waking) := by
  obtain ⟨s, performed⟩ : ∃ s, perform step {} mixedRun = some s := ⟨_, rfl⟩
  have reaches := reaches_of_perform performed
  cases performed
  exact ⟨_, reaches, rfl, rfl, rfl,
    (event_loop_loses_nothing reaches).2.2 rfl (List.cons_ne_nil _ _)⟩

end Threads

end CppFileServer.Tcp
