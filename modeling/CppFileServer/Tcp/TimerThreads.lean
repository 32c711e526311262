/-
# Tcp.TimerThreads -- which thread touches which timer queue

`timers_` has no lock, so each queue is safe as long as its own loop alone uses it.
The callbacks of a connection's channel and timers run on its loop.  `onConnection`
does not: `HandleNewConnection` calls `ConnectionEstablished` on the main loop, and
`RunAfter` then inserts into the queue of the loop that was chosen for the connection.

`accesses` are the calls on timer queues that a step of the server makes, each with
its queue and with the thread that makes it.
-/
import CppFileServer.Tcp.TcpServer

namespace CppFileServer.Tcp

set_option autoImplicit false

open CppFileServer.Cpp CppFileServer.Http CppFileServer.Theory

/-- The functions that read or write `timers_`. -/
inductive TimerCall
  | addTimer
  | insert
  | handleRead
  deriving DecidableEq

/-- A call on the timer queue of a loop, by the thread of a loop. -/
structure TimerAccess (L : Type) where
  queue : L
  call : TimerCall
  thread : L
  deriving DecidableEq

/-- The loop whose thread takes a step. -/
def ServerAction.thread {σ L : Type} (main : L) : ServerAction σ L → L
  | .poll l _ => l
  | .accept _ _ _ _ => main
  | .establish => main
  | .event l _ => l
  | .timer l _ _ => l
  | .close l => l
  | .proceed l => l

namespace TcpServer

variable {σ L : Type}

/-- `loop->RunAfter`: `AddTimer`, which calls `Insert`. -/
def runAfter (queue thread : L) : List (TimerAccess L) :=
  [⟨queue, .addTimer, thread⟩, ⟨queue, .insert, thread⟩]

variable (server : HttpServer σ) (main : L) (loops : List L)

/-- The calls on timer queues of one step.  `onConnection` sets a timer on the loop of the
connection when the server closes idle ones, and `HandleActiveClose` when it does not close;
`HandleRead` of a queue runs its timers and ends with the next step of its loop. -/
def accesses [DecidableEq L] [Fintype L] (s : TcpServer σ L) (action : ServerAction σ L) :
    List (TimerAccess L) :=
  match action with
  | .establish =>
      match (s.loop main).phase with
      | .handling (.channel (.establishing c) :: _) =>
          match s.connection c with
          | some k => if server.autoCloseConn then runAfter k.loop (action.thread main) else []
          | none => []
      | _ => []
  | .timer l c now =>
      ⟨l, .handleRead, action.thread main⟩ ::
        match s.connection c with
        | some k =>
            if s.Held c ∧ ¬ k.session.conn.timerstamp + server.timeout < now then
              runAfter k.loop (action.thread main)
            else []
        | none => []
  | .proceed l =>
      match (s.loop l).phase with
      | .handling (.channel .timers :: _) => [⟨l, .handleRead, action.thread main⟩]
      | _ => []
  | _ => []

/-- Every call on a timer queue is made by the thread of its loop. -/
def OwnThread [DecidableEq L] [Fintype L] (s : TcpServer σ L) (action : ServerAction σ L) : Prop :=
  ∀ access ∈ s.accesses server main action, access.queue = access.thread

/-! ## Connections stay where they were put -/

/-- Every connection is on one of the loops, and the next one will be. -/
structure Placed (s : TcpServer σ L) : Prop where
  next : s.next < loops.length
  connection : ∀ c k, s.connection c = some k → k.loop ∈ loops

/-- No connection has appeared or changed its loop. -/
structure Stays (s t : TcpServer σ L) : Prop where
  next : t.next = s.next
  connection : ∀ c k', t.connection c = some k' → ∃ k, s.connection c = some k ∧ k'.loop = k.loop

variable {s t u : TcpServer σ L}

theorem Stays.trans (first : Stays s t) (second : Stays t u) : Stays s u := by
  refine ⟨second.next.trans first.next, ?_⟩
  intro c k'' found
  obtain ⟨k', found', same'⟩ := second.connection c k'' found
  obtain ⟨k, found, same⟩ := first.connection c k' found'
  exact ⟨k, found, same'.trans same⟩

theorem stays_of_same (next : t.next = s.next) (connection : t.connection = s.connection) :
    Stays s t := by
  refine ⟨next, ?_⟩
  intro c k found
  exact ⟨k, connection ▸ found, rfl⟩

theorem stays_update {c : Nat} {k k' : Connection σ L} (found : s.connection c = some k)
    (next : t.next = s.next) (connection : t.connection = Function.update s.connection c (some k'))
    (same : k'.loop = k.loop) : Stays s t := by
  refine ⟨next, ?_⟩
  intro d k₁ found₁
  rw [connection] at found₁
  by_cases here : d = c
  · subst here
    rw [Function.update_self, Option.some.injEq] at found₁
    subst found₁
    exact ⟨k, found, same⟩
  · rw [Function.update_of_ne here] at found₁
    exact ⟨k₁, found₁, rfl⟩

theorem Placed.stays {loops : List L} (placed : Placed loops s) (stays : Stays s t) :
    Placed loops t := by
  refine ⟨stays.next ▸ placed.next, ?_⟩
  intro c k' found
  obtain ⟨k, found, same⟩ := stays.connection c k' found
  exact same ▸ placed.connection c k found

theorem newConnection_connection (s : TcpServer σ L) (main : L) (loops : List L) (fd : Nat)
    (state : ConnectionState) (completeHeaders : Bool) (world : σ) :
    ∃ k, (newConnection main loops s fd state completeHeaders world).connection =
        Function.update s.connection s.created (some k) ∧
      k.loop = (getNextLoop main loops s.next).1 :=
  ⟨_, rfl, rfl⟩

theorem runAfter_own {queue thread : L} (own : queue = thread) {access : TimerAccess L}
    (inside : access ∈ runAfter queue thread) : access.queue = access.thread := by
  rcases List.mem_cons.mp inside with rfl | inserted
  · exact own
  · cases List.mem_singleton.mp inserted
    exact own

variable [DecidableEq L]

theorem queueOneFunc_stays {caller l : L} {f : Task} (queued : s.queueOneFunc caller l f = .ok t) :
    Stays s t := by
  obtain ⟨loop, -, ended⟩ := bind_eq_ok queued
  cases ended
  exact stays_of_same rfl rfl

theorem handleCloseInLoop_stays {main : L} {c : Nat}
    (closed : s.handleCloseInLoop main c = .ok t) : Stays s t := by
  unfold handleCloseInLoop at closed
  split at closed
  · cases closed
  · rename_i k found
    split_ifs at closed
    refine Stays.trans ?_ (queueOneFunc_stays closed)
    exact stays_update found rfl rfl rfl

theorem handleClose_stays {main l : L} {c : Nat} (closed : s.handleClose main l c = .ok t) :
    Stays s t := by
  unfold handleClose at closed
  split at closed
  · cases closed
  · rename_i k found
    split_ifs at closed
    · exact handleCloseInLoop_stays closed
    · refine Stays.trans ?_ (queueOneFunc_stays closed)
      exact stays_update found rfl rfl rfl

theorem runTask_stays {main : L} {f : Task} (ran : s.runTask main f = .ok t) : Stays s t := by
  cases f with
  | handleCloseInLoop c => exact handleCloseInLoop_stays ran
  | connectionDestructor c =>
      rw [runTask, connectionDestructor] at ran
      split at ran
      · cases ran
      · rename_i k found
        cases ran
        exact stays_update found rfl rfl rfl

theorem settle_stays {l : L} {c : Nat} {k k₀ : Connection σ L} {session : Session σ}
    {rest : List (Active Ready)} (found : s.connection c = some k₀) (same : k.loop = k₀.loop) :
    Stays s (s.settle l c k session rest) := by
  unfold settle
  split_ifs
  · exact stays_update found rfl rfl same
  · exact stays_update found rfl rfl same

/-! ## One step -/

variable [Fintype L] {server : HttpServer σ} {main : L} {loops : List L}

/-- Only accepting brings a connection. -/
theorem step_stays {action : ServerAction σ L}
    (noAccept : ∀ fd state completeHeaders world, action ≠ .accept fd state completeHeaders world)
    (stepped : s.step server main loops action = some (.ok t)) : Stays s t := by
  cases steps_of_step stepped with
  | poll reported polled => exact stays_of_same rfl rfl
  | accept handling notOpen => exact absurd rfl (noAccept _ _ _ _)
  | establish handling found => exact stays_update found rfl rfl rfl
  | event handling found held handled => exact settle_stays found rfl
  | timer handling found held set own => exact settle_stays found rfl
  | expired found => exact stays_update found rfl rfl rfl
  | close handling closed =>
      refine Stays.trans ?_ (handleClose_stays closed)
      exact stays_of_same rfl rfl
  | proceed proceeded noTask noCallback => exact stays_of_same rfl rfl
  | task running proceeded ran =>
      refine Stays.trans ?_ (runTask_stays ran)
      exact stays_of_same rfl rfl

/-- **Step lemma**: the connections of every step are on the sub loops. -/
theorem step_placed (placed : Placed loops s) {action : ServerAction σ L}
    (stepped : s.step server main loops action = some (.ok t)) : Placed loops t := by
  by_cases noAccept : ∀ fd state completeHeaders world, action ≠ .accept fd state completeHeaders world
  · exact placed.stays (step_stays noAccept stepped)
  push Not at noAccept
  obtain ⟨fd, state, completeHeaders, world, rfl⟩ := noAccept
  cases steps_of_step stepped
  have nonempty : loops.isEmpty = false := by
    rw [List.isEmpty_eq_false_iff, ← List.length_pos_iff]
    exact Nat.lt_of_le_of_lt (Nat.zero_le _) placed.next
  have chosen : getNextLoop main loops s.next =
      (loops.get ⟨s.next, placed.next⟩, (s.next + 1) % loops.length) := by
    rw [getNextLoop, nonempty, List.getElem?_eq_getElem placed.next]
    rfl
  refine ⟨?_, ?_⟩
  · show (getNextLoop main loops s.next).2 < loops.length
    rw [chosen]
    exact Nat.mod_lt _ (Nat.lt_of_le_of_lt (Nat.zero_le _) placed.next)
  · intro c k found
    obtain ⟨k₀, connection, own⟩ :=
      newConnection_connection s main loops fd state completeHeaders world
    have found' : (newConnection main loops s fd state completeHeaders world).connection c =
      some k := found
    rw [connection] at found'
    by_cases here : c = s.created
    · rw [here, Function.update_self, Option.some.injEq] at found'
      rw [← found', own, chosen]
      exact List.get_mem loops ⟨s.next, placed.next⟩
    · rw [Function.update_of_ne here] at found'
      exact placed.connection c k found'

/-- **One step**: a step uses the timer queues by their own threads exactly if it does not
establish a connection. -/
theorem ownThread_iff (subLoops : main ∉ loops) (closing : 0 < server.timeout)
    (placed : Placed loops s) {action : ServerAction σ L}
    (stepped : s.step server main loops action = some (.ok t)) :
    s.OwnThread server main action ↔ action ≠ .establish := by
  constructor
  · rintro own rfl
    simp only [step] at stepped
    split at stepped
    · rename_i c rest handling
      obtain ⟨k, found, -⟩ := Option.map_eq_some_iff.mp stepped
      have closes : server.autoCloseConn = true := decide_eq_true closing
      have inserts : ⟨k.loop, .addTimer, main⟩ ∈ s.accesses server main .establish := by
        simp only [accesses, handling, found, closes, if_true]
        exact List.mem_cons_self
      have same : k.loop = main := own _ inserts
      exact subLoops (same ▸ placed.connection c k found)
    · cases stepped
  · intro other access inside
    cases action with
    | poll l ready => cases inside
    | accept fd state completeHeaders world => cases inside
    | establish => exact absurd rfl other
    | event l inputs => cases inside
    | close l => cases inside
    | timer l c now =>
        simp only [step] at stepped
        split at stepped
        · rename_i rest k handling found
          have own : k.loop = l := by
            split_ifs at stepped with set
            · exact set.2
            · exact set.2
          simp only [accesses, found] at inside
          rcases List.mem_cons.mp inside with rfl | again
          · rfl
          · split_ifs at again
            · exact runAfter_own own again
            · cases again
        · cases stepped
    | proceed l =>
        simp only [accesses] at inside
        split at inside
        · cases List.mem_singleton.mp inside
          rfl
        · cases inside

/-- **The timer queues are used by their own threads alone exactly in the runs that
establish no connection**: with sub loops and a positive timeout, each connection has its
first timer inserted by the main thread into the queue of a sub loop. -/
theorem timer_queues_own_thread_iff (subLoops : main ∉ loops) (nonempty : loops ≠ [])
    (closing : 0 < server.timeout) {actions : List (ServerAction σ L)}
    (performed : perform (step server main loops) {} actions = some t) :
    Throughout (step server main loops) (OwnThread server main) {} actions ↔
      .establish ∉ actions := by
  have initial : Placed loops ({} : TcpServer σ L) := by
    refine ⟨List.length_pos_iff.mpr nonempty, ?_⟩
    rintro c k ⟨⟩
  generalize ({} : TcpServer σ L) = start at performed initial ⊢
  induction actions generalizing start with
  | nil => simp [Throughout]
  | cons action actions ih =>
      obtain ⟨u, stepped, later⟩ := perform_cons performed
      have placed := step_placed initial stepped
      have here := ownThread_iff subLoops closing initial stepped
      have rest := ih u later placed
      constructor
      · rintro ⟨own, follows⟩ inside
        rcases List.mem_cons.mp inside with establishes | later
        · exact here.mp own establishes.symm
        · exact rest.mp (follows u stepped) later
      · intro absent
        refine ⟨here.mpr fun establishes => absent (establishes ▸ List.mem_cons_self), ?_⟩
        intro v stepped'
        rw [stepped] at stepped'
        cases stepped'
        exact rest.mpr fun later => absent (List.mem_cons_of_mem _ later)

/-- The main loop `false` accepts a connection for the loop `true`. -/
def acceptRun : List (ServerAction Unit Bool) :=
  [.poll false [.channel .accept], .accept 7 .Connected true ()]

/-- As long as the connection has only been constructed, no queue is touched. -/
theorem timer_queues_own_thread_accepting :
    Throughout (step (HttpServer.construct 60000000) false [true])
      (OwnThread (HttpServer.construct 60000000) false) {} acceptRun := by
  have performed : (perform (step (HttpServer.construct 60000000) false [true]) {}
      acceptRun).isSome = true := by decide +kernel
  obtain ⟨t, performed⟩ := Option.isSome_iff_exists.mp performed
  apply (timer_queues_own_thread_iff (by decide) (by decide) (by decide) performed).mpr
  simp [acceptRun]

/-- `ConnectionEstablished` on the main thread inserts into the queue of the loop `true`. -/
theorem timer_queues_establishing :
    (∃ t, perform (step (HttpServer.construct 60000000) false [true]) {}
      (acceptRun ++ [.establish]) = some t) ∧
    ¬ Throughout (step (HttpServer.construct 60000000) false [true])
      (OwnThread (HttpServer.construct 60000000) false) {} (acceptRun ++ [.establish]) := by
  have whole : (perform (step (HttpServer.construct 60000000) false [true]) {}
      (acceptRun ++ [.establish])).isSome = true := by decide +kernel
  refine ⟨Option.isSome_iff_exists.mp whole, ?_⟩
  intro own
  have accepted : (perform (step (HttpServer.construct 60000000) false [true]) {}
      acceptRun).any (fun t => ⟨true, .insert, false⟩ ∈
        t.accesses (HttpServer.construct 60000000) false .establish) = true := by
    decide +kernel
  obtain ⟨t, performed, inserts⟩ := (Option.any_eq_true _ _).mp accepted
  exact absurd (own.last performed _ (of_decide_eq_true inserts)) (by decide)

end TcpServer

end CppFileServer.Tcp
