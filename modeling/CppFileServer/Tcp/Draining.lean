/-
# Tcp.Draining -- left alone, the loops finish what they have begun

Between two calls from outside, of a peer, a listener or a timer, the loops only
hand connections on to each other.  Each step of theirs brings a connection one
hop further, or the round of a loop one step closer to its end, so that they are
all blocked after finitely many steps in whatever order, and every connection
that was closed has been destroyed by then.
-/
import CppFileServer.Tcp.Rest
import CppFileServer.Theory.Settling
import Mathlib.Algebra.Order.BigOperators.Group.Finset
import Mathlib.Data.Prod.Lex

namespace CppFileServer.Tcp

set_option autoImplicit false

open CppFileServer.Cpp CppFileServer.Http CppFileServer.Theory

/-! ## How far a loop is from the end of its round -/

/-- The channels that others make ready: peers, listeners and the clock. -/
def Active.outside : Active Ready → Bool
  | .channel .accept => true
  | .channel (.connection _ _) => true
  | .channel .timers => true
  | _ => false

namespace EventLoop

variable {loop loop' : EventLoop Ready Task}

/-- No callback that another party has caused is left to be run. -/
def Alone (loop : EventLoop Ready Task) : Prop :=
  ∀ active ∈ loop.ready, Active.outside active = false

/-- A wake-up that has not been reported costs one more round. -/
def pending (loop : EventLoop Ready Task) : Nat :=
  if 0 < loop.counter ∧ .wakeup ∉ loop.ready then loop.toDoList.length + 6 else 0

/-- An upper bound on the steps to the next `Poll` that blocks, but for the tasks. -/
def cost (loop : EventLoop Ready Task) : Nat :=
  loop.pending + match loop.phase with
    | .polling => 0
    | .handling ready => ready.length + loop.toDoList.length + 4
    | .swapping => loop.toDoList.length + 3
    | .running done rest => done.length + rest.length + 2
    | .releasing functors => functors.length + 1

theorem poll_wakeup (polled : loop.poll [.wakeup] = some loop') :
    loop'.cost < loop.cost ∧ loop'.counter = loop.counter ∧ loop'.Alone := by
  obtain ⟨polling, reported, rfl⟩ := poll_eq_some polled
  have pending : 0 < loop.counter := by simpa using reported
  refine ⟨?_, rfl, ?_⟩
  · simp [cost, EventLoop.pending, polling, ready, pending]
    omega
  · simp [Alone, ready, Active.outside]

/-- A step of the thread that runs no task and no callback. -/
theorem proceed_cost (proceeded : loop.proceed = some (.ok loop'))
    (noTask : ∀ done f rest, loop.phase ≠ .running done (f :: rest)) :
    loop'.cost < loop.cost ∧ loop'.counter ≤ loop.counter ∧
      ∀ active ∈ loop'.ready, active ∈ loop.ready := by
  unfold proceed at proceeded
  split at proceeded
  · cases proceeded
  · rename_i rest handling
    obtain ⟨read, handled, left⟩ := bind_eq_ok (Option.some.inj proceeded)
    cases left
    unfold handleRead at handled
    split_ifs at handled
    cases handled
    refine ⟨?_, Nat.zero_le _, ?_⟩
    · simp [cost, pending, handling, ready]
    · simp only [ready, handling]
      exact fun _ inside => List.mem_cons_of_mem _ inside
  · rename_i event rest handling
    cases proceeded
    refine ⟨?_, le_refl _, ?_⟩
    · have same : EventLoop.pending { loop with phase := .handling rest } = loop.pending :=
        if_congr (by simp [ready, handling]) rfl rfl
      simp only [cost, same, handling, List.length_cons]
      omega
    · simp only [ready, handling]
      exact fun _ inside => List.mem_cons_of_mem _ inside
  · rename_i handling
    cases proceeded
    refine ⟨?_, le_refl _, ?_⟩
    · simp [cost, pending, handling, ready]
    · simp [ready]
  · rename_i swapping
    cases proceeded
    refine ⟨?_, le_refl _, ?_⟩
    · simp only [cost, pending, swapping, ready, List.not_mem_nil, not_false_eq_true, and_true,
        List.length_nil]
      split_ifs <;> omega
    · simp [ready]
  · rename_i done f rest running
    exact absurd running (noTask done f rest)
  · rename_i done running
    cases proceeded
    refine ⟨?_, le_refl _, ?_⟩
    · simp [cost, pending, running, ready]
    · simp [ready]
  · rename_i f functors releasing
    cases proceeded
    refine ⟨?_, le_refl _, ?_⟩
    · simp [cost, pending, releasing, ready]
    · simp [ready]
  · rename_i releasing
    cases proceeded
    refine ⟨?_, le_refl _, ?_⟩
    · simp [cost, pending, releasing, ready]
    · simp [ready]

theorem queueOneFunc_counter {inLoopThread : Bool} {f : Task}
    (queued : loop.queueOneFunc inLoopThread f = .ok loop') :
    loop'.counter ≤ loop.counter + 1 ∧ loop'.ready = loop.ready := by
  unfold queueOneFunc at queued
  split_ifs at queued
  · rw [wakeup_eq_ok queued]
    exact ⟨le_refl _, rfl⟩
  · cases queued
    exact ⟨Nat.le_succ _, rfl⟩

/-- The eventfd of the loop has room for one more wake-up. -/
theorem queueOneFunc_returns (room : loop.counter < eventfdMax) (inLoopThread : Bool) (f : Task) :
    ∃ loop', loop.queueOneFunc inLoopThread f = .ok loop' := by
  unfold queueOneFunc wakeup
  rw [push_counter, if_pos room]
  split_ifs
  · exact ⟨_, rfl⟩
  · exact ⟨_, rfl⟩

end EventLoop

/-! ## How far the connections are from the end of their lives -/

/-- The hops from this stage to the next one in which nothing is on its way. -/
def Stage.hops : Stage → Nat
  | fresh => 1
  | established => 0
  | closing => 3
  | requested => 2
  | erased => 1
  | destructed => 0

namespace TcpServer

variable {σ L : Type}

def hops (s : TcpServer σ L) : Nat :=
  ∑ c ∈ Finset.range s.created, (s.connection c).elim 0 fun k => k.stage.hops

theorem hops_update {s t : TcpServer σ L} {c : Nat} {k k' : Connection σ L}
    (known : c < s.created) (found : s.connection c = some k) (created : t.created = s.created)
    (changed : t.connection = Function.update s.connection c (some k')) :
    t.hops + k.stage.hops = s.hops + k'.stage.hops := by
  have inside : c ∈ Finset.range s.created := Finset.mem_range.mpr known
  unfold hops
  rw [created, ← Finset.add_sum_erase _ _ inside, ← Finset.add_sum_erase _ _ inside, found,
    changed, Function.update_self]
  have others : ∑ d ∈ (Finset.range s.created).erase c,
        (Function.update s.connection c (some k') d).elim 0 (fun k => k.stage.hops) =
      ∑ d ∈ (Finset.range s.created).erase c, (s.connection d).elim 0 fun k => k.stage.hops := by
    apply Finset.sum_congr rfl
    intro d other
    rw [Function.update_of_ne (Finset.ne_of_mem_erase other)]
  rw [others]
  simp only [Option.elim_some]
  omega

/-- A connection that has been taken one hop further lowers the sum. -/
theorem hops_lt {s t : TcpServer σ L} {c : Nat} {k k' : Connection σ L}
    (known : c < s.created) (found : s.connection c = some k) (created : t.created = s.created)
    (changed : t.connection = Function.update s.connection c (some k'))
    (fewer : k'.stage.hops < k.stage.hops) : t.hops < s.hops := by
  have balance := hops_update known found created changed
  omega

/-! ## The steps of the loops themselves -/

end TcpServer

/-- The steps that no peer, listener or timer takes part in.  A return of `Poll` that
reports nothing is no progress of the loop and not among them. -/
def ServerAction.Own {σ L : Type} : ServerAction σ L → Prop
  | .poll _ ready => ready = [.wakeup]
  | .establish => True
  | .close _ => True
  | .proceed _ => True
  | _ => False

namespace TcpServer

variable {σ L : Type} [DecidableEq L]

section Frame

variable {main : L} {s t : TcpServer σ L}

/-- What handing a connection on does to the loops. -/
structure HandsOn (s t : TcpServer σ L) : Prop where
  created : t.created = s.created
  loops : ∀ l, (t.loop l).counter ≤ (s.loop l).counter + 1 ∧ (t.loop l).ready = (s.loop l).ready

theorem handsOn_queueOneFunc {caller l : L} {f : Task} (queued : s.queueOneFunc caller l f = .ok t) :
    HandsOn s t := by
  obtain ⟨loop, pushed, ended⟩ := bind_eq_ok queued
  cases ended
  refine ⟨rfl, ?_⟩
  exact setLoop_forall (P := fun l' loop => loop.counter ≤ (s.loop l').counter + 1 ∧
    loop.ready = (s.loop l').ready) (EventLoop.queueOneFunc_counter pushed)
    fun l' _ => ⟨Nat.le_succ _, rfl⟩

theorem handsOn_handleCloseInLoop {c : Nat} (closed : s.handleCloseInLoop main c = .ok t) :
    HandsOn s t := by
  unfold handleCloseInLoop at closed
  split at closed
  · cases closed
  · split_ifs at closed
    obtain ⟨created, loops⟩ := handsOn_queueOneFunc closed
    exact ⟨created, loops⟩

theorem handsOn_handleClose {l : L} {c : Nat} (closed : s.handleClose main l c = .ok t) :
    HandsOn s t := by
  unfold handleClose at closed
  split at closed
  · cases closed
  · split_ifs at closed
    · exact handsOn_handleCloseInLoop closed
    · obtain ⟨created, loops⟩ := handsOn_queueOneFunc closed
      exact ⟨created, loops⟩

theorem handsOn_runTask {f : Task} (ran : s.runTask main f = .ok t) : HandsOn s t := by
  cases f with
  | handleCloseInLoop c => exact handsOn_handleCloseInLoop ran
  | connectionDestructor c =>
      have ran : s.connectionDestructor c = .ok t := ran
      unfold connectionDestructor at ran
      split at ran
      · cases ran
      · cases ran
        exact ⟨rfl, fun l => ⟨Nat.le_succ _, rfl⟩⟩

end Frame

/-- No callback that another party has caused is left to be run. -/
def Alone (s : TcpServer σ L) : Prop :=
  ∀ l, (s.loop l).Alone

/-- What a step of the loops themselves comes to: a loop has gone on, or a connection. -/
inductive Drains (s t : TcpServer σ L) : Prop
  | round {l : L} {loop : EventLoop Ready Task} (same : t = s.setLoop l loop)
      (cheaper : loop.cost < (s.loop l).cost) (counter : loop.counter ≤ (s.loop l).counter)
      (alone : loop.Alone)
  | hop (fewer : t.hops < s.hops)
      (loops : ∀ l, (t.loop l).counter ≤ (s.loop l).counter + 1 ∧ (t.loop l).Alone)

section Steps

variable {server : HttpServer σ} {main : L} {loops : List L} {s t : TcpServer σ L}

theorem establish_drains (invariant : Invariant main s) (alone : s.Alone) {c : Nat}
    {k : Connection σ L} {rest : List (Active Ready)}
    (handling : (s.loop main).phase = .handling (.channel (.establishing c) :: rest))
    (found : s.connection c = some k) :
    Drains s ((s.establish server c k).setLoop main
      { s.loop main with phase := .handling rest }) := by
  have fresh := fresh_of_establishing invariant handling found
  refine .hop (hops_lt (invariant.known c k found) found rfl rfl (by simp [fresh, Stage.hops])) ?_
  refine setLoop_forall (P := fun l loop => loop.counter ≤ (s.loop l).counter + 1 ∧ loop.Alone)
    ⟨Nat.le_succ _, ?_⟩ fun l _ => ⟨Nat.le_succ _, alone l⟩
  obtain ⟨-, -, ready⟩ := EventLoop.handling_eq handling
  intro active inside
  exact alone main active (ready ▸ List.mem_cons_of_mem _ inside)

/-- The callback or the task that has handed a connection on. -/
theorem handsOn_drains {l : L} {loop : EventLoop Ready Task} {c : Nat} {k k' : Connection σ L}
    (handed : HandsOn (s.setLoop l loop) t) (invariant : Invariant main s) (alone : s.Alone)
    (counter : loop.counter ≤ (s.loop l).counter)
    (ready : ∀ active ∈ loop.ready, active ∈ (s.loop l).ready) (found : s.connection c = some k)
    (changed : t.connection = Function.update s.connection c (some k'))
    (fewer : k'.stage.hops < k.stage.hops) : Drains s t := by
  refine .hop (hops_lt (invariant.known c k found) found handed.created changed fewer) ?_
  have started : ∀ l', ((s.setLoop l loop).loop l').counter ≤ (s.loop l').counter ∧
      ∀ active ∈ ((s.setLoop l loop).loop l').ready, active ∈ (s.loop l').ready :=
    setLoop_forall (P := fun l' loop => loop.counter ≤ (s.loop l').counter ∧
      ∀ active ∈ loop.ready, active ∈ (s.loop l').ready) ⟨counter, ready⟩
      fun l' _ => ⟨le_refl _, fun _ inside => inside⟩
  intro l'
  obtain ⟨more, same⟩ := handed.loops l'
  refine ⟨more.trans (Nat.succ_le_succ (started l').1), ?_⟩
  intro active inside
  exact alone l' active ((started l').2 active (same ▸ inside))

theorem close_drains (invariant : Invariant main s) (alone : s.Alone) {l : L} {c : Nat}
    {rest : List (Active Ready)}
    (handling : (s.loop l).phase = .handling (.channel (.closing c) :: rest))
    (closed : (s.setLoop l { s.loop l with phase := .handling rest }).handleClose main l c = .ok t) :
    Drains s t := by
  obtain ⟨k, stage, found, passed, changed⟩ := handleClose_connection closed
  obtain ⟨work, -, ready⟩ := EventLoop.handling_eq handling
  have inside : .closing c ∈ (s.loop l).work := by simp [work, Active.work]
  obtain ⟨k', found', token⟩ := (invariant.work l _).mp inside
  have found : s.connection c = some k := found
  rw [show (Work.closing c).conn = c from rfl, found] at found'
  cases found'
  obtain ⟨closing, -⟩ := Connection.token_closing token
  refine handsOn_drains (handsOn_handleClose closed) invariant alone (le_refl _) ?_ found changed ?_
  · rw [ready]
    exact fun _ inside => List.mem_cons_of_mem _ inside
  · rcases passed with rfl | rfl <;> simp [closing, Stage.hops]

theorem task_drains (invariant : Invariant main s) (alone : s.Alone) {l : L} {f : Task}
    {done rest : List Task} {loop : EventLoop Ready Task}
    (running : (s.loop l).phase = .running done (f :: rest))
    (proceeded : (s.loop l).proceed = some (.ok loop))
    (ran : (s.setLoop l loop).runTask main f = .ok t) : Drains s t := by
  obtain ⟨head, -, noReady⟩ := EventLoop.started_eq running proceeded
  obtain ⟨k, found, token⟩ := token_of_head invariant head
  have counter : loop.counter ≤ (s.loop l).counter := by
    simp only [EventLoop.proceed, running, Option.some.injEq, Except.ok.injEq] at proceeded
    rw [← proceeded]
  have ready : ∀ active ∈ loop.ready, active ∈ (s.loop l).ready := by simp [noReady]
  cases f with
  | handleCloseInLoop c =>
      obtain ⟨requested, -⟩ := Connection.token_handleCloseInLoop token
      obtain ⟨k', found', changed⟩ := handleCloseInLoop_connection ran
      have same : s.connection c = some k' := found'
      rw [show (Work.task (.handleCloseInLoop c)).conn = c from rfl, same] at found
      cases found
      exact handsOn_drains (handsOn_runTask ran) invariant alone counter ready same changed
        (by simp [requested, Stage.hops])
  | connectionDestructor c =>
      obtain ⟨erased, -⟩ := Connection.token_connectionDestructor token
      have found : s.connection c = some k := found
      have handed := handsOn_runTask ran
      simp only [runTask, connectionDestructor, setLoop_connection, found, Except.ok.injEq] at ran
      subst ran
      exact handsOn_drains handed invariant alone counter ready found rfl
        (by simp [erased, Stage.hops])

/-- **Step lemma**: every step of the loops themselves brings something to its end. -/
theorem own_drains [Fintype L] (invariant : Invariant main s) (alone : s.Alone) {action : ServerAction σ L}
    (own : action.Own) (stepped : s.step server main loops action = some (.ok t)) :
    Drains s t := by
  cases steps_of_step stepped with
  | @poll l ready loop reported polled =>
      obtain rfl : ready = [.wakeup] := own
      obtain ⟨cheaper, counter, alone'⟩ := EventLoop.poll_wakeup polled
      exact .round rfl cheaper (le_of_eq counter) alone'
  | accept handling notOpen => cases own
  | establish handling found => exact establish_drains invariant alone handling found
  | event handling found held handled => cases own
  | timer handling found held set own' => cases own
  | expired found => cases own
  | close handling closed => exact close_drains invariant alone handling closed
  | @proceed l loop proceeded noTask noCallback =>
      obtain ⟨cheaper, counter, ready⟩ := EventLoop.proceed_cost proceeded noTask
      exact .round rfl cheaper counter fun active inside => alone l active (ready active inside)
  | task running proceeded ran => exact task_drains invariant alone running proceeded ran

end Steps

/-! ## A loop that is not blocked goes on -/

/-- No eventfd overflows by the wake-ups that are still to come. -/
def Room (s : TcpServer σ L) : Prop :=
  ∀ l, (s.loop l).counter + s.hops ≤ eventfdMax

section Progress

variable {main : L} {s : TcpServer σ L}

omit [DecidableEq L] in
theorem hops_le (invariant : Invariant main s) {c : Nat} {k : Connection σ L}
    (found : s.connection c = some k) : k.stage.hops ≤ s.hops := by
  have inside : c ∈ Finset.range s.created := Finset.mem_range.mpr (invariant.known c k found)
  have least := Finset.single_le_sum
    (f := fun c => (s.connection c).elim 0 fun k => k.stage.hops) (fun _ _ => Nat.zero_le _) inside
  unfold hops
  simpa only [found, Option.elim_some] using least

omit [DecidableEq L] in
/-- While a connection is on its way, every eventfd can be written. -/
theorem Room.writable (room : s.Room) (invariant : Invariant main s) {c : Nat}
    {k : Connection σ L} (found : s.connection c = some k) (onWay : 0 < k.stage.hops) (l : L) :
    (s.loop l).counter < eventfdMax := by
  have onWayStill := hops_le invariant found
  have bound := room l
  omega

theorem queueOneFunc_returns (s : TcpServer σ L) {l : L} (writable : (s.loop l).counter < eventfdMax)
    (caller : L) (f : Task) : ∃ t, s.queueOneFunc caller l f = .ok t := by
  obtain ⟨loop, queued⟩ := EventLoop.queueOneFunc_returns writable (caller = l) f
  exact ⟨s.setLoop l loop, by rw [queueOneFunc, queued]; rfl⟩

theorem handleCloseInLoop_returns {c : Nat} {k : Connection σ L} (found : s.connection c = some k)
    (mapped : s.connectionsMap k.fd = some c) (writable : ∀ l, (s.loop l).counter < eventfdMax) :
    ∃ t, s.handleCloseInLoop main c = .ok t := by
  simp only [handleCloseInLoop, found, mapped, reduceCtorEq, if_false]
  refine queueOneFunc_returns _ ?_ _ _
  exact writable k.loop

variable [Fintype L] {server : HttpServer σ} {loops : List L}

/-- The call of `on_close_` returns. -/
theorem close_goes (invariant : Invariant main s) (room : s.Room) {l : L} {c : Nat}
    {rest : List (Active Ready)}
    (handling : (s.loop l).phase = .handling (.channel (.closing c) :: rest)) :
    ∃ t, s.step server main loops (.close l) = some (.ok t) := by
  obtain ⟨work, -, -⟩ := EventLoop.handling_eq handling
  have inside : .closing c ∈ (s.loop l).work := by simp [work, Active.work]
  obtain ⟨k, found, token⟩ := (invariant.work l _).mp inside
  have found : s.connection c = some k := found
  obtain ⟨closing, -⟩ := Connection.token_closing token
  have mapped := mapped_of_stage invariant found (by simp [closing, Stage.mapped])
  have writable := room.writable invariant found (by simp [closing, Stage.hops])
  have writable' : ∀ l', ((s.setLoop l { s.loop l with phase := .handling rest }).loop l').counter <
      eventfdMax :=
    setLoop_forall (P := fun _ loop => loop.counter < eventfdMax) (writable l)
      fun l' _ => writable l'
  have returns : ∃ t, (s.setLoop l { s.loop l with phase := .handling rest }).handleClose main l c =
      .ok t := by
    simp only [handleClose, setLoop_connection, found]
    split_ifs
    · exact handleCloseInLoop_returns (s := s.setLoop l _) found mapped writable'
    · exact queueOneFunc_returns ((s.setLoop l _).setConnection c _) (writable' main) _ _
  obtain ⟨t, closed⟩ := returns
  exact ⟨t, by simp only [step, handling, closed]⟩

/-- A task returns. -/
theorem task_goes (invariant : Invariant main s) (room : s.Room) {l : L} {f : Task}
    {done rest : List Task} (running : (s.loop l).phase = .running done (f :: rest)) :
    ∃ t, s.step server main loops (.proceed l) = some (.ok t) := by
  obtain ⟨work, -, -⟩ := EventLoop.running_eq running
  have inside : .task f ∈ (s.loop l).work := by simp [work]
  obtain ⟨k, found, token⟩ := (invariant.work l _).mp inside
  have returns : ∀ loop : EventLoop Ready Task, loop.counter = (s.loop l).counter →
      ∃ t, (s.setLoop l loop).runTask main f = .ok t := by
    intro loop same
    cases f with
    | handleCloseInLoop c =>
        have found : s.connection c = some k := found
        obtain ⟨requested, -⟩ := Connection.token_handleCloseInLoop token
        have writable := room.writable invariant found (by simp [requested, Stage.hops])
        refine handleCloseInLoop_returns (s := s.setLoop l loop) found
          (mapped_of_stage invariant found (by simp [requested, Stage.mapped])) ?_
        exact setLoop_forall (P := fun _ loop => loop.counter < eventfdMax)
          (by rw [same]; exact writable l) fun l' _ => writable l'
    | connectionDestructor c =>
        have found : s.connection c = some k := found
        simp only [runTask, connectionDestructor, setLoop_connection, found]
        exact ⟨_, rfl⟩
  obtain ⟨t, ran⟩ := returns { s.loop l with
    phase := .running (done ++ [f]) rest, ran := (s.loop l).ran ++ [f] } rfl
  refine ⟨t, ?_⟩
  simp only [step, running, EventLoop.proceed, Option.map_some]
  exact congrArg some ran

theorem establish_goes (invariant : Invariant main s) {l : L} {c : Nat}
    {rest : List (Active Ready)}
    (handling : (s.loop l).phase = .handling (.channel (.establishing c) :: rest)) :
    ∃ t, s.step server main loops .establish = some (.ok t) := by
  obtain ⟨work, -, -⟩ := EventLoop.handling_eq handling
  have inside : .establishing c ∈ (s.loop l).work := by simp [work, Active.work]
  obtain ⟨k, found, token⟩ := (invariant.work l _).mp inside
  have found : s.connection c = some k := found
  have onMain : l = main := by
    have fresh := Connection.token_establishing (l := l) token
    simp only [Connection.token, fresh, Option.some.injEq, Prod.mk.injEq] at token
    exact token.1.symm
  subst onMain
  simp only [step, handling, found, Option.map_some]
  exact ⟨_, rfl⟩

/-- A callback that is not for others is called and returns. -/
theorem callback_goes (server : HttpServer σ) (loops : List L) (invariant : Invariant main s)
    (guarded : Guarded s) (room : s.Room) {l : L} {active : Active Ready} {rest : List (Active Ready)}
    (handling : (s.loop l).phase = .handling (active :: rest)) (mine : Active.outside active = false) :
    ∃ action : ServerAction σ L, action.Own ∧
      ∃ t, s.step server main loops action = some (.ok t) := by
  cases active with
  | wakeup =>
      have readable := guarded.readable l
      have pending : 0 < (s.loop l).counter := by
        simp only [EventLoop.Readable, handling, List.count_cons_self] at readable
        omega
      refine ⟨.proceed l, trivial, ?_⟩
      simp only [step, handling, EventLoop.proceed, EventLoop.handleRead, if_pos pending,
        Option.map_some]
      exact ⟨_, rfl⟩
  | channel event =>
      cases event with
      | accept => cases mine
      | connection c events => cases mine
      | timers => cases mine
      | establishing c => exact ⟨.establish, trivial, establish_goes invariant handling⟩
      | closing c => exact ⟨.close l, trivial, close_goes invariant room handling⟩

/-- **Progress**: a loop that is not blocked, and has nothing to do for others, has a step. -/
theorem own_goes (server : HttpServer σ) (loops : List L) (invariant : Invariant main s)
    (guarded : Guarded s) (alone : s.Alone) (room : s.Room) {l : L}
    (busy : ¬ ((s.loop l).phase = .polling ∧ (s.loop l).counter = 0)) :
    ∃ action : ServerAction σ L, action.Own ∧
      ∃ t, s.step server main loops action = some (.ok t) := by
  cases phase : (s.loop l).phase with
  | polling =>
      have pending : 0 < (s.loop l).counter := by
        by_contra unset
        exact busy ⟨phase, by omega⟩
      refine ⟨.poll l [.wakeup], rfl, ?_⟩
      simp [step, reports, EventLoop.poll, phase, pending]
  | handling ready =>
      cases ready with
      | nil =>
          refine ⟨.proceed l, trivial, ?_⟩
          simp only [step, phase, EventLoop.proceed, Option.map_some]
          exact ⟨_, rfl⟩
      | cons active rest =>
          have mine : Active.outside active = false :=
            alone l active (by simp [EventLoop.ready, phase])
          exact callback_goes server loops invariant guarded room phase mine
  | swapping =>
      refine ⟨.proceed l, trivial, ?_⟩
      simp only [step, phase, EventLoop.proceed, Option.map_some]
      exact ⟨_, rfl⟩
  | running done rest =>
      cases rest with
      | nil =>
          refine ⟨.proceed l, trivial, ?_⟩
          simp only [step, phase, EventLoop.proceed, Option.map_some]
          exact ⟨_, rfl⟩
      | cons f rest =>
          exact ⟨.proceed l, trivial, task_goes invariant room phase⟩
  | releasing functors =>
      cases functors with
      | nil =>
          refine ⟨.proceed l, trivial, ?_⟩
          simp only [step, phase, EventLoop.proceed, Option.map_some]
          exact ⟨_, rfl⟩
      | cons f functors =>
          refine ⟨.proceed l, trivial, ?_⟩
          simp only [step, phase, EventLoop.proceed, Option.map_some]
          exact ⟨_, rfl⟩

end Progress

/-! ## Rest -/

section Rest

variable [Fintype L] {server : HttpServer σ} {main : L} {loops : List L} {s t : TcpServer σ L}

/-- A step that no peer, listener or timer takes part in, and that returns. -/
def OwnNext (server : HttpServer σ) (main : L) (loops : List L) (s t : TcpServer σ L) : Prop :=
  ∃ action : ServerAction σ L, action.Own ∧ s.step server main loops action = some (.ok t)

/-- The hops that are left, and after each of them the rounds that are. -/
def rank (s : TcpServer σ L) : ℕ ×ₗ ℕ :=
  toLex (s.hops, ∑ l, (s.loop l).cost)

structure Drainable (main : L) (s : TcpServer σ L) : Prop where
  invariant : Invariant main s
  guarded : Guarded s
  alone : s.Alone
  room : s.Room

theorem Drains.rank_lt (drains : Drains s t) : t.rank < s.rank := by
  rw [rank, rank, Prod.Lex.toLex_lt_toLex]
  cases drains with
  | @round l loop same cheaper counter alone =>
      subst same
      refine Or.inr ⟨rfl, Finset.sum_lt_sum ?_ ⟨l, Finset.mem_univ l, ?_⟩⟩
      · exact fun l' _ => setLoop_forall (P := fun l' loop => loop.cost ≤ (s.loop l').cost)
          (le_of_lt cheaper) (fun _ _ => le_refl _) l'
      · show ((s.setLoop l loop).loop l).cost < (s.loop l).cost
        rw [setLoop_self]
        exact cheaper
  | hop fewer loops => exact Or.inl fewer

omit [Fintype L] in
theorem Drains.kept (drains : Drains s t) (alone : s.Alone) (room : s.Room) :
    t.Alone ∧ t.Room := by
  cases drains with
  | @round l loop same cheaper counter alone' =>
      subst same
      refine ⟨setLoop_forall (P := fun _ loop => loop.Alone) alone' fun l' _ => alone l', ?_⟩
      exact setLoop_forall (P := fun _ loop => loop.counter + s.hops ≤ eventfdMax)
        ((Nat.add_le_add_right counter _).trans (room l)) fun l' _ => room l'
  | hop fewer loops =>
      refine ⟨fun l => (loops l).2, ?_⟩
      intro l
      have bound := room l
      have more := (loops l).1
      omega

/-- What the loops do by themselves comes to rest. -/
theorem settling (server : HttpServer σ) (main : L) (loops : List L) :
    Settling (OwnNext server main loops) (Drainable main) Blocked rank where
  kept s t drainable next := by
    obtain ⟨action, own, stepped⟩ := next
    have drains := own_drains drainable.invariant drainable.alone own stepped
    obtain ⟨alone, room⟩ := drains.kept drainable.alone drainable.room
    exact ⟨(step_advances drainable.invariant stepped).invariant, drainable.guarded.step stepped,
      alone, room⟩
  falls s t drainable next := by
    obtain ⟨action, own, stepped⟩ := next
    exact (own_drains drainable.invariant drainable.alone own stepped).rank_lt
  goes s drainable busy := by
    obtain ⟨l, busy⟩ := not_forall.mp busy
    obtain ⟨action, own, t, stepped⟩ :=
      own_goes server loops drainable.invariant drainable.guarded drainable.alone
        drainable.room busy
    exact ⟨t, action, own, stepped⟩

theorem reaches_of_own (later : Relation.ReflTransGen (OwnNext server main loops) s t) :
    Reaches (step server main loops) s t := by
  have among : OwnNext server main loops ≤ Next (step server main loops) := by
    rintro s t ⟨action, -, stepped⟩
    exact ⟨action, stepped⟩
  exact Relation.ReflTransGen.mono among s t later

/-- **Left alone, the loops come to rest and every closed connection is destroyed.**  From a
state without callbacks for peers, listeners and timers there is no endless run of the loops'
own steps, in whatever order they are taken.  Wherever such a run has got to, it can be
continued until all loops are blocked, and then each connection whose `on_close_` had been
called has been through `ConnectionDestructor`, once, and is destroyed. -/
theorem comes_to_rest (reaches : Reaches (step server main loops) {} s) (alone : s.Alone)
    (room : s.Room) :
    (¬ ∃ run : ℕ → TcpServer σ L, run 0 = s ∧
      ∀ n, OwnNext server main loops (run n) (run (n + 1))) ∧
    ∀ t, Relation.ReflTransGen (OwnNext server main loops) s t →
      ∃ u, Relation.ReflTransGen (OwnNext server main loops) t u ∧ u.Blocked ∧
        ∀ c k, t.connection c = some k → 0 < k.session.conn.closeRequests →
          ∃ k', u.connection c = some k' ∧ k'.destructions = 1 ∧ ¬ u.Held c := by
  have guarded : Guarded s :=
    reaches.invariant (fun _ _ _ kept stepped => kept.step stepped)
      (initial_kept server main loops).2
  have drainable : Drainable main s := ⟨reaches_invariant reaches, guarded, alone, room⟩
  have settles := settling server main loops
  refine ⟨settles.no_endless_run drainable, ?_⟩
  intro t later
  obtain ⟨u, rest, blocked⟩ := settles.rests (settles.reaches drainable later)
  refine ⟨u, rest, blocked, ?_⟩
  intro c k found requested
  have reached := reaches.trans (reaches_of_own later)
  have closed := ((reaches_invariant reached).healthy c k found).closed requested
  obtain ⟨k', found', closed', -⟩ := closed_silent reached found closed (reaches_of_own rest)
  have reached' := reached.trans (reaches_of_own rest)
  have healthy := (reaches_invariant reached').healthy c k' found'
  obtain ⟨-, destructed, -, destroyed⟩ := over_of_blocked reached' blocked found' <| by
    intro established
    simp only [Connection.Healthy, established, closed'.state] at healthy
    cases healthy.2.1
  exact ⟨k', found', destructed, destroyed⟩

end Rest

/-- The peer has closed its connection, and `on_close_` is about to be called. -/
def closingRun : List (ServerAction Unit Bool) :=
  [.poll false [.channel .accept], .accept 7 .Connected true (), .establish] ++
    List.replicate 4 (.proceed false) ++
    [.poll true [.channel (.connection 0 EPOLLIN)],
      .event true ⟨(), [.eof], 0, .accepts 0, .accepts 0⟩]

/-- The connection is destroyed when the loops are at rest. -/
theorem comes_to_rest_closing :
    ∃ (s u : TcpServer Unit Bool) (k : Connection Unit Bool),
      s.Held 0 ∧ Relation.ReflTransGen (OwnNext (HttpServer.construct 0) false [true]) s u ∧
        u.Blocked ∧ u.connection 0 = some k ∧ k.destructions = 1 ∧ ¬ u.Held 0 := by
  have performed : ((perform (step (HttpServer.construct 0) false [true]) {} closingRun).any
      fun s => (∀ l, (∀ active ∈ (s.loop l).ready, Active.outside active = false) ∧
          (s.loop l).counter = 0) &&
        decide (s.created = 1) && decide (s.Held 0) &&
        (s.connection 0).any fun k => k.session.conn.closeRequests = 1) = true := by
    decide +kernel
  obtain ⟨s, performed, known⟩ := (Option.any_eq_true _ _).mp performed
  simp only [Bool.and_eq_true, decide_eq_true_eq] at known
  obtain ⟨⟨⟨loops, created⟩, held⟩, known⟩ := known
  obtain ⟨k, found, requested⟩ := (Option.any_eq_true _ _).mp known
  have requested := of_decide_eq_true requested
  have room : s.Room := by
    intro l
    have few : s.hops ≤ 3 := by
      rw [hops, created, Finset.sum_range_one, found]
      show k.stage.hops ≤ 3
      cases k.stage <;> decide
    rw [(loops l).2]
    exact (Nat.zero_add _).trans_le (few.trans (by decide))
  obtain ⟨u, later, blocked, gone⟩ :=
    (comes_to_rest (reaches_of_perform performed) (fun l => (loops l).1) room).2 s .refl
  obtain ⟨k', found', destructed, destroyed⟩ := gone 0 k found (by omega)
  exact ⟨s, u, k', held, later, blocked, found', destructed, destroyed⟩

end TcpServer

end CppFileServer.Tcp
