/-
# Tcp.EventLoopThreadPool -- starting the loops

`Start` makes one `EventLoopThread` after the other.  `StartLoop` creates its thread and
then waits on `cond_` until `loop_` is set, which `ThreadFunc` does from the new thread once
it has constructed its loop; the mutex is locked for the test and for the assignment.  A
step is one of these operations, of either side, or a `wait` that returns without having
been notified.

The main thread never sleeps through its notification, so whatever the threads do in
whatever order, `loops_` is the list of the threads' own loops, in the order of the threads
(`loops_of_threads`), and `Start` returns with all of them in `Loop` (`start_returns`).
`Loop` is a `while (true)`: what `ThreadFunc` does after it is never reached.
-/
import CppFileServer.Cpp.Basic
import CppFileServer.Theory.Machine
import CppFileServer.Theory.Settling
import Mathlib.Data.Fintype.EquivFin
import Mathlib.Data.List.ReduceOption
import Mathlib.Data.Prod.Lex
import Mathlib.Order.WellFounded

namespace CppFileServer.Tcp

set_option autoImplicit false

open CppFileServer.Cpp CppFileServer.Theory

/-- Who has locked `mutex_`. -/
inductive Holder
  | startLoop
  | threadFunc
  deriving DecidableEq

/-- What `ThreadFunc` does next. -/
inductive ThreadFunc
  /-- It constructs the loop on its stack. -/
  | constructing
  | locking
  | setting
  | notifying
  | unlocking
  /-- It calls `loop_->Loop()`. -/
  | calling
  | looping
  deriving DecidableEq

/-- What the main thread does next. -/
inductive Starting (L : Type)
  /-- It is at the head of the loop in `Start`. -/
  | next
  /-- It locks `mutex_` in `StartLoop`, for the first time or woken up in `wait`. -/
  | locking
  | testing
  /-- It sleeps in `wait`, which has unlocked `mutex_`. -/
  | waiting
  /-- It leaves `StartLoop` with the loop it has read. -/
  | unlocking (loop : L)
  /-- `Start` has returned. -/
  | started
  deriving DecidableEq

structure EventLoopThread (L : Type) where
  loop : Option L := none
  mutex : Option Holder := none
  /-- The address of the loop on the stack of `ThreadFunc`. -/
  stack : Option L := none
  func : ThreadFunc := .constructing

/-- `EventLoopThread()`, with the thread that `StartLoop` creates. -/
def EventLoopThread.construct {L : Type} : EventLoopThread L := {}

structure EventLoopThreadPool (L : Type) where
  mainReactor : L
  threadNums : Int
  threads : List (EventLoopThread L) := []
  loops : List L := []
  starting : Starting L := .next

inductive StartAction (L : Type)
  | main
  /-- The thread of this index constructs its loop at the address. -/
  | construct (i : Nat) (address : L)
  | thread (i : Nat)
  /-- `wait` returns without having been notified. -/
  | wake

namespace EventLoopThreadPool

variable {L : Type}

def setThread (p : EventLoopThreadPool L) (i : Nat) (t : EventLoopThread L) :
    EventLoopThreadPool L :=
  { p with threads := p.threads.set i t }

/-- `threads_.back()` is the thread of this index. -/
def last (p : EventLoopThreadPool L) : Nat := p.threads.length - 1

/-- No loop is at the address. -/
def Unused (p : EventLoopThreadPool L) (address : L) : Prop :=
  address ≠ p.mainReactor ∧ ∀ t ∈ p.threads, t.stack ≠ some address

instance [DecidableEq L] (p : EventLoopThreadPool L) (address : L) : Decidable (p.Unused address) :=
  inferInstanceAs (Decidable (_ ∧ _))

/-- The next step of `Start`, and of `StartLoop` on the thread `t`. -/
def startLoop (p : EventLoopThreadPool L) (t : EventLoopThread L) :
    Option (EventLoopThreadPool L) :=
  match p.starting with
  | .locking =>
      if t.mutex = none then
        some { p.setThread p.last { t with mutex := some .startLoop } with starting := .testing }
      else none
  | .testing =>
      match t.loop with
      | none => some { p.setThread p.last { t with mutex := none } with starting := .waiting }
      | some loop => some { p with starting := .unlocking loop }
  | .unlocking loop =>
      some { p.setThread p.last { t with mutex := none } with
        loops := p.loops ++ [loop], starting := .next }
  | _ => none

/-- The next thread is made. -/
def begun (p : EventLoopThreadPool L) : EventLoopThreadPool L :=
  { p with threads := p.threads ++ [.construct], starting := .locking }

/-- The next step of the main thread. -/
def start (p : EventLoopThreadPool L) : Option (EventLoopThreadPool L) :=
  match p.starting with
  | .next =>
      if (p.threads.length : Int) < p.threadNums then
        some p.begun
      else some { p with starting := .started }
  | _ => p.threads[p.last]?.bind p.startLoop

/-- `notify_one` of the thread `i`, on which only the main thread waits. -/
def notifyOne [DecidableEq L] (p : EventLoopThreadPool L) (i : Nat) : Starting L :=
  if i = p.last ∧ p.starting = .waiting then .locking else p.starting

/-- The next step of `ThreadFunc` on the thread `t` of index `i`, which has its loop. -/
def threadFunc [DecidableEq L] (p : EventLoopThreadPool L) (i : Nat) (t : EventLoopThread L) :
    Option (Result (EventLoopThreadPool L)) :=
  match t.func with
  | .constructing => none
  | .locking =>
      if t.mutex = none then
        some (.ok (p.setThread i { t with mutex := some .threadFunc, func := .setting }))
      else none
  | .setting => some (.ok (p.setThread i { t with loop := t.stack, func := .notifying }))
  | .notifying =>
      some (.ok { p.setThread i { t with func := .unlocking } with starting := p.notifyOne i })
  | .unlocking => some (.ok (p.setThread i { t with mutex := none, func := .calling }))
  | .calling =>
      match t.loop with
      | none => some (.error .undefined)
      | some _ => some (.ok (p.setThread i { t with func := .looping }))
  | .looping => none

def step [DecidableEq L] (p : EventLoopThreadPool L) :
    StartAction L → Option (Result (EventLoopThreadPool L))
  | .main => p.start.map .ok
  | .construct i address =>
      match p.threads[i]? with
      | some t =>
          if t.func = .constructing ∧ p.Unused address then
            some (.ok (p.setThread i { t with stack := some address, func := .locking }))
          else none
      | none => none
  | .thread i => p.threads[i]?.bind (p.threadFunc i)
  | .wake => if p.starting = .waiting then some (.ok { p with starting := .locking }) else none

end EventLoopThreadPool

/-! ## The two sides of one thread -/

section Handshake

variable {L : Type}

/-- `loop_` has been set. -/
def ThreadFunc.hasSet : ThreadFunc → Bool
  | .notifying | .unlocking | .calling | .looping => true
  | _ => false

def ThreadFunc.hasNotified : ThreadFunc → Bool
  | .unlocking | .calling | .looping => true
  | _ => false

def ThreadFunc.locked : ThreadFunc → Bool
  | .setting | .notifying | .unlocking => true
  | _ => false

/-- The steps that are left before `Loop`. -/
def ThreadFunc.left : ThreadFunc → Nat
  | .constructing => 6
  | .locking => 5
  | .setting => 4
  | .notifying => 3
  | .unlocking => 2
  | .calling => 1
  | .looping => 0

def Starting.locked : Starting L → Bool
  | .testing | .unlocking _ => true
  | _ => false

/-- The main thread is in no `StartLoop`. -/
def Starting.outside : Starting L → Bool
  | .next | .started => true
  | _ => false

/-- The steps that are left of `StartLoop` when nothing wakes it up. -/
def Starting.left : Starting L → Nat
  | .locking => 4
  | .testing => 3
  | .waiting | .unlocking _ => 2
  | .next => 1
  | .started => 0

/-- One step of either side. -/
inductive Turn : Starting L → EventLoopThread L → Starting L → EventLoopThread L → Prop
  | constructs {s : Starting L} {t : EventLoopThread L} (address : L)
      (func : t.func = .constructing) :
      Turn s t s { t with stack := some address, func := .locking }
  | locks {s : Starting L} {t : EventLoopThread L} (func : t.func = .locking)
      (free : t.mutex = none) :
      Turn s t s { t with mutex := some .threadFunc, func := .setting }
  | sets {s : Starting L} {t : EventLoopThread L} (func : t.func = .setting) :
      Turn s t s { t with loop := t.stack, func := .notifying }
  | notifies {s s' : Starting L} {t : EventLoopThread L} (func : t.func = .notifying)
      (woken : s' = .locking ∧ s = .waiting ∨ s' = s ∧ s ≠ .waiting) :
      Turn s t s' { t with func := .unlocking }
  | unlocks {s : Starting L} {t : EventLoopThread L} (func : t.func = .unlocking) :
      Turn s t s { t with mutex := none, func := .calling }
  | calls {s : Starting L} {t : EventLoopThread L} (func : t.func = .calling) :
      Turn s t s { t with func := .looping }
  | startLocks {t : EventLoopThread L} (free : t.mutex = none) :
      Turn .locking t .testing { t with mutex := some .startLoop }
  | sleeps {t : EventLoopThread L} (unset : t.loop = none) :
      Turn .testing t .waiting { t with mutex := none }
  | reads {t : EventLoopThread L} {loop : L} (set : t.loop = some loop) :
      Turn .testing t (.unlocking loop) t
  | returns {t : EventLoopThread L} {loop : L} :
      Turn (.unlocking loop) t .next { t with mutex := none }

/-- What holds of a thread while the main thread is at `s`. -/
structure Consistent (s : Starting L) (t : EventLoopThread L) : Prop where
  stack : t.stack = none ↔ t.func = .constructing
  loop : t.loop = if t.func.hasSet then t.stack else none
  threadFunc : t.mutex = some .threadFunc ↔ t.func.locked
  startLoop : t.mutex = some .startLoop ↔ s.locked
  /-- The notification is still to come. -/
  asleep : s = .waiting → t.func.hasNotified = false
  read : ∀ l, s = .unlocking l → t.loop = some l
  outside : s.outside → t.loop ≠ none

theorem Consistent.new : Consistent .locking (.construct : EventLoopThread L) where
  stack := by simp [EventLoopThread.construct]
  loop := by simp [EventLoopThread.construct, ThreadFunc.hasSet]
  threadFunc := by simp [EventLoopThread.construct, ThreadFunc.locked]
  startLoop := by simp [EventLoopThread.construct, Starting.locked]
  asleep := nofun
  read := nofun
  outside := nofun

/-- **Step lemma** for one thread. -/
theorem Consistent.turn {s s' : Starting L} {t t' : EventLoopThread L} (consistent : Consistent s t)
    (turn : Turn s t s' t') : Consistent s' t' := by
  obtain ⟨stack, loop, threadFunc, startLoop, asleep, read, outside⟩ := consistent
  cases turn with
  | constructs address func =>
      constructor <;> simp_all [ThreadFunc.hasSet, ThreadFunc.locked, ThreadFunc.hasNotified]
  | locks func free =>
      constructor <;> simp_all [ThreadFunc.hasSet, ThreadFunc.locked, ThreadFunc.hasNotified]
  | sets func =>
      constructor <;> simp_all [ThreadFunc.hasSet, ThreadFunc.locked, ThreadFunc.hasNotified]
  | notifies func woken =>
      obtain ⟨rfl, rfl⟩ | ⟨rfl, awake⟩ := woken
      · constructor <;> simp_all [ThreadFunc.hasSet, ThreadFunc.locked, Starting.locked,
          Starting.outside]
      · constructor <;> simp_all [ThreadFunc.hasSet, ThreadFunc.locked]
  | unlocks func =>
      constructor <;> simp_all [ThreadFunc.hasSet, ThreadFunc.locked, ThreadFunc.hasNotified]
  | calls func =>
      constructor <;> simp_all [ThreadFunc.hasSet, ThreadFunc.locked, ThreadFunc.hasNotified]
  | startLocks free =>
      constructor <;> simp_all [Starting.locked, Starting.outside]
  | sleeps unset =>
      have unnotified : t.func.hasNotified = false := by
        cases func : t.func <;> simp_all [ThreadFunc.hasSet, ThreadFunc.hasNotified]
      constructor <;> simp_all [Starting.locked, Starting.outside]
  | reads set =>
      constructor <;> simp_all [Starting.locked, Starting.outside]
  | returns =>
      have set := read _ rfl
      refine ⟨stack, loop, ?_, ?_, ?_, ?_, ?_⟩
      · simp_all [Starting.locked]
      · simp [Starting.locked]
      · simp
      · simp
      · simp [set]

/-- The loop of a thread is the one on its stack. -/
theorem Consistent.stack_of_loop {s : Starting L} {t : EventLoopThread L} {l : L}
    (consistent : Consistent s t) (set : t.loop = some l) : t.stack = some l := by
  rw [consistent.loop] at set
  split_ifs at set
  exact set

/-- When `StartLoop` does not hold the mutex, it is the thread that does. -/
theorem Consistent.locked_of_mutex {s : Starting L} {t : EventLoopThread L}
    (consistent : Consistent s t) (unlocked : s.locked = false) (held : t.mutex ≠ none) :
    t.func.locked := by
  obtain ⟨holder, mutex⟩ := Option.ne_none_iff_exists'.mp held
  cases holder with
  | threadFunc => exact consistent.threadFunc.mp mutex
  | startLoop =>
      have locked := consistent.startLoop.mp mutex
      rw [unlocked] at locked
      cases locked

/-- A loop that has been set stays. -/
theorem Consistent.loop_kept {s s' : Starting L} {t t' : EventLoopThread L} {l : L}
    (consistent : Consistent s t) (turn : Turn s t s' t') (set : t.loop = some l) :
    t'.loop = some l := by
  cases turn with
  | sets => exact consistent.stack_of_loop set
  | _ => exact set

/-- A step of either side brings it closer to its end. -/
theorem Turn.left_lt {s s' : Starting L} {t t' : EventLoopThread L} (turn : Turn s t s' t') :
    t'.func.left < t.func.left ∨ t'.func.left = t.func.left ∧ s'.left < s.left := by
  cases turn <;> simp_all [ThreadFunc.left, Starting.left]

end Handshake

/-! ## Steps of the pool -/

namespace EventLoopThreadPool

section Steps

variable {L : Type} {p p' : EventLoopThreadPool L}

/-- What the main thread is doing to the thread `i`. -/
def toward (p : EventLoopThreadPool L) (i : Nat) : Starting L :=
  if i = p.last then p.starting else .next

/-- The loops that `StartLoop` has returned, one more when it returns now. -/
def loopsAfter (p : EventLoopThreadPool L) : Starting L → Starting L → List L
  | .unlocking loop, .next => p.loops ++ [loop]
  | _, _ => p.loops

/-- A step of the main thread on the thread `i`, or of that thread. -/
def turned (p : EventLoopThreadPool L) (i : Nat) (t' : EventLoopThread L) (s' : Starting L) :
    EventLoopThreadPool L :=
  { p with
    threads := p.threads.set i t'
    loops := p.loopsAfter (p.toward i) s'
    starting := if i = p.last then s' else p.starting }

/-- Everything that the threads do by themselves. -/
inductive Works (p : EventLoopThreadPool L) : EventLoopThreadPool L → Prop
  | returns (starting : p.starting = .next) (all : p.threadNums ≤ p.threads.length) :
      Works p { p with starting := .started }
  | begins (starting : p.starting = .next) (more : (p.threads.length : Int) < p.threadNums) :
      Works p p.begun
  | turns {i : Nat} {t t' : EventLoopThread L} {s' : Starting L} (found : p.threads[i]? = some t)
      (turn : Turn (p.toward i) t s' t') (away : i ≠ p.last → s' = .next)
      (unused : t'.stack = t.stack ∨ ∃ l, t'.stack = some l ∧ p.Unused l) :
      Works p (p.turned i t' s')

/-- Everything that a step can do. -/
inductive Steps (p : EventLoopThreadPool L) : StartAction L → EventLoopThreadPool L → Prop
  | works {action : StartAction L} {p' : EventLoopThreadPool L} (own : action ≠ .wake)
      (works : Works p p') : Steps p action p'
  | wakes (starting : p.starting = .waiting) : Steps p .wake { p with starting := .locking }

theorem toward_of_ne {i : Nat} (other : i ≠ p.last) : p.toward i = .next := if_neg other

theorem toward_last (p : EventLoopThreadPool L) : p.toward p.last = p.starting := if_pos rfl

theorem loopsAfter_of_same (p : EventLoopThreadPool L) (s : Starting L) : p.loopsAfter s s = p.loops := by
  cases s <;> rfl

theorem works_of_startLoop {t : EventLoopThread L} (found : p.threads[p.last]? = some t)
    (stepped : p.startLoop t = some p') : Works p p' := by
  have turns {s s' : Starting L} {t' : EventLoopThread L} (starting : p.starting = s)
      (turn : Turn s t s' t') (same : t'.stack = t.stack) :
      Works p { p with
        threads := p.threads.set p.last t', loops := p.loopsAfter s s', starting := s' } := by
    have toward := p.toward_last.trans starting
    have step := Works.turns found (toward.symm ▸ turn) (fun other => absurd rfl other) (Or.inl same)
    rwa [turned, toward, if_pos rfl] at step
  unfold startLoop at stepped
  split at stepped
  · rename_i starting
    split_ifs at stepped with free
    cases stepped
    exact turns starting (.startLocks free) rfl
  · rename_i starting
    split at stepped
    · rename_i unset
      cases stepped
      exact turns starting (.sleeps unset) rfl
    · rename_i loop set
      cases stepped
      have step := turns starting (.reads set) rfl
      have same : p.threads.set p.last t = p.threads := by
        apply List.ext_getElem?
        intro i
        rw [List.getElem?_set]
        split_ifs <;> simp_all
      rwa [same] at step
  · rename_i loop starting
    cases stepped
    exact turns starting .returns rfl
  · cases stepped

theorem works_of_threadFunc [DecidableEq L] {i : Nat} {t : EventLoopThread L}
    (found : p.threads[i]? = some t) (stepped : p.threadFunc i t = some (.ok p')) : Works p p' := by
  have turns {t' : EventLoopThread L} (turn : Turn (p.toward i) t (p.toward i) t')
      (same : t'.stack = t.stack) : Works p (p.setThread i t') := by
    have step := Works.turns found turn (fun other => if_neg other) (Or.inl same)
    have starting : (if i = p.last then p.toward i else p.starting) = p.starting := by
      unfold toward
      split_ifs <;> rfl
    rwa [turned, loopsAfter_of_same, starting] at step
  unfold threadFunc at stepped
  split at stepped
  · cases stepped
  · rename_i func
    split_ifs at stepped with free
    cases stepped
    exact turns (.locks func free) rfl
  · rename_i func
    cases stepped
    exact turns (.sets func) rfl
  · rename_i func
    cases stepped
    have woken : (if i = p.last then p.notifyOne i else .next) = .locking ∧ p.toward i = .waiting ∨
        (if i = p.last then p.notifyOne i else .next) = p.toward i ∧ p.toward i ≠ .waiting := by
      unfold notifyOne toward
      split_ifs <;> simp_all
    have step := Works.turns found (.notifies func woken) (fun other => if_neg other) (Or.inl rfl)
    have loops : p.loopsAfter (p.toward i) (if i = p.last then p.notifyOne i else .next) = p.loops := by
      obtain ⟨woken, waiting⟩ | ⟨woken, -⟩ := woken
      · rw [woken, waiting]
        rfl
      · rw [woken, loopsAfter_of_same]
    have starting : (if i = p.last then (if i = p.last then p.notifyOne i else .next)
        else p.starting) = p.notifyOne i := by
      unfold notifyOne
      split_ifs <;> simp_all
    rwa [turned, loops, starting] at step
  · rename_i func
    cases stepped
    exact turns (.unlocks func) rfl
  · rename_i func
    split at stepped <;> cases stepped
    exact turns (.calls func) rfl
  · cases stepped

theorem steps_of_step [DecidableEq L] {action : StartAction L}
    (stepped : p.step action = some (.ok p')) : Steps p action p' := by
  cases action with
  | main =>
      obtain ⟨p'', started, same⟩ := Option.map_eq_some_iff.mp stepped
      cases same
      refine .works nofun ?_
      unfold start at started
      split at started
      · rename_i starting
        split_ifs at started with more
        · cases started
          exact .begins starting more
        · cases started
          exact .returns starting (not_lt.mp more)
      · obtain ⟨t, found, started⟩ := Option.bind_eq_some_iff.mp started
        exact works_of_startLoop found started
  | construct i address =>
      simp only [step] at stepped
      split at stepped
      · rename_i t found
        split_ifs at stepped with new
        cases stepped
        have step := Works.turns found (.constructs address new.1) (fun other => if_neg other)
          (Or.inr ⟨address, rfl, new.2⟩)
        have starting : (if i = p.last then p.toward i else p.starting) = p.starting := by
          unfold toward
          split_ifs <;> rfl
        rw [turned, loopsAfter_of_same, starting] at step
        exact .works nofun step
      · cases stepped
  | thread i =>
      obtain ⟨t, found, stepped⟩ := Option.bind_eq_some_iff.mp stepped
      exact .works nofun (works_of_threadFunc found stepped)
  | wake =>
      simp only [step] at stepped
      split_ifs at stepped with starting
      cases stepped
      exact .wakes starting

end Steps

/-! ## What every step keeps -/

section Runs

variable {L : Type} {p p' : EventLoopThreadPool L}

structure Sound (p : EventLoopThreadPool L) : Prop where
  consistent : ∀ i t, p.threads[i]? = some t → Consistent (p.toward i) t
  /-- No two loops have one address. -/
  apart : ∀ (i j : Nat) (t u : EventLoopThread L) (l : L), p.threads[i]? = some t →
    p.threads[j]? = some u → t.stack = some l → u.stack = some l → i = j
  notMain : ∀ (i : Nat) (t : EventLoopThread L), p.threads[i]? = some t →
    t.stack ≠ some p.mainReactor
  read : ∀ (i : Nat) (l : L), p.loops[i]? = some l →
    ∃ t : EventLoopThread L, p.threads[i]? = some t ∧ t.loop = some l
  count : p.threads.length = p.loops.length + if p.starting.outside then 0 else 1
  bounded : p.threads.length ≤ p.threadNums.toNat
  returned : p.starting = .started → p.threadNums ≤ p.threads.length

theorem sound_start (main : L) (n : Int) : Sound { mainReactor := main, threadNums := n } where
  consistent := by simp
  apart := by simp
  notMain := by simp
  read := by simp
  count := by simp [Starting.outside]
  bounded := by simp
  returned := by simp

theorem last_of_toward {i : Nat} (inside : p.toward i ≠ .next) :
    i = p.last ∧ p.toward i = p.starting := by
  unfold toward at inside ⊢
  split_ifs at inside ⊢ with atLast
  · exact ⟨atLast, rfl⟩
  · exact absurd rfl inside

theorem loops_turned (p : EventLoopThreadPool L) (i : Nat) (t' : EventLoopThread L)
    (s' : Starting L) : (p.turned i t' s').loops = p.loopsAfter (p.toward i) s' := rfl

theorem starting_turned (p : EventLoopThreadPool L) (i : Nat) (t' : EventLoopThread L)
    (s' : Starting L) :
    (p.turned i t' s').starting = if i = p.last then s' else p.starting := rfl

@[simp] theorem turned_last (p : EventLoopThreadPool L) (i : Nat) (t' : EventLoopThread L)
    (s' : Starting L) : (p.turned i t' s').last = p.last := by
  simp [turned, last]

theorem turned_toward (p : EventLoopThreadPool L) {i : Nat} (t' : EventLoopThread L)
    {s' : Starting L} (away : i ≠ p.last → s' = .next) (j : Nat) :
    (p.turned i t' s').toward j = if j = i then s' else p.toward j := by
  change (if j = (p.turned i t' s').last then (if i = p.last then s' else p.starting) else .next) = _
  rw [turned_last, toward]
  by_cases here : j = i
  · subst here
    rw [if_pos rfl]
    split_ifs with atLast
    · rfl
    · exact (away atLast).symm
  · rw [if_neg here]
    split_ifs with atLast iLast
    · exact absurd (atLast.trans iLast.symm) here
    · rfl
    · rfl

theorem turned_thread {i : Nat} {t t' : EventLoopThread L} (found : p.threads[i]? = some t)
    (s' : Starting L) (j : Nat) :
    (p.turned i t' s').threads[j]? = if j = i then some t' else p.threads[j]? := by
  obtain ⟨inside, -⟩ := List.getElem?_eq_some_iff.mp found
  change (p.threads.set i t')[j]? = _
  rw [List.getElem?_set]
  by_cases here : j = i
  · rw [if_pos here.symm, if_pos inside, if_pos here]
  · rw [if_neg fun same => here same.symm, if_neg here]

/-- A turn returns from `StartLoop` with one loop, or leaves the list alone. -/
theorem loopsAfter_cases {s s' : Starting L} {t t' : EventLoopThread L} (turn : Turn s t s' t') :
    (∃ l, s = .unlocking l ∧ s' = .next ∧ p.loopsAfter s s' = p.loops ++ [l]) ∨
      p.loopsAfter s s' = p.loops ∧ s'.outside = s.outside ∧ (s' = .started → s = .started) := by
  cases turn with
  | returns => exact Or.inl ⟨_, rfl, rfl, rfl⟩
  | notifies func woken =>
      obtain ⟨rfl, rfl⟩ | ⟨rfl, -⟩ := woken
      · exact Or.inr ⟨rfl, rfl, nofun⟩
      · exact Or.inr ⟨p.loopsAfter_of_same _, rfl, id⟩
  | startLocks => exact Or.inr ⟨rfl, rfl, nofun⟩
  | sleeps => exact Or.inr ⟨rfl, rfl, nofun⟩
  | reads => exact Or.inr ⟨rfl, rfl, nofun⟩
  | _ => exact Or.inr ⟨p.loopsAfter_of_same _, rfl, id⟩

section Turning

variable (sound : Sound p) {i : Nat} {t t' : EventLoopThread L} {s' : Starting L}
  (found : p.threads[i]? = some t)

include sound found

theorem turned_consistent (turn : Turn (p.toward i) t s' t') (away : i ≠ p.last → s' = .next)
    (j : Nat) (u : EventLoopThread L) (found' : (p.turned i t' s').threads[j]? = some u) :
    Consistent ((p.turned i t' s').toward j) u := by
  rw [turned_thread found] at found'
  rw [turned_toward p t' away]
  split_ifs at found' with here
  · cases found'
    rw [if_pos here]
    exact (sound.consistent i t found).turn turn
  · rw [if_neg here]
    exact sound.consistent j u found'

section Stacks

variable (unused : t'.stack = t.stack ∨ ∃ l, t'.stack = some l ∧ p.Unused l)

include unused

/-- A loop of another thread is not that of the thread `i`. -/
theorem turned_stack {j : Nat} {u : EventLoopThread L} {l : L}
    (found' : p.threads[j]? = some u) (same : t'.stack = some l) (held : u.stack = some l) :
    j = i := by
  obtain same' | ⟨l', same', -, absent⟩ := unused
  · exact sound.apart j i u t l found' found held (same' ▸ same)
  · obtain rfl : l' = l := Option.some.inj (same'.symm.trans same)
    exact absurd held (absent u (List.mem_of_getElem? found'))

theorem turned_apart (j k : Nat) (u v : EventLoopThread L) (l : L)
    (foundU : (p.turned i t' s').threads[j]? = some u)
    (foundV : (p.turned i t' s').threads[k]? = some v) (heldU : u.stack = some l)
    (heldV : v.stack = some l) : j = k := by
  rw [turned_thread found] at foundU foundV
  split_ifs at foundU foundV with hereU hereV hereV
  · rw [hereU, hereV]
  · cases foundU
    exact hereU.trans (turned_stack sound found unused foundV heldU heldV).symm
  · cases foundV
    exact (turned_stack sound found unused foundU heldV heldU).trans hereV.symm
  · exact sound.apart j k u v l foundU foundV heldU heldV

theorem turned_notMain (j : Nat) (u : EventLoopThread L)
    (found' : (p.turned i t' s').threads[j]? = some u) : u.stack ≠ some p.mainReactor := by
  rw [turned_thread found] at found'
  split_ifs at found' with here
  · cases found'
    obtain same | ⟨l, same, unused, -⟩ := unused
    · rw [same]
      exact sound.notMain i t found
    · rw [same]
      exact fun main => unused (Option.some.inj main)
  · exact sound.notMain j u found'

end Stacks

variable (turn : Turn (p.toward i) t s' t')

include turn

/-- The loops that had been handed out are still those of their threads. -/
theorem turned_read_old {j : Nat} {l : L} (read : p.loops[j]? = some l) :
    ∃ u, (p.turned i t' s').threads[j]? = some u ∧ u.loop = some l := by
  obtain ⟨u, found', set⟩ := sound.read j l read
  rw [turned_thread found]
  split_ifs with here
  · obtain rfl : t = u := by
      rw [here, found] at found'
      exact Option.some.inj found'
    exact ⟨t', rfl, (sound.consistent i t found).loop_kept turn set⟩
  · exact ⟨u, found', set⟩

theorem turned_read (j : Nat) (l : L) (read : (p.turned i t' s').loops[j]? = some l) :
    ∃ u, (p.turned i t' s').threads[j]? = some u ∧ u.loop = some l := by
  have consistent := sound.consistent i t found
  obtain ⟨l', reading, -, loops⟩ | ⟨loops, -⟩ := loopsAfter_cases (p := p) turn
  · obtain ⟨rfl, starting⟩ := last_of_toward (reading ▸ nofun : p.toward i ≠ .next)
    have count := sound.count
    rw [← starting, reading] at count
    have count : p.threads.length = p.loops.length + 1 := count
    have lastIs : p.last = p.threads.length - 1 := rfl
    rw [loops_turned, loops, List.getElem?_append] at read
    split_ifs at read with before
    · exact turned_read_old sound found turn read
    · obtain ⟨rfl, rfl⟩ : p.last = j ∧ l' = l := by
        rw [List.getElem?_singleton] at read
        split_ifs at read with first
        exact ⟨by omega, Option.some.inj read⟩
      rw [turned_thread found, if_pos rfl]
      exact ⟨t', rfl, consistent.loop_kept turn (consistent.read l' reading)⟩
  · exact turned_read_old sound found turn (loops ▸ read)

omit found in
theorem turned_count : (p.turned i t' s').threads.length =
    (p.turned i t' s').loops.length + if (p.turned i t' s').starting.outside then 0 else 1 := by
  have length : (p.turned i t' s').threads.length = p.threads.length := List.length_set
  rw [length, sound.count, loops_turned]
  obtain ⟨l', reading, rfl, loops⟩ | ⟨loops, outside, -⟩ := loopsAfter_cases (p := p) turn
  · obtain ⟨rfl, starting⟩ := last_of_toward (reading ▸ nofun : p.toward i ≠ .next)
    rw [loops, ← starting, reading, List.length_append]
    simp [EventLoopThreadPool.turned, Starting.outside]
  · rw [loops, starting_turned]
    split_ifs with iLast <;> simp_all [toward_last]

omit found in
theorem turned_returned (started : (p.turned i t' s').starting = .started) :
    p.threadNums ≤ p.threads.length := by
  rw [starting_turned] at started
  split_ifs at started with iLast
  · obtain ⟨l', -, rfl, -⟩ | ⟨-, -, earlier⟩ := loopsAfter_cases (p := p) turn
    · cases started
    · exact sound.returned (by rw [← earlier started, iLast, toward_last])
  · exact sound.returned started

end Turning

theorem Sound.turned (sound : Sound p) {i : Nat} {t t' : EventLoopThread L} {s' : Starting L}
    (found : p.threads[i]? = some t) (turn : Turn (p.toward i) t s' t')
    (away : i ≠ p.last → s' = .next)
    (unused : t'.stack = t.stack ∨ ∃ l, t'.stack = some l ∧ p.Unused l) :
    Sound (p.turned i t' s') := by
  have length : (p.turned i t' s').threads.length = p.threads.length := List.length_set
  refine ⟨turned_consistent sound found turn away, turned_apart sound found unused,
    turned_notMain sound found unused, turned_read sound found turn, turned_count sound turn, ?_, ?_⟩
  · rw [length]
    exact sound.bounded
  · intro started
    rw [length]
    exact turned_returned sound turn started

/-- The main thread goes on by itself. -/
theorem Sound.moved (sound : Sound p) {s' : Starting L}
    (consistent : ∀ t : EventLoopThread L, Consistent p.starting t → Consistent s' t)
    (outside : s'.outside = p.starting.outside)
    (returned : s' = .started → p.threadNums ≤ p.threads.length) :
    Sound { p with starting := s' } := by
  refine { sound with consistent := ?_, count := ?_, returned := returned }
  · intro i t found
    have before := sound.consistent i t found
    change Consistent (if i = p.last then s' else .next) t
    split_ifs with atLast
    · rw [atLast, toward_last] at before
      exact consistent t before
    · rw [toward_of_ne atLast] at before
      exact before
  · change _ = _ + if s'.outside then 0 else 1
    rw [outside]
    exact sound.count

theorem last_begun (p : EventLoopThreadPool L) : p.begun.last = p.threads.length := by
  simp [begun, last]

/-- The thread that is made, or one that was there. -/
theorem begun_thread {i : Nat} {t : EventLoopThread L} (found : p.begun.threads[i]? = some t) :
    p.threads[i]? = some t ∧ i ≠ p.begun.last ∨ i = p.begun.last ∧ t = .construct := by
  rw [last_begun]
  simp only [begun, List.getElem?_append] at found
  split_ifs at found with before
  · exact Or.inl ⟨found, before.ne⟩
  · rw [List.getElem?_singleton] at found
    split_ifs at found with first
    exact Or.inr ⟨by omega, (Option.some.inj found).symm⟩

theorem begun_standing {i : Nat} {t : EventLoopThread L} {l : L}
    (found : p.begun.threads[i]? = some t) (held : t.stack = some l) :
    p.threads[i]? = some t := by
  obtain ⟨found, -⟩ | ⟨-, rfl⟩ := begun_thread found
  · exact found
  · cases held

theorem Sound.begun (sound : Sound p) (starting : p.starting = .next)
    (more : (p.threads.length : Int) < p.threadNums) : Sound p.begun := by
  have length : p.begun.threads.length = p.threads.length + 1 := List.length_append
  refine ⟨?_, ?_, ?_, ?_, ?_, ?_, nofun⟩
  · intro i t found
    obtain ⟨found, before⟩ | ⟨rfl, rfl⟩ := begun_thread found
    · have out : p.toward i = .next := by
        unfold toward
        split_ifs
        · exact starting
        · rfl
      rw [toward_of_ne before, ← out]
      exact sound.consistent i t found
    · rw [toward_last]
      exact .new
  · intro i j t u l found found' held held'
    exact sound.apart i j t u l (begun_standing found held) (begun_standing found' held') held held'
  · intro i t found main
    exact sound.notMain i t (begun_standing found main) main
  · intro i l read
    obtain ⟨t, found, set⟩ := sound.read i l read
    have inside := (List.getElem?_eq_some_iff.mp found).1
    exact ⟨t, (List.getElem?_append_left inside).trans found, set⟩
  · have count := sound.count
    rw [starting] at count
    rw [length, count]
    rfl
  · rw [length]
    change _ ≤ p.threadNums.toNat
    omega

theorem Sound.works (sound : Sound p) (works : Works p p') : Sound p' := by
  cases works with
  | turns found turn away unused => exact sound.turned found turn away unused
  | begins starting more => exact sound.begun starting more
  | returns starting all =>
      refine sound.moved ?_ (by rw [starting]; rfl) fun _ => all
      rw [starting]
      rintro t ⟨stack, loop, threadFunc, startLoop, -, -, outside⟩
      exact ⟨stack, loop, threadFunc, startLoop, nofun, nofun, outside⟩

/-- **Step lemma** for the pool. -/
theorem Sound.step (sound : Sound p) {action : StartAction L} (steps : Steps p action p') :
    Sound p' := by
  cases steps with
  | works own works => exact sound.works works
  | wakes starting =>
      refine sound.moved ?_ (by rw [starting]; rfl) nofun
      rw [starting]
      rintro t ⟨stack, loop, threadFunc, startLoop, -, -, -⟩
      exact ⟨stack, loop, threadFunc, startLoop, nofun, nofun, nofun⟩

theorem steps_constants {action : StartAction L} (steps : Steps p action p') :
    p'.mainReactor = p.mainReactor ∧ p'.threadNums = p.threadNums := by
  cases steps with
  | works own works => cases works <;> exact ⟨rfl, rfl⟩
  | wakes starting => exact ⟨rfl, rfl⟩

variable [DecidableEq L] {main : L} {n : Int}

theorem sound_of_reaches
    (reaches : Reaches step { mainReactor := main, threadNums := n } p) :
    Sound p ∧ p.mainReactor = main ∧ p.threadNums = n := by
  refine reaches.invariant (P := fun p => Sound p ∧ p.mainReactor = main ∧ p.threadNums = n) ?_
    ⟨sound_start main n, rfl, rfl⟩
  rintro p action p' ⟨sound, rfl, rfl⟩ stepped
  have steps := steps_of_step stepped
  exact ⟨sound.step steps, steps_constants steps⟩

/-- `loop_` has been set when `ThreadFunc` calls `Loop` through it. -/
theorem Sound.no_fault (sound : Sound p) (action : StartAction L) (fault : Fault) :
    p.step action ≠ some (.error fault) := by
  intro failed
  cases action with
  | main =>
      obtain ⟨p', -, impossible⟩ := Option.map_eq_some_iff.mp failed
      cases impossible
  | construct i address =>
      simp only [EventLoopThreadPool.step] at failed
      split at failed
      · split_ifs at failed
        cases failed
      · cases failed
  | thread i =>
      obtain ⟨t, found, failed⟩ := Option.bind_eq_some_iff.mp failed
      unfold threadFunc at failed
      split at failed
      case h_6 func =>
        have set := (sound.consistent i t found).loop
        have held := mt (sound.consistent i t found).stack.mp (by rw [func]; decide)
        rw [func] at set
        split at failed
        · rename_i unset
          exact held (set.symm.trans unset)
        · cases failed
      all_goals first | (split_ifs at failed; cases failed) | cases failed
  | wake =>
      simp only [EventLoopThreadPool.step] at failed
      split_ifs at failed
      cases failed

omit [DecidableEq L] in
theorem Sound.nodup (sound : Sound p) : (p.mainReactor :: p.loops).Nodup := by
  have stack {i : Nat} {l : L} (read : p.loops[i]? = some l) :
      ∃ t, p.threads[i]? = some t ∧ t.stack = some l := by
    obtain ⟨t, found, set⟩ := sound.read i l read
    exact ⟨t, found, (sound.consistent i t found).stack_of_loop set⟩
  refine List.nodup_cons.mpr ⟨?_, List.pairwise_iff_getElem.mpr ?_⟩
  · intro inside
    obtain ⟨i, read⟩ := List.mem_iff_getElem?.mp inside
    obtain ⟨t, found, held⟩ := stack read
    exact sound.notMain i t found held
  · intro i j insideI insideJ before same
    obtain ⟨t, found, held⟩ := stack (List.getElem?_eq_getElem insideI)
    obtain ⟨u, found', held'⟩ := stack (List.getElem?_eq_getElem insideJ)
    exact before.ne (sound.apart i j t u _ found found' held (same ▸ held'))

/-- **The pool has the loops of its threads, each once and in order**, in every state of
`Start` and whatever `wait` does: none is the main loop, no thread calls `Loop` through a
null pointer, and while the main thread sleeps the notification is still to come. -/
theorem loops_of_threads (reaches : Reaches step { mainReactor := main, threadNums := n } p) :
    (∀ action fault, p.step action ≠ some (.error fault)) ∧
    (main :: p.loops).Nodup ∧
    (∀ (i : Nat) (l : L), p.loops[i]? = some l →
      ∃ t : EventLoopThread L, p.threads[i]? = some t ∧ t.stack = some l ∧ t.loop = some l) ∧
    (p.starting = .waiting →
      ∃ t : EventLoopThread L, p.threads[p.last]? = some t ∧ t.func.hasNotified = false) ∧
    (p.starting = .started → p.threads.length = n.toNat ∧ p.loops.length = n.toNat) := by
  obtain ⟨sound, rfl, rfl⟩ := sound_of_reaches reaches
  have count := sound.count
  refine ⟨sound.no_fault, sound.nodup, ?_, ?_, ?_⟩
  · intro i l read
    obtain ⟨t, found, set⟩ := sound.read i l read
    exact ⟨t, found, (sound.consistent i t found).stack_of_loop set, set⟩
  · intro waiting
    rw [waiting] at count
    have count : p.threads.length = p.loops.length + 1 := count
    have inside : p.last < p.threads.length := Nat.sub_lt (by omega) Nat.one_pos
    have found := List.getElem?_eq_getElem inside
    refine ⟨_, found, (sound.consistent _ _ found).asleep ?_⟩
    rw [toward_last, waiting]
  · intro started
    have bounded := sound.bounded
    have returned := sound.returned started
    rw [started] at count
    have count : p.threads.length = p.loops.length := count
    exact ⟨by omega, by omega⟩

end Runs

/-! ## `Start` returns -/

section Returns

variable {L : Type} [DecidableEq L] {p p' : EventLoopThreadPool L} {main : L} {n : Int}

/-- A step of one of the threads; `wait` does not return by itself. -/
def OwnNext (p p' : EventLoopThreadPool L) : Prop :=
  ∃ action : StartAction L, action ≠ .wake ∧ p.step action = some (.ok p')

/-- There is memory for one more loop than has been asked for. -/
def Room (p : EventLoopThreadPool L) : Prop :=
  ∀ used : List L, used.length ≤ p.threadNums.toNat → ∃ l, l ∉ used

/-- `Start` has returned, and all threads are in `Loop`. -/
def Running (p : EventLoopThreadPool L) : Prop :=
  p.starting = .started ∧ ∀ t ∈ p.threads, t.func = .looping

/-- The threads to be made, their steps up to `Loop`, and the steps of `StartLoop`. -/
def rank (p : EventLoopThreadPool L) : ℕ ×ₗ ℕ ×ₗ ℕ :=
  toLex (p.threadNums.toNat - p.threads.length,
    toLex ((p.threads.map fun t => t.func.left).sum, p.starting.left))

omit [DecidableEq L] in
theorem Works.rank_lt (works : Works p p') : p'.rank < p.rank := by
  cases works with
  | returns starting all =>
      refine Prod.Lex.toLex_lt_toLex.mpr (Or.inr ⟨rfl, Prod.Lex.toLex_lt_toLex.mpr (Or.inr ⟨rfl, ?_⟩)⟩)
      simp [starting, Starting.left]
  | begins starting more =>
      refine Prod.Lex.toLex_lt_toLex.mpr (Or.inl ?_)
      have length : p.begun.threads.length = p.threads.length + 1 := List.length_append
      rw [length]
      change p.threadNums.toNat - _ < _
      omega
  | @turns i t t' s' found turn away unused =>
      have length : (p.turned i t' s').threads.length = p.threads.length := List.length_set
      refine Prod.Lex.toLex_lt_toLex.mpr (Or.inr ⟨by rw [length]; rfl, ?_⟩)
      refine Prod.Lex.toLex_lt_toLex.mpr ?_
      obtain ⟨inside, same⟩ := List.getElem?_eq_some_iff.mp found
      obtain ⟨before, after, threads, -, set⟩ := @List.exists_of_set _ i t' _ inside
      rw [same] at threads
      have set : (p.turned i t' s').threads = before ++ t' :: after := set
      rw [set, threads]
      simp only [List.map_append, List.map_cons, List.sum_append, List.sum_cons]
      obtain lower | ⟨same, lower⟩ := turn.left_lt
      · exact Or.inl (by omega)
      · refine Or.inr ⟨by rw [same], ?_⟩
        by_cases atLast : i = p.last
        · rw [atLast, toward_last] at lower
          rwa [starting_turned, if_pos atLast]
        · rw [toward_of_ne atLast, away atLast] at lower
          exact absurd lower (lt_irrefl _)

omit [DecidableEq L] in
theorem Sound.unused (sound : Sound p) {i : Nat} {t : EventLoopThread L}
    (found : p.threads[i]? = some t) (func : t.func = .constructing) (room : p.Room) :
    ∃ l, p.Unused l := by
  have empty := (sound.consistent i t found).stack.mpr func
  have fewer : (p.threads.map (·.stack)).reduceOption.length < (p.threads.map (·.stack)).length :=
    List.reduceOption_length_lt_iff.mpr (List.mem_map.mpr ⟨t, List.mem_of_getElem? found, empty⟩)
  rw [List.length_map] at fewer
  obtain ⟨l, absent⟩ := room (p.mainReactor :: (p.threads.map (·.stack)).reduceOption)
    (Nat.succ_le_of_lt fewer |>.trans sound.bounded)
  rw [List.mem_cons, not_or, List.reduceOption_mem_iff] at absent
  exact ⟨l, absent.1, fun u inside held => absent.2 (List.mem_map.mpr ⟨u, inside, held⟩)⟩

theorem goes_of_isSome (sound : Sound p) (action : StartAction L) (own : action ≠ .wake)
    (can : (p.step action).isSome) : ∃ p', OwnNext p p' := by
  obtain ⟨outcome, stepped⟩ := Option.isSome_iff_exists.mp can
  cases outcome with
  | error fault => exact absurd stepped (sound.no_fault action fault)
  | ok p' => exact ⟨p', action, own, stepped⟩

/-- A thread that is not in `Loop`, and not kept out by the mutex, takes a step. -/
theorem thread_goes (sound : Sound p) (room : p.Room) {i : Nat} {t : EventLoopThread L}
    (found : p.threads[i]? = some t) (busy : t.func ≠ .looping)
    (free : t.func = .locking → t.mutex = none) : ∃ p', OwnNext p p' := by
  have goes (can : (p.threadFunc i t).isSome) : ∃ p', OwnNext p p' := by
    refine goes_of_isSome sound (.thread i) nofun ?_
    rw [step, found]
    exact can
  cases func : t.func with
  | constructing =>
      obtain ⟨l, unused⟩ := sound.unused found func room
      refine goes_of_isSome sound (.construct i l) nofun ?_
      simp only [step, found, func, unused, and_self, if_true, Option.isSome_some]
  | locking => exact goes (by simp only [threadFunc, func, free func, if_true, Option.isSome_some])
  | setting => exact goes (by simp only [threadFunc, func, Option.isSome_some])
  | notifying => exact goes (by simp only [threadFunc, func, Option.isSome_some])
  | unlocking => exact goes (by simp only [threadFunc, func, Option.isSome_some])
  | calling =>
      apply goes
      simp only [threadFunc, func]
      split <;> rfl
  | looping => exact absurd func busy

omit [DecidableEq L] in
/-- The thread of the `StartLoop` that the main thread is in. -/
theorem Sound.current (sound : Sound p) (inside : p.starting.outside = false) :
    ∃ t, p.threads[p.last]? = some t ∧ Consistent p.starting t := by
  have count := sound.count
  rw [inside] at count
  have count : p.threads.length = p.loops.length + 1 := count
  have within : p.last < p.threads.length := Nat.sub_lt (by omega) Nat.one_pos
  have consistent := sound.consistent _ _ (List.getElem?_eq_getElem within)
  rw [toward_last] at consistent
  exact ⟨_, List.getElem?_eq_getElem within, consistent⟩

/-- `Start` has returned, and a thread that is not in `Loop` goes on. -/
theorem started_goes (sound : Sound p) (room : p.Room) (starting : p.starting = .started)
    (busy : ¬ p.Running) : ∃ p', OwnNext p p' := by
  obtain ⟨t, inside, busy⟩ : ∃ t ∈ p.threads, t.func ≠ .looping := by
    by_contra idle
    exact busy ⟨starting, by simpa using idle⟩
  obtain ⟨i, found⟩ := List.mem_iff_getElem?.mp inside
  have consistent := sound.consistent i t found
  have out : (p.toward i).outside := by
    unfold toward
    split_ifs
    · rw [starting]
      rfl
    · rfl
  refine thread_goes sound room found busy ?_
  intro locking
  have set := consistent.loop
  rw [locking] at set
  exact absurd set (consistent.outside out)

/-- `StartLoop` wants the mutex or sleeps, and the thread goes on to unlock or to notify it. -/
theorem other_goes (sound : Sound p) (room : p.Room) {t : EventLoopThread L}
    (found : p.threads[p.last]? = some t) (consistent : Consistent p.starting t)
    (unlocked : p.starting.locked = false)
    (awaited : t.mutex ≠ none ∨ p.starting = .waiting) : ∃ p', OwnNext p p' := by
  refine thread_goes sound room found ?_ ?_
  · intro looping
    rcases awaited with held | waiting
    · have locked := consistent.locked_of_mutex unlocked held
      rw [looping] at locked
      cases locked
    · have unnotified := consistent.asleep waiting
      rw [looping] at unnotified
      cases unnotified
  · intro locking
    by_contra held
    have locked := consistent.locked_of_mutex unlocked held
    rw [locking] at locked
    cases locked

/-- Somebody takes a step until all threads are in `Loop`. -/
theorem own_goes (sound : Sound p) (room : p.Room) (busy : ¬ p.Running) :
    ∃ p', OwnNext p p' := by
  have goes (can : p.start.isSome) : ∃ p', OwnNext p p' := by
    refine goes_of_isSome sound .main nofun ?_
    rwa [step, Option.isSome_map]
  have inStartLoop {t : EventLoopThread L} (found : p.threads[p.last]? = some t)
      (inside : p.starting ≠ .next) (can : (p.startLoop t).isSome) : ∃ p', OwnNext p p' := by
    apply goes
    unfold start
    split
    · exact absurd ‹_› inside
    · rwa [found]
  cases starting : p.starting with
  | next =>
      apply goes
      simp only [start, starting]
      split <;> rfl
  | locking =>
      obtain ⟨t, found, consistent⟩ := sound.current (by rw [starting]; rfl)
      by_cases free : t.mutex = none
      · apply inStartLoop found (by rw [starting]; nofun)
        simp only [startLoop, starting, free, if_true, Option.isSome_some]
      · exact other_goes sound room found consistent (by rw [starting]; rfl) (Or.inl free)
  | testing =>
      obtain ⟨t, found, -⟩ := sound.current (by rw [starting]; rfl)
      apply inStartLoop found (by rw [starting]; nofun)
      simp only [startLoop, starting]
      split <;> rfl
  | waiting =>
      obtain ⟨t, found, consistent⟩ := sound.current (by rw [starting]; rfl)
      exact other_goes sound room found consistent (by rw [starting]; rfl) (Or.inr starting)
  | unlocking loop =>
      obtain ⟨t, found, -⟩ := sound.current (by rw [starting]; rfl)
      apply inStartLoop found (by rw [starting]; nofun)
      simp only [startLoop, starting, Option.isSome_some]
  | started => exact started_goes sound room starting busy

theorem settling (n : Int) :
    Settling (OwnNext (L := L)) (fun p => Sound p ∧ p.threadNums = n ∧ p.Room) Running rank where
  kept := by
    rintro p p' ⟨sound, rfl, room⟩ ⟨action, -, stepped⟩
    have steps := steps_of_step stepped
    have same := (steps_constants steps).2
    exact ⟨sound.step steps, same, by rwa [Room, same]⟩
  falls := by
    rintro p p' - ⟨action, own, stepped⟩
    cases steps_of_step stepped with
    | works _ works => exact works.rank_lt
    | wakes => exact absurd rfl own
  goes := by
    rintro p ⟨sound, -, room⟩ busy
    exact own_goes sound room busy

omit [DecidableEq L] in
/-- When `Start` has returned, the pool has the loop of each thread. -/
theorem Sound.loops_eq (sound : Sound p) (started : p.starting = .started) :
    p.loops.map some = p.threads.map (·.loop) := by
  have count := sound.count
  rw [started] at count
  have count : p.threads.length = p.loops.length := count
  apply List.ext_getElem?
  intro i
  rw [List.getElem?_map, List.getElem?_map]
  cases read : p.loops[i]? with
  | some l =>
      obtain ⟨t, found, set⟩ := sound.read i l read
      rw [found, Option.map_some, Option.map_some, set]
  | none =>
      have beyond : p.threads[i]? = none := by
        rw [List.getElem?_eq_none_iff] at read ⊢
        omega
      rw [beyond, Option.map_none, Option.map_none]

/-- **`Start` returns.**  Wherever it and the threads have come to, and however often `wait`
has returned early, there is no endless run of their own steps, and each such run can be
continued until `Start` has returned with the loops it was asked for, each of its own
thread, and all threads are in `Loop`. -/
theorem start_returns (reaches : Reaches step { mainReactor := main, threadNums := n } p)
    (room : ∀ used : List L, used.length ≤ n.toNat → ∃ l, l ∉ used) :
    (¬ ∃ run : ℕ → EventLoopThreadPool L, run 0 = p ∧ ∀ k, OwnNext (run k) (run (k + 1))) ∧
    ∀ q, Relation.ReflTransGen OwnNext p q →
      ∃ r, Relation.ReflTransGen OwnNext q r ∧ r.Running ∧ r.loops.length = n.toNat ∧
        r.loops.map some = r.threads.map (·.loop) := by
  obtain ⟨sound, -, rfl⟩ := sound_of_reaches reaches
  have initial := (⟨sound, rfl, room⟩ : Sound p ∧ p.threadNums = p.threadNums ∧ p.Room)
  refine ⟨(settling p.threadNums).no_endless_run initial, ?_⟩
  intro q later
  have reached := (settling p.threadNums).reaches initial later
  obtain ⟨r, rested, running⟩ := (settling p.threadNums).rests reached
  obtain ⟨sound', same, -⟩ := (settling p.threadNums).reaches reached rested
  have all := sound'.loops_eq running.1
  refine ⟨r, rested, running, ?_, all⟩
  have count : r.loops.length = r.threads.length := by
    simpa using congrArg List.length all
  have bounded := sound'.bounded
  have returned := sound'.returned running.1
  omega

end Returns

/-- The main thread falls asleep before the second thread has a loop, is woken too early, and
then by the thread. -/
def sleepyRun : List (StartAction Nat) :=
  [.main, .construct 0 1, .thread 0, .thread 0, .thread 0, .thread 0, .main, .main, .main,
    .main, .main, .main, .wake, .main, .main, .construct 1 2, .thread 1, .thread 1]

theorem loops_of_threads_sleepy :
    ∃ p : EventLoopThreadPool Nat, p.starting = .waiting ∧ p.loops = [1] ∧ (0 :: p.loops).Nodup ∧
      ∃ t : EventLoopThread Nat, p.threads[1]? = some t ∧ t.loop = some 2 ∧
        t.func.hasNotified = false := by
  have performed : ((perform step { mainReactor := 0, threadNums := 2 } sleepyRun).any fun p =>
      p.starting = .waiting ∧ p.loops = [1] ∧ p.threads.length = 2 ∧
        p.threads.map (·.loop) = [some 1, some 2]) = true := by
    decide
  obtain ⟨p, performed, known⟩ := (Option.any_eq_true _ _).mp performed
  obtain ⟨waiting, loops, two, set⟩ := of_decide_eq_true known
  obtain ⟨-, nodup, -, asleep, -⟩ := loops_of_threads (reaches_of_perform performed)
  obtain ⟨t, found, unnotified⟩ := asleep waiting
  have lastIs : p.last = 1 := by rw [last, two]
  rw [lastIs] at found
  refine ⟨p, waiting, loops, nodup, t, found, ?_, unnotified⟩
  have known : (p.threads.map (·.loop))[1]? = some (some 2) := by rw [set]; rfl
  rw [List.getElem?_map, found] at known
  exact Option.some.inj known

theorem start_returns_sleepy :
    ∃ p r : EventLoopThreadPool Nat, p.starting = .waiting ∧ p.loops = [1] ∧
      Relation.ReflTransGen OwnNext p r ∧ r.Running ∧ r.loops.length = 2 := by
  have performed : ((perform step { mainReactor := 0, threadNums := 2 } sleepyRun).any fun p =>
      p.starting = .waiting ∧ p.loops = [1]) = true := by
    decide
  obtain ⟨p, performed, known⟩ := (Option.any_eq_true _ _).mp performed
  obtain ⟨waiting, loops⟩ := of_decide_eq_true known
  have room (used : List Nat) (_ : used.length ≤ (2 : Int).toNat) : ∃ l, l ∉ used :=
    Infinite.exists_notMem_finset used.toFinset |>.imp fun l absent => by simpa using absent
  obtain ⟨r, later, running, length, -⟩ :=
    (start_returns (reaches_of_perform performed) room).2 p .refl
  exact ⟨p, r, waiting, loops, later, running, length⟩

end EventLoopThreadPool

end CppFileServer.Tcp
