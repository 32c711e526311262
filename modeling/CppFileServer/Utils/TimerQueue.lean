/-
# Utils.TimerQueue -- the timers of a loop and their timerfd

`timers_` is an ordered set of pairs of an expiry and the address of a timer.
`HandleRead` takes the expired ones out, runs their callbacks, and puts the
repeating ones back; a callback may add timers, so the model goes through a call
in steps.  A timer has an index of its own besides its address, which another
timer may get once it is deleted.

Times are integers, where a `TimerStamp` has an `int64_t` of microseconds: that no sum
of a time and an interval overflows is taken for granted.

Not in the source, but records of what has happened: the `address`, `runs` and
`restarted` of a timer, the `call` of `HandleRead` that is running or was the
last one, and the reading of the clock at which the timerfd was armed.
-/
import CppFileServer.Cpp.Basic
import CppFileServer.Theory.Machine
import CppFileServer.Theory.SortedSet
import Mathlib.Data.Prod.Lex

namespace CppFileServer.Utils

set_option autoImplicit false

open CppFileServer.Cpp CppFileServer.Theory

/-- A `double` number of seconds, by what the code computes from it. -/
structure Interval where
  /-- `interval > 0.0`. -/
  positive : Bool
  /-- `static_cast<int64_t>(interval * 1000000)`. -/
  micros : Int

structure Timer where
  expireTime : Int
  interval : Interval
  address : Nat
  runs : Nat := 0
  /-- The time of the `Restart` after the last run. -/
  restarted : Option Int := none

def Timer.repeats (timer : Timer) : Bool := timer.interval.positive

/-- `std::pair<TimerStamp, Timer *>`, in the order of pairs. -/
abbrev Entry := Int ×ₗ Nat

namespace Entry

def make (time : Int) (timer : Nat) : Entry := toLex (time, timer)

def time (e : Entry) : Int := (ofLex e).1

def timer (e : Entry) : Nat := (ofLex e).2

@[simp] theorem make_time (t : Int) (p : Nat) : (make t p).time = t := rfl

@[simp] theorem make_timer (t : Int) (p : Nat) : (make t p).timer = p := rfl

theorem make_inj {t u : Int} {p r : Nat} : make t p = make u r ↔ t = u ∧ p = r := by
  rw [make, make, EmbeddingLike.apply_eq_iff_eq, Prod.mk.injEq]

theorem lt_make {e : Entry} {t : Int} {p : Nat} :
    e < make t p ↔ e.time < t ∨ e.time = t ∧ e.timer < p := Prod.Lex.lt_iff

theorem time_le {d e : Entry} (le : d ≤ e) : d.time ≤ e.time := by
  rcases Prod.Lex.le_iff.mp le with less | ⟨same, -⟩
  · exact less.le
  · exact same.le

end Entry

/-- The address in the sentinel of `lower_bound`. -/
def uintptrMax : Nat := 2 ^ 64 - 1

/-! ## The timerfd -/

structure Timerfd where
  /-- An expiration has not been read. -/
  unread : Bool := false
  /-- When the timer expires, in nanoseconds. -/
  deadline : Option Int := none
  armedAt : Int := 0

namespace Timerfd

/-- `timerfd_settime` at the time `now`, relative and without an interval; the call
fails on a value that is out of range. -/
def settime (fd : Timerfd) (now seconds nanoseconds : Int) : Timerfd :=
  if seconds < 0 ∨ nanoseconds < 0 ∨ 1000000000 ≤ nanoseconds then fd
  else if seconds = 0 ∧ nanoseconds = 0 then { fd with unread := false, deadline := none }
  else
    { unread := false
      deadline := some (now * 1000 + seconds * 1000000000 + nanoseconds)
      armedAt := now }

/-- `ReadTimerFd`. -/
def read (fd : Timerfd) : Timerfd := { fd with unread := false }

/-- What the kernel does as the clock reaches `now`. -/
def elapse (fd : Timerfd) (now : Int) : Timerfd :=
  match fd.deadline with
  | some deadline =>
      if deadline ≤ now * 1000 then { fd with unread := true, deadline := none } else fd
  | none => fd

end Timerfd

/-! ## The queue -/

/-- Where the thread of the loop is. -/
inductive TimerPhase
  /-- In no call of `HandleRead`. -/
  | idle
  /-- In the callbacks of `HandleRead`; these timers are still to be run. -/
  | running (rest : List Entry)
  /-- In `ResetTimers`; these timers are still to be put back or deleted. -/
  | resetting (rest : List Entry)

/-- A call of `HandleRead`: the sampled time, `timers_` at that time, the timers run. -/
structure Call where
  now : Int := 0
  timers : List Entry := []
  ran : List Entry := []

structure TimerQueue where
  timers : SortedSet Entry := .empty
  activeTimers : List Entry := []
  timerfd : Timerfd := {}
  /-- Which timer lives at an address. -/
  memory : Nat → Option Nat := fun _ => none
  object : Nat → Timer := fun _ => { expireTime := 0, interval := ⟨false, 0⟩, address := 0 }
  /-- How many timers have been created. -/
  allocated : Nat := 0
  /-- What `TimerStamp::Now()` returns. -/
  clock : Int
  phase : TimerPhase := .idle
  call : Call := {}

namespace TimerQueue

/-- The timer a pointer points to; anything else is a use after `delete`. -/
def deref (q : TimerQueue) (timer : Nat) : Result Nat :=
  match q.memory timer with
  | some i => .ok i
  | none => .error .undefined

def set (q : TimerQueue) (i : Nat) (timer : Timer) : TimerQueue :=
  { q with object := Function.update q.object i timer }

/-- `new Timer(when, cb, interval)`, at an address that `operator new` returned. -/
def newTimer (q : TimerQueue) (address : Nat) (expireTime : Int) (interval : Interval) :
    TimerQueue :=
  { q with
    memory := Function.update q.memory address (some q.allocated)
    object := Function.update q.object q.allocated
      { expireTime := expireTime, interval := interval, address := address }
    allocated := q.allocated + 1 }

def deleteTimer (q : TimerQueue) (address : Nat) : TimerQueue :=
  { q with memory := Function.update q.memory address none }

def insert (q : TimerQueue) (timer : Nat) : Result (Bool × TimerQueue) := do
  let i ← q.deref timer
  let time := (q.object i).expireTime
  let resetInstantly :=
    match q.timers.first? with
    | none => true
    | some begin_ => decide (time < begin_.time)
  pure (resetInstantly, { q with timers := q.timers.emplace (Entry.make time timer) })

def resetTimerFd (q : TimerQueue) (timer : Nat) : Result TimerQueue := do
  let i ← q.deref timer
  let left := (q.object i).expireTime - q.clock
  let microSeconds := if left < 100 then 100 else left
  let timerfd :=
    q.timerfd.settime q.clock (microSeconds.tdiv 1000000) (microSeconds.tmod 1000000 * 1000)
  pure { q with timerfd := timerfd }

def addTimer (q : TimerQueue) (address : Nat) (expireTime : Int) (interval : Interval) :
    Result TimerQueue := do
  let (resetInstantly, q) ← (q.newTimer address expireTime interval).insert address
  if resetInstantly then q.resetTimerFd address else pure q

/-- `HandleRead`, up to its first callback. -/
def handleRead (q : TimerQueue) : TimerQueue :=
  let sentinel := Entry.make q.clock uintptrMax
  { q with
    timerfd := q.timerfd.read
    activeTimers := (q.timers.before sentinel).elems
    timers := q.timers.onwards sentinel
    phase := .running (q.timers.before sentinel).elems
    call := { now := q.clock, timers := q.timers.elems, ran := [] } }

/-- `Run()` of the next active timer, up to what its callback does. -/
def runTimer (q : TimerQueue) (e : Entry) (rest : List Entry) : Result TimerQueue := do
  let i ← q.deref e.timer
  let q := q.set i { q.object i with runs := (q.object i).runs + 1, restarted := none }
  pure { q with phase := .running rest, call := { q.call with ran := q.call.ran ++ [e] } }

/-- The body of the loop of `ResetTimers`. -/
def resetTimer (q : TimerQueue) (e : Entry) (rest : List Entry) : Result TimerQueue := do
  let i ← q.deref e.timer
  let timer := q.object i
  if timer.repeats then
    let restartTime := q.clock + timer.interval.micros
    let q := q.set i { timer with expireTime := restartTime, restarted := some q.clock }
    let (_, q) ← q.insert e.timer
    pure { q with phase := .resetting rest }
  else pure { q.deleteTimer e.timer with phase := .resetting rest }

/-- The end of `ResetTimers` and of `HandleRead`. -/
def rearm (q : TimerQueue) : Result TimerQueue :=
  match q.timers.first? with
  | some begin_ => do
      let q ← q.resetTimerFd begin_.timer
      pure { q with phase := .idle }
  | none => .ok { q with phase := .idle }

end TimerQueue

inductive TimerAction
  /-- The clock goes on to this time. -/
  | wait (time : Int)
  | addTimer (address : Nat) (expireTime : Int) (interval : Interval)
  | handleRead
  | run
  | resetTimers
  | reset
  | rearm

namespace TimerQueue

/-- `operator new` returned this address. -/
def Fresh (q : TimerQueue) (address : Nat) : Prop :=
  0 < address ∧ address < uintptrMax ∧ q.memory address = none

instance (q : TimerQueue) (address : Nat) : Decidable (q.Fresh address) :=
  inferInstanceAs (Decidable (_ ∧ _ ∧ _))

/-- `AddTimer` is called outside of `HandleRead` or in one of its callbacks. -/
def accepts (q : TimerQueue) : Bool :=
  match q.phase with
  | .resetting _ => false
  | _ => true

def step (q : TimerQueue) : TimerAction → Option (Result TimerQueue)
  | .wait time =>
      if q.clock ≤ time then
        some (.ok { q with clock := time, timerfd := q.timerfd.elapse time })
      else none
  | .addTimer address expireTime interval =>
      if q.accepts ∧ q.Fresh address then some (q.addTimer address expireTime interval) else none
  | .handleRead =>
      match q.phase with
      | .idle => some (.ok q.handleRead)
      | _ => none
  | .run =>
      match q.phase with
      | .running (e :: rest) => some (q.runTimer e rest)
      | _ => none
  | .resetTimers =>
      match q.phase with
      | .running [] => some (.ok { q with phase := .resetting q.activeTimers })
      | _ => none
  | .reset =>
      match q.phase with
      | .resetting (e :: rest) => some (q.resetTimer e rest)
      | _ => none
  | .rearm =>
      match q.phase with
      | .resetting [] => some q.rearm
      | _ => none

/-! ## What each operation does -/

variable {q : TimerQueue}

theorem deref_of_lives {timer i : Nat} (lives : q.memory timer = some i) :
    q.deref timer = .ok i := by
  rw [deref, lives]

/-- `Insert` of a timer that lives; it is the new first one when it says so. -/
theorem insert_of_lives {timer i : Nat} (lives : q.memory timer = some i) :
    ∃ resetInstantly, q.insert timer = .ok (resetInstantly,
        { q with timers := q.timers.emplace (Entry.make (q.object i).expireTime timer) }) ∧
      (resetInstantly = true ↔ ∀ b, q.timers.first? = some b → (q.object i).expireTime < b.time) := by
  refine ⟨_, by rw [insert, deref_of_lives lives]; rfl, ?_⟩
  cases q.timers.first? with
  | none => simp
  | some b => simp

/-- The value handed to `timerfd_settime` is always one that arms. -/
theorem settime_of_pos (fd : Timerfd) (now : Int) {left : Int} (positive : 0 < left) :
    fd.settime now (left.tdiv 1000000) (left.tmod 1000000 * 1000) =
      { unread := false, deadline := some ((now + left) * 1000), armedAt := now } := by
  have split := Int.tmod_add_tdiv_mul left 1000000
  have low := Int.tmod_nonneg 1000000 (le_of_lt positive)
  have high := Int.tmod_lt_of_pos left (show (0 : Int) < 1000000 by decide)
  have quotient := Int.tdiv_nonneg (le_of_lt positive) (show (0 : Int) ≤ 1000000 by decide)
  rw [Timerfd.settime, if_neg (by omega), if_neg (by omega)]
  congr 2
  omega

/-- `ResetTimerFd` arms the timerfd for the expiry, and never for less than 100 us ahead. -/
theorem resetTimerFd_of_lives {timer i : Nat} (lives : q.memory timer = some i) :
    q.resetTimerFd timer = .ok { q with timerfd :=
      { unread := false
        deadline := some (max (q.object i).expireTime (q.clock + 100) * 1000)
        armedAt := q.clock } } := by
  rw [resetTimerFd, deref_of_lives lives]
  simp only [ok_bind, pure_eq_ok]
  rw [settime_of_pos _ _ (by split_ifs <;> omega)]
  congr 5
  split_ifs <;> omega

theorem newTimer_lives (q : TimerQueue) (address : Nat) (expireTime : Int) (interval : Interval) :
    (q.newTimer address expireTime interval).memory address = some q.allocated :=
  Function.update_self _ _ _

/-- The queue with a new timer in `timers_`. -/
def added (q : TimerQueue) (address : Nat) (expireTime : Int) (interval : Interval) : TimerQueue :=
  { q with
    memory := Function.update q.memory address (some q.allocated)
    object := Function.update q.object q.allocated
      { expireTime := expireTime, interval := interval, address := address }
    allocated := q.allocated + 1
    timers := q.timers.emplace (Entry.make expireTime address) }

/-- `AddTimer` adds the timer, and arms the timerfd for it when it is the first to expire. -/
theorem addTimer_spec (q : TimerQueue) (address : Nat) (expireTime : Int) (interval : Interval) :
    ∃ timerfd, q.addTimer address expireTime interval =
        .ok { q.added address expireTime interval with timerfd := timerfd } ∧
      timerfd = if ∀ b, q.timers.first? = some b → expireTime < b.time then
          { unread := false
            deadline := some (max expireTime (q.clock + 100) * 1000)
            armedAt := q.clock }
        else q.timerfd := by
  have object : (q.newTimer address expireTime interval).object q.allocated =
      { expireTime := expireTime, interval := interval, address := address } :=
    Function.update_self _ _ _
  obtain ⟨resetInstantly, inserted, earliest⟩ :=
    insert_of_lives (newTimer_lives q address expireTime interval)
  rw [object] at inserted earliest
  replace inserted : (q.newTimer address expireTime interval).insert address =
      .ok (resetInstantly, q.added address expireTime interval) := inserted
  replace earliest : resetInstantly = true ↔
      ∀ b, q.timers.first? = some b → expireTime < b.time := earliest
  have lives : (q.added address expireTime interval).memory address = some q.allocated :=
    newTimer_lives q address expireTime interval
  refine ⟨_, ?_, rfl⟩
  rw [addTimer, inserted]
  simp only [ok_bind]
  cases resetInstantly with
  | true =>
      rw [if_pos rfl, resetTimerFd_of_lives lives, if_pos (earliest.mp rfl),
        show (q.added address expireTime interval).object q.allocated = _ from object]
      rfl
  | false =>
      rw [if_neg (by simp), if_neg (fun first => absurd (earliest.mpr first) (by simp))]
      rfl

/-- The queue after a callback. -/
def called (q : TimerQueue) (i : Nat) (e : Entry) (rest : List Entry) : TimerQueue :=
  { q with
    object := Function.update q.object i
      { q.object i with runs := (q.object i).runs + 1, restarted := none }
    phase := .running rest
    call := { q.call with ran := q.call.ran ++ [e] } }

theorem runTimer_of_lives {e : Entry} {i : Nat} (lives : q.memory e.timer = some i)
    (rest : List Entry) : q.runTimer e rest = .ok (q.called i e rest) := by
  rw [runTimer, deref_of_lives lives]
  rfl

/-- The queue with a repeating timer put back. -/
def putBack (q : TimerQueue) (i : Nat) (e : Entry) (rest : List Entry) : TimerQueue :=
  { q with
    object := Function.update q.object i
      { q.object i with
        expireTime := q.clock + (q.object i).interval.micros
        restarted := some q.clock }
    timers := q.timers.emplace (Entry.make (q.clock + (q.object i).interval.micros) e.timer)
    phase := .resetting rest }

/-- The queue with a one-shot timer deleted. -/
def deleted (q : TimerQueue) (e : Entry) (rest : List Entry) : TimerQueue :=
  { q with memory := Function.update q.memory e.timer none, phase := .resetting rest }

theorem resetTimer_of_lives {e : Entry} {i : Nat} (lives : q.memory e.timer = some i)
    (rest : List Entry) : q.resetTimer e rest =
      .ok (if (q.object i).repeats then q.putBack i e rest else q.deleted e rest) := by
  rw [resetTimer, deref_of_lives lives]
  simp only [ok_bind]
  cases repeats : (q.object i).repeats with
  | true =>
      obtain ⟨resetInstantly, inserted, -⟩ :=
        insert_of_lives (q := q.set i { q.object i with
          expireTime := q.clock + (q.object i).interval.micros
          restarted := some q.clock }) lives
      rw [if_pos rfl, if_pos rfl, inserted]
      simp only [ok_bind, pure_eq_ok, set, Function.update_self]
      rfl
  | false => rfl

end TimerQueue

end CppFileServer.Utils
