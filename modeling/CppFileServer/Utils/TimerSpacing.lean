/-
# Utils.TimerSpacing -- when the timers run

A timer is due at the time it was added with, and a repeating one again an interval after
`ResetTimers` has put it back, which is after its callback.  `TimedQueue` is a queue with
two records that the source does not keep: the time each timer was added with, and the
callbacks that have run.

No timer runs early, two runs of one timer are at least its interval apart, and one that
does not repeat runs once at most (`runs_spaced`), whatever timers callbacks add and
however late the loop comes.
-/
import CppFileServer.Utils.TimerConservation
import Mathlib.Data.List.Chain

namespace CppFileServer.Utils

set_option autoImplicit false

open CppFileServer.Cpp CppFileServer.Theory

structure TimedQueue where
  queue : TimerQueue
  asked : List Int := []
  /-- Each callback with the index of its timer and the time, oldest first. -/
  ran : List (Nat × Int) := []

namespace TimedQueue

/-- The time that an action adds a timer with. -/
def asks : TimerAction → List Int
  | .addTimer _ expireTime _ => [expireTime]
  | _ => []

/-- The callback that an action runs. -/
def runs (q : TimerQueue) : TimerAction → List (Nat × Int)
  | .run =>
      match q.phase with
      | .running (e :: _) => (q.memory e.timer).toList.map (·, q.clock)
      | _ => []
  | _ => []

def step (s : TimedQueue) (action : TimerAction) : Option (Result TimedQueue) :=
  (s.queue.step action).map fun stepped => stepped.map fun q =>
    { queue := q, asked := s.asked ++ asks action, ran := s.ran ++ runs s.queue action }

def start (clock : Int) : TimedQueue := { queue := TimerQueue.start clock }

/-- When a timer has run. -/
def times (s : TimedQueue) (i : Nat) : List Int :=
  (s.ran.filter (·.1 = i)).map (·.2)

end TimedQueue

/-! ## One timer -/

/-- What holds of a timer that was added with the time `first` and has run at `times`. -/
structure Timely (first : Int) (timer : Timer) (clock : Int) (times : List Int) : Prop where
  count : times.length = timer.runs
  fresh : timer.runs = 0 → timer.expireTime = first
  again : ∀ put, timer.restarted = some put →
    timer.expireTime = put + timer.interval.micros ∧ ∀ t ∈ times.getLast?, t ≤ put
  past : ∀ t ∈ times, t ≤ clock
  early : ∀ t ∈ times.head?, first ≤ t
  spaced : times.IsChain fun t u => t + timer.interval.micros ≤ u

namespace Timely

variable {first : Int} {timer : Timer} {clock : Int} {times : List Int}

theorem new (expireTime : Int) (interval : Interval) (address : Nat) (clock : Int) :
    Timely expireTime { expireTime := expireTime, interval := interval, address := address } clock
      [] where
  count := rfl
  fresh _ := rfl
  again := nofun
  past := nofun
  early := nofun
  spaced := .nil

theorem wait (timely : Timely first timer clock times) {time : Int} (later : clock ≤ time) :
    Timely first timer time times :=
  { timely with past := fun t inside => (timely.past t inside).trans later }

/-- A timer runs that is due and has not run since it was added or put back. -/
theorem run (timely : Timely first timer clock times)
    (ready : timer.runs = 0 ∨ timer.restarted.isSome) (due : timer.expireTime ≤ clock) :
    Timely first { timer with runs := timer.runs + 1, restarted := none } clock
      (times ++ [clock]) := by
  obtain ⟨count, fresh, again, past, early, spaced⟩ := timely
  refine ⟨?_, nofun, nofun, ?_, ?_, ?_⟩
  · rw [List.length_append, count]
    rfl
  · intro t inside
    rcases List.mem_append.mp inside with earlier | now
    · exact past t earlier
    · exact (List.mem_singleton.mp now).le
  · intro t head
    cases times with
    | nil =>
        cases head
        exact (fresh count.symm).symm.le.trans due
    | cons u us => exact early t head
  · refine List.isChain_append.mpr ⟨spaced, .singleton _, ?_⟩
    rintro t last u ⟨⟩
    rcases ready with unrun | put
    · rw [unrun, List.length_eq_zero_iff] at count
      rw [count] at last
      cases last
    · obtain ⟨put, restarted⟩ := Option.isSome_iff_exists.mp put
      obtain ⟨expiry, before⟩ := again put restarted
      have := before t last
      change t + timer.interval.micros ≤ clock
      omega

theorem putBack (timely : Timely first timer clock times) (ran : 0 < timer.runs) :
    Timely first { timer with
      expireTime := clock + timer.interval.micros, restarted := some clock } clock times := by
  refine { timely with fresh := fun unrun => absurd unrun ran.ne', again := ?_ }
  rintro put ⟨⟩
  exact ⟨rfl, fun t last => timely.past t (List.mem_of_getLast? last)⟩

end Timely

/-! ## What every step keeps -/

namespace TimedQueue

open TimerQueue

/-- What holds in every run of a queue. -/
structure Kept (s : TimedQueue) : Prop where
  asked : s.asked.length = s.queue.allocated
  known : ∀ x ∈ s.ran, x.1 < s.queue.allocated
  timely : ∀ (i : Nat) (first : Int), s.asked[i]? = some first →
    Timely first (s.queue.object i) s.queue.clock (s.times i)
  /-- A timer that is to be put back has run. -/
  spent : ∀ i, s.queue.Lives i → s.queue.entry i ∈ s.queue.spent → 0 < (s.queue.object i).runs

theorem kept_start (clock : Int) : Kept (start clock) where
  asked := rfl
  known := nofun
  timely := nofun
  spent := nofun

theorem times_of_unknown {s : TimedQueue} (kept : Kept s) {i : Nat}
    (unknown : s.queue.allocated ≤ i) : s.times i = [] := by
  rw [times, List.map_eq_nil_iff, List.filter_eq_nil_iff]
  intro x inside
  have := kept.known x inside
  simp only [decide_eq_true_eq]
  omega

section Steps

variable {s : TimedQueue} {q' : TimerQueue}

/-- A step that adds no timer, runs none and changes none. -/
theorem Kept.quiet (kept : Kept s) (allocated : q'.allocated = s.queue.allocated)
    (object : q'.object = s.queue.object) (clock : s.queue.clock ≤ q'.clock)
    (lives : ∀ i, q'.Lives i → s.queue.Lives i)
    (spent : ∀ e ∈ q'.spent, e ∈ s.queue.spent) :
    Kept { queue := q', asked := s.asked, ran := s.ran } where
  asked := kept.asked.trans allocated.symm
  known := by
    rw [allocated]
    exact kept.known
  timely i first inside := by
    rw [object]
    exact (kept.timely i first inside).wait clock
  spent i alive inside := by
    have entry : q'.entry i = s.queue.entry i := by rw [entry, entry, object]
    rw [object]
    exact kept.spent i (lives i alive) (entry ▸ spent _ inside)

theorem Kept.added (kept : Kept s) (conserved : Conserved s.queue) {address : Nat}
    (fresh : s.queue.Fresh address) (expireTime : Int) (interval : Interval) (timerfd : Timerfd) :
    Kept {
      queue := { s.queue.added address expireTime interval with timerfd := timerfd }
      asked := s.asked ++ [expireTime]
      ran := s.ran } := by
  refine ⟨?_, ?_, ?_, ?_⟩
  · rw [List.length_append, kept.asked]
    rfl
  · exact fun x inside => (kept.known x inside).trans (Nat.lt_succ_self _)
  · intro i first inside
    have length := kept.asked
    rw [List.getElem?_append] at inside
    split_ifs at inside with before
    · have other : i ≠ s.queue.allocated := by omega
      have timely := kept.timely i first inside
      rw [← added_object other] at timely
      exact timely
    · obtain ⟨rfl, rfl⟩ : i = s.queue.allocated ∧ expireTime = first := by
        rw [List.getElem?_singleton] at inside
        split_ifs at inside with atEnd
        exact ⟨by omega, Option.some.inj inside⟩
      have unknown : s.times s.queue.allocated = [] := times_of_unknown kept le_rfl
      have timely := Timely.new expireTime interval address s.queue.clock
      rw [← added_object_self, ← unknown] at timely
      exact timely
  · intro i alive inside
    have alive : (s.queue.added address expireTime interval).Lives i := alive
    have inside : (s.queue.added address expireTime interval).entry i ∈ s.queue.spent := inside
    have isOld : i ≠ s.queue.allocated := by
      rintro rfl
      rw [added_entry_self] at inside
      have points := conserved.pending _ (List.mem_append_left _ inside)
      exact ne_added fresh points rfl
    rw [added_entry isOld] at inside
    change 0 < ((s.queue.added address expireTime interval).object i).runs
    rw [added_object isOld]
    exact kept.spent i ((added_lives fresh isOld).mp alive) inside

/-- One timer is changed: it has run, or it is put back. -/
theorem Kept.changed (kept : Kept s) (conserved : Conserved s.queue) {i : Nat} (timer : Timer)
    (now : List Int) (lives : s.queue.Lives i)
    (object : q'.object = Function.update s.queue.object i timer)
    (allocated : q'.allocated = s.queue.allocated) (clock : q'.clock = s.queue.clock)
    (memory : q'.memory = s.queue.memory)
    (timely : ∀ first, Timely first (s.queue.object i) s.queue.clock (s.times i) →
      Timely first timer s.queue.clock (s.times i ++ now))
    (ran : 0 < timer.runs) (spent : ∀ e ∈ q'.spent, e ∈ s.queue.spent ∨ e = s.queue.entry i) :
    Kept { queue := q', asked := s.asked, ran := s.ran ++ now.map (i, ·) } := by
  have known := lives_lt conserved lives
  have self : q'.object i = timer := by rw [object, Function.update_self]
  have old {j : Nat} (other : j ≠ i) : q'.object j = s.queue.object j := by
    rw [object, Function.update_of_ne other]
  have own : times { queue := q', asked := s.asked, ran := s.ran ++ now.map (i, ·) } i =
      s.times i ++ now := by
    simp [times, List.filter_map, Function.comp_def]
  have others {j : Nat} (other : j ≠ i) :
      times { queue := q', asked := s.asked, ran := s.ran ++ now.map (i, ·) } j = s.times j := by
    simp [times, List.filter_map, Function.comp_def, other.symm]
  refine ⟨kept.asked.trans allocated.symm, ?_, ?_, ?_⟩
  · intro x inside
    rw [allocated]
    rcases List.mem_append.mp inside with earlier | new
    · exact kept.known x earlier
    · obtain ⟨t, -, rfl⟩ := List.mem_map.mp new
      exact known
  · intro j first inside
    have before := kept.timely j first inside
    rw [clock]
    by_cases here : j = i
    · rw [here] at before ⊢
      rw [self, own]
      exact timely first before
    · rw [old here, others here]
      exact before
  · intro j alive inside
    by_cases here : j = i
    · rw [here, self]
      exact ran
    · rw [Lives, memory, old here] at alive
      rw [entry, old here] at inside
      rw [old here]
      rcases spent _ inside with inside | same
      · exact kept.spent j alive inside
      · rw [entry, Entry.make_inj] at same
        rw [same.2, lives, Option.some.injEq] at alive
        exact absurd alive.symm here

/-- A timer that the call is still to run has not run since it was added or put back. -/
theorem ready {q : TimerQueue} (conserved : Conserved q) {i : Nat} (lives : q.Lives i)
    (unrun : q.entry i ∈ q.unrun) : (q.object i).runs = 0 ∨ (q.object i).restarted.isSome := by
  have unspent : q.entry i ∉ q.spent := fun spent =>
    List.disjoint_of_nodup_append conserved.distinct spent unrun
  cases repeats : (q.object i).repeats with
  | false =>
      have runs := conserved.oneShot i lives repeats
      rw [if_neg unspent] at runs
      exact Or.inl runs
  | true =>
      rcases Nat.eq_zero_or_pos (q.object i).runs with unrun | ran
      · exact Or.inl unrun
      · obtain ⟨put, restarted, -⟩ := conserved.restarted i lives repeats ran unspent
        exact Or.inr (Option.isSome_iff_exists.mpr ⟨put, restarted⟩)

/-- A callback is run, when its timer is due. -/
theorem Kept.run (kept : Kept s) (conserved : Conserved s.queue) (sampled : Sampled s.queue)
    {e : Entry} {rest : List Entry} {i : Nat} (running : s.queue.phase = .running (e :: rest))
    (lives : s.queue.Lives i) (same : s.queue.entry i = e) :
    Kept {
      queue := s.queue.called i e rest
      asked := s.asked
      ran := s.ran ++ [(i, s.queue.clock)] } := by
  have unrun : e ∈ s.queue.unrun := by simp [unrun, running]
  have spent : s.queue.spent = s.queue.call.ran := by simp [TimerQueue.spent, running]
  refine kept.changed conserved _ [s.queue.clock] lives rfl rfl rfl rfl ?_ (Nat.succ_pos _) ?_
  · intro first timely
    refine timely.run (ready conserved lives (same ▸ unrun)) ?_
    have due : e ∈ s.queue.call.timers.filter (·.time ≤ s.queue.call.now) := by
      rw [sampled.due]
      exact List.mem_append_right _ unrun
    have past := of_decide_eq_true (List.mem_filter.mp due).2
    rw [← same] at past
    exact past.trans sampled.past
  · intro d inside
    rcases List.mem_append.mp inside with earlier | now
    · exact Or.inl (spent ▸ earlier)
    · exact Or.inr ((List.mem_singleton.mp now).trans same.symm)

theorem Kept.putBack (kept : Kept s) (conserved : Conserved s.queue) {e : Entry}
    {rest : List Entry} {i : Nat} (resetting : s.queue.phase = .resetting (e :: rest))
    (lives : s.queue.Lives i) (same : s.queue.entry i = e) :
    Kept { queue := s.queue.putBack i e rest, asked := s.asked, ran := s.ran } := by
  have spent : s.queue.spent = e :: rest := by simp [TimerQueue.spent, resetting]
  have ran : 0 < (s.queue.object i).runs := by
    refine kept.spent i lives ?_
    rw [spent, same]
    exact List.mem_cons_self
  have changed : Kept {
      queue := s.queue.putBack i e rest
      asked := s.asked
      ran := s.ran ++ ([] : List Int).map (i, ·) } := by
    refine kept.changed conserved _ [] lives rfl rfl rfl rfl ?_ ran ?_
    · intro first timely
      rw [List.append_nil]
      exact timely.putBack ran
    · intro d inside
      exact Or.inl (spent ▸ List.mem_cons_of_mem _ inside)
  rwa [List.map_nil, List.append_nil] at changed

/-- **Step lemma**. -/
theorem Kept.step {s' : TimedQueue} (kept : Kept s) (conserved : Conserved s.queue)
    (sampled : Sampled s.queue) {action : TimerAction}
    (stepped : s.step action = some (.ok s')) :
    Kept s' ∧ Conserved s'.queue ∧ Sampled s'.queue := by
  obtain ⟨outcome, stepped, returned⟩ := Option.map_eq_some_iff.mp stepped
  obtain ⟨q', rfl, effect⟩ := effect_of_step conserved stepped
  cases returned
  refine ⟨?_, conserved_effect conserved sampled effect, sampled_effect conserved sampled effect⟩
  cases effect with
  | wait later =>
      simp only [asks, runs, List.append_nil]
      exact kept.quiet rfl rfl later (fun _ => id) fun _ => id
  | @addTimer address expireTime interval timerfd accepts fresh armed =>
      simp only [asks, runs, List.append_nil]
      exact kept.added conserved fresh expireTime interval timerfd
  | handleRead idle =>
      simp only [asks, runs, List.append_nil]
      refine kept.quiet rfl rfl le_rfl (fun _ => id) ?_
      intro e impossible
      exact absurd impossible List.not_mem_nil
  | @run e rest i running lives same =>
      have points : s.queue.memory e.timer = some i := by rw [← same]; exact lives
      simp only [asks, runs, running, points, List.append_nil, Option.toList_some]
      exact kept.run conserved sampled running lives same
  | resetTimers running =>
      simp only [asks, runs, List.append_nil]
      refine kept.quiet rfl rfl le_rfl (fun _ => id) ?_
      intro e inside
      have taken := sampled.taken
      simp only [Taken, running, List.append_nil] at taken
      have spent : s.queue.spent = s.queue.call.ran := by simp [TimerQueue.spent, running]
      rw [spent, ← taken]
      exact inside
  | putBack resetting lives same repeating =>
      simp only [asks, runs, List.append_nil]
      exact kept.putBack conserved resetting lives same
  | @delete e rest i resetting lives same once =>
      have spent : s.queue.spent = e :: rest := by simp [TimerQueue.spent, resetting]
      simp only [asks, runs, List.append_nil]
      exact kept.quiet rfl rfl le_rfl (fun j alive => ((deleted_lives lives same j).mp alive).1)
        fun d inside => spent ▸ List.mem_cons_of_mem _ inside
  | rearm resetting first =>
      simp only [asks, runs, List.append_nil]
      refine kept.quiet rfl rfl le_rfl (fun _ => id) ?_
      intro e impossible
      exact absurd impossible List.not_mem_nil
  | done resetting empty =>
      simp only [asks, runs, List.append_nil]
      refine kept.quiet rfl rfl le_rfl (fun _ => id) ?_
      intro e impossible
      exact absurd impossible List.not_mem_nil

end Steps

/-! ## Whole runs -/

/-- **No timer runs early, and none too often.**  In every run of the queue the first callback
of a timer is not before the time it was added with, two callbacks of a timer are at least
its interval apart, and a timer that does not repeat is called once at most. -/
theorem runs_spaced {clock : Int} {s : TimedQueue} (reaches : Reaches step (start clock) s)
    {i : Nat} {first : Int} (asked : s.asked[i]? = some first) :
    (∀ t ∈ (s.times i).head?, first ≤ t) ∧
      (s.times i).IsChain (fun t u => t + (s.queue.object i).interval.micros ≤ u) ∧
      (s.times i).length = (s.queue.object i).runs ∧
      ((s.queue.object i).repeats = false → (s.times i).length ≤ 1) := by
  obtain ⟨kept, conserved, -⟩ := reaches.invariant
    (P := fun s => Kept s ∧ Conserved s.queue ∧ Sampled s.queue)
    (fun _ _ _ both stepped => both.1.step both.2.1 both.2.2 stepped)
    ⟨kept_start clock, start_conserved clock, start_sampled clock⟩
  have timely := kept.timely i first asked
  refine ⟨timely.early, timely.spaced, timely.count, ?_⟩
  intro once
  rw [timely.count]
  by_cases lives : s.queue.Lives i
  · rw [conserved.oneShot i lives once]
    split_ifs <;> omega
  · have known : i < s.queue.allocated := kept.asked ▸ (List.getElem?_eq_some_iff.mp asked).1
    exact (conserved.freed i known lives).2.le

/-- A timer of ten microseconds, which the loop comes to late. -/
def lateRun : List TimerAction :=
  [.addTimer 16 5 ⟨true, 10⟩, .wait 7, .handleRead, .run, .wait 8, .resetTimers, .reset, .rearm,
    .wait 30, .handleRead, .run]

theorem runs_spaced_late :
    ∃ s, Reaches step (start 0) s ∧ s.times 0 = [7, 30] ∧ (5 : Int) ≤ 7 ∧ (7 : Int) + 10 ≤ 30 := by
  have performed : ((perform step (start 0) lateRun).any fun s => s.times 0 = [7, 30] ∧
      s.asked[0]? = some 5 ∧ (s.queue.object 0).interval.micros = 10) = true := by
    decide
  obtain ⟨s, performed, known⟩ := (Option.any_eq_true _ _).mp performed
  obtain ⟨times, asked, micros⟩ := of_decide_eq_true known
  obtain ⟨early, spaced, -⟩ := runs_spaced (reaches_of_perform performed) asked
  rw [times] at early spaced
  rw [micros] at spaced
  exact ⟨s, reaches_of_perform performed, times, early 7 rfl, (List.isChain_cons_cons.mp spaced).1⟩

end TimedQueue

end CppFileServer.Utils
