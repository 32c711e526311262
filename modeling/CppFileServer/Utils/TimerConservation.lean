/-
# Utils.TimerConservation -- no timer is lost, run twice or used after its end

At any moment a timer that lives is in `timers_`, or among those that the running
call of `HandleRead` has taken out: `unrun` before its callback, `spent` after it.
`Conserved` says so, and that a timer that has been deleted was a one-shot that
has run; `Sampled` says what the call took out and what it left.  Both hold after
every step of every run.
-/
import CppFileServer.Utils.TimerQueue

namespace CppFileServer.Utils

set_option autoImplicit false

open CppFileServer.Cpp CppFileServer.Theory

namespace TimerQueue

/-- The queue of a new loop. -/
def start (clock : Int) : TimerQueue := { clock := clock, call := { now := clock } }

/-- The pair under which a timer belongs into `timers_`. -/
def entry (q : TimerQueue) (i : Nat) : Entry :=
  Entry.make (q.object i).expireTime (q.object i).address

def Lives (q : TimerQueue) (i : Nat) : Prop := q.memory (q.object i).address = some i

/-- The timers of the call that are still to be run. -/
def unrun (q : TimerQueue) : List Entry :=
  match q.phase with
  | .running rest => rest
  | _ => []

/-- The timers of the call that have run and are still to be put back or deleted. -/
def spent (q : TimerQueue) : List Entry :=
  match q.phase with
  | .idle => []
  | .running _ => q.call.ran
  | .resetting rest => rest

/-- `active_timers_` during a call. -/
def Taken (q : TimerQueue) : Prop :=
  match q.phase with
  | .idle => True
  | .running rest => q.activeTimers = q.call.ran ++ rest
  | .resetting _ => q.activeTimers = q.call.ran

structure Conserved (q : TimerQueue) : Prop where
  owned : ∀ p i, q.memory p = some i →
    i < q.allocated ∧ (q.object i).address = p ∧ p < uintptrMax
  listed : ∀ e, e ∈ q.timers → ∃ i, q.Lives i ∧ q.entry i = e
  pending : ∀ e ∈ q.spent ++ q.unrun, ∃ i, q.Lives i ∧ q.entry i = e
  distinct : (q.spent ++ q.unrun).Nodup
  apart : ∀ e ∈ q.spent ++ q.unrun, e ∉ q.timers
  placed : ∀ i, q.Lives i → q.entry i ∈ q.timers ∨ q.entry i ∈ q.spent ++ q.unrun
  oneShot : ∀ i, q.Lives i → (q.object i).repeats = false →
    (q.object i).runs = if q.entry i ∈ q.spent then 1 else 0
  freed : ∀ i, i < q.allocated → ¬ q.Lives i →
    (q.object i).repeats = false ∧ (q.object i).runs = 1
  restarted : ∀ i, q.Lives i → (q.object i).repeats = true → 0 < (q.object i).runs →
    q.entry i ∉ q.spent → ∃ time, (q.object i).restarted = some time ∧
      (q.object i).expireTime = time + (q.object i).interval.micros

structure Sampled (q : TimerQueue) : Prop where
  taken : q.Taken
  due : q.call.timers.filter (·.time ≤ q.call.now) = q.call.ran ++ q.unrun
  later : ∀ e ∈ q.call.timers, q.call.now < e.time → e ∈ q.timers
  past : q.call.now ≤ q.clock
  ordered : q.call.timers.Pairwise (· < ·)

theorem start_conserved (clock : Int) : Conserved (start clock) where
  owned := by
    intro p i impossible
    cases impossible
  listed := by
    intro e impossible
    exact absurd impossible (SortedSet.not_mem_empty e)
  pending := by
    intro e impossible
    cases impossible
  distinct := List.nodup_nil
  apart := by
    intro e impossible
    cases impossible
  placed := by
    intro i impossible
    cases impossible
  oneShot := by
    intro i impossible
    cases impossible
  freed := by
    intro i impossible
    exact absurd impossible (Nat.not_lt_zero i)
  restarted := by
    intro i impossible
    cases impossible

theorem start_sampled (clock : Int) : Sampled (start clock) where
  taken := trivial
  due := rfl
  later := by
    intro e impossible
    cases impossible
  past := le_refl clock
  ordered := List.Pairwise.nil

/-! ## Which timer an entry stands for -/

theorem eq_of_points {q : TimerQueue} {i j : Nat} (lives : q.Lives i)
    (points : q.memory (q.entry i).timer = some j) : i = j :=
  Option.some.inj (lives.symm.trans points)

/-- Of the timers that live only one has an entry. -/
theorem entry_eq_iff {q : TimerQueue} {e : Entry} {i j : Nat} (lives : q.Lives i)
    (same : q.entry i = e) (livesJ : q.Lives j) : q.entry j = e ↔ j = i := by
  constructor
  · intro head
    apply eq_of_points livesJ
    rw [head, ← same]
    exact lives
  · rintro rfl
    exact same

section Pointers

variable {q : TimerQueue} (conserved : Conserved q)

include conserved

theorem lives_lt {i : Nat} (lives : q.Lives i) : i < q.allocated := (conserved.owned _ i lives).1

theorem timer_lt {e : Entry} (inside : e ∈ q.timers) : e.timer < uintptrMax := by
  obtain ⟨i, lives, rfl⟩ := conserved.listed e inside
  exact (conserved.owned _ i lives).2.2

end Pointers

/-! ## The timers after a step -/

section Updates

variable {q : TimerQueue} {e : Entry} {rest : List Entry} {i j : Nat}

section Added

variable {address : Nat} {expireTime : Int} {interval : Interval}

theorem added_object_self : (q.added address expireTime interval).object q.allocated =
    { expireTime := expireTime, interval := interval, address := address } :=
  Function.update_self ..

theorem added_object (old : i ≠ q.allocated) :
    (q.added address expireTime interval).object i = q.object i :=
  Function.update_of_ne old ..

theorem added_entry_self : (q.added address expireTime interval).entry q.allocated =
    Entry.make expireTime address := by
  rw [entry, added_object_self]

theorem added_entry (old : i ≠ q.allocated) :
    (q.added address expireTime interval).entry i = q.entry i := by
  rw [entry, entry, added_object old]

theorem added_lives_self : (q.added address expireTime interval).Lives q.allocated := by
  rw [Lives, added_object_self]
  exact Function.update_self ..

theorem added_lives (fresh : q.Fresh address) (old : i ≠ q.allocated) :
    (q.added address expireTime interval).Lives i ↔ q.Lives i := by
  rw [Lives, Lives, added_object old]
  by_cases here : (q.object i).address = address
  · simp [added, here, fresh.2.2, Ne.symm old]
  · simp only [added, Function.update_of_ne here]

/-- What a timer that lived before stands for is not the new entry. -/
theorem ne_added (fresh : q.Fresh address) (points : ∃ i, q.Lives i ∧ q.entry i = e) :
    e ≠ Entry.make expireTime address := by
  rintro rfl
  obtain ⟨i, lives, same⟩ := points
  rw [Lives, (Entry.make_inj.mp same).2, fresh.2.2] at lives
  cases lives

end Added

section Called

theorem called_object (other : j ≠ i) : (q.called i e rest).object j = q.object j :=
  Function.update_of_ne other _ _

theorem called_repeats (j : Nat) :
    ((q.called i e rest).object j).repeats = (q.object j).repeats := by
  by_cases here : j = i
  · subst here
    simp [called, Timer.repeats]
  · rw [called_object here]

theorem called_entry (j : Nat) : (q.called i e rest).entry j = q.entry j := by
  by_cases here : j = i
  · subst here
    simp [entry, called]
  · rw [entry, entry, called_object here]

theorem called_lives (j : Nat) : (q.called i e rest).Lives j ↔ q.Lives j := by
  have address : ((q.called i e rest).object j).address = (q.object j).address :=
    congrArg Entry.timer (called_entry j)
  rw [Lives, Lives, address]
  rfl

end Called

section PutBack

theorem putBack_object (other : j ≠ i) : (q.putBack i e rest).object j = q.object j :=
  Function.update_of_ne other _ _

theorem putBack_repeats (j : Nat) :
    ((q.putBack i e rest).object j).repeats = (q.object j).repeats := by
  by_cases here : j = i
  · subst here
    simp [putBack, Timer.repeats]
  · rw [putBack_object here]

theorem putBack_address (j : Nat) :
    ((q.putBack i e rest).object j).address = (q.object j).address := by
  by_cases here : j = i
  · subst here
    simp [putBack]
  · rw [putBack_object here]

theorem putBack_entry (other : j ≠ i) : (q.putBack i e rest).entry j = q.entry j := by
  rw [entry, entry, putBack_object other]

theorem putBack_entry_self (same : q.entry i = e) : (q.putBack i e rest).entry i =
    Entry.make (q.clock + (q.object i).interval.micros) e.timer := by
  rw [← same]
  simp [entry, putBack]

theorem putBack_lives (j : Nat) : (q.putBack i e rest).Lives j ↔ q.Lives j := by
  rw [Lives, Lives, putBack_address]
  rfl

end PutBack

theorem deleted_lives (lives : q.Lives i) (same : q.entry i = e) (j : Nat) :
    (q.deleted e rest).Lives j ↔ q.Lives j ∧ j ≠ i := by
  have points : q.memory e.timer = some i := by rw [← same]; exact lives
  unfold Lives
  by_cases here : (q.object j).address = e.timer
  · simp [deleted, here, points, eq_comm]
  · simp only [deleted, Function.update_of_ne here, iff_self_and]
    rintro livesJ rfl
    exact here (by rw [← same]; rfl)

end Updates

/-! ## The steps -/

section Steps

variable {q : TimerQueue} (conserved : Conserved q)

include conserved

/-- The clock and the timerfd do not matter. -/
theorem conserved_clock (clock : Int) (timerfd : Timerfd) :
    Conserved { q with clock := clock, timerfd := timerfd } :=
  ⟨conserved.owned, conserved.listed, conserved.pending, conserved.distinct, conserved.apart,
    conserved.placed, conserved.oneShot, conserved.freed, conserved.restarted⟩

/-- A new timer goes into `timers_`. -/
theorem conserved_added {address : Nat} (fresh : q.Fresh address) (expireTime : Int)
    (interval : Interval) : Conserved (q.added address expireTime interval) := by
  have older {i : Nat} (lives : q.Lives i) : i ≠ q.allocated := (lives_lt conserved lives).ne
  have lifts {e : Entry} (points : ∃ i, q.Lives i ∧ q.entry i = e) :
      ∃ i, (q.added address expireTime interval).Lives i ∧
        (q.added address expireTime interval).entry i = e := by
    obtain ⟨i, lives, same⟩ := points
    exact ⟨i, (added_lives fresh (older lives)).mpr lives, (added_entry (older lives)).trans same⟩
  refine ⟨?_, ?_, ?_, conserved.distinct, ?_, ?_, ?_, ?_, ?_⟩
  · intro p i points
    by_cases here : p = address
    · subst here
      have isNew : q.allocated = i := by simpa [added] using points
      subst isNew
      exact ⟨Nat.lt_succ_self _, by rw [added_object_self], fresh.2.1⟩
    · have before : q.memory p = some i := by simpa [added, here] using points
      obtain ⟨inside, located, small⟩ := conserved.owned p i before
      exact ⟨Nat.lt_succ_of_lt inside, by rw [added_object inside.ne, located], small⟩
  · intro e inside
    rcases SortedSet.mem_emplace.mp inside with rfl | before
    · exact ⟨q.allocated, added_lives_self, added_entry_self⟩
    · exact lifts (conserved.listed e before)
  · exact fun e inside => lifts (conserved.pending e inside)
  · intro e inside again
    rcases SortedSet.mem_emplace.mp again with isNew | before
    · exact ne_added fresh (conserved.pending e inside) isNew
    · exact conserved.apart e inside before
  · intro i lives
    by_cases isNew : i = q.allocated
    · subst isNew
      rw [added_entry_self]
      exact Or.inl (SortedSet.mem_emplace.mpr (Or.inl rfl))
    · rw [added_entry isNew]
      exact (conserved.placed i ((added_lives fresh isNew).mp lives)).imp_left
        fun inside => SortedSet.mem_emplace.mpr (Or.inr inside)
  · intro i lives oneShot
    by_cases isNew : i = q.allocated
    · subst isNew
      have absent : Entry.make expireTime address ∉
          (q.added address expireTime interval).spent := by
        intro inside
        exact ne_added fresh (conserved.pending _ (List.mem_append_left _ inside)) rfl
      rw [added_entry_self, if_neg absent, added_object_self]
    · rw [added_object isNew] at oneShot ⊢
      rw [added_entry isNew]
      exact conserved.oneShot i ((added_lives fresh isNew).mp lives) oneShot
  · intro i inside dead
    by_cases isNew : i = q.allocated
    · subst isNew
      exact absurd added_lives_self dead
    · rw [added_object isNew]
      exact conserved.freed i (lt_of_le_of_ne (Nat.lt_succ_iff.mp inside) isNew)
        (fun lives => dead ((added_lives fresh isNew).mpr lives))
  · intro i lives repeats ran absent
    by_cases isNew : i = q.allocated
    · subst isNew
      rw [added_object_self] at ran
      cases ran
    · rw [added_object isNew] at repeats ran ⊢
      rw [added_entry isNew] at absent
      exact conserved.restarted i ((added_lives fresh isNew).mp lives) repeats ran absent

/-- `HandleRead` takes the expired timers out of `timers_`. -/
theorem conserved_handleRead (idle : q.phase = .idle) : Conserved q.handleRead := by
  have spent : q.spent = [] := by simp [TimerQueue.spent, idle]
  have unrun : q.unrun = [] := by simp [TimerQueue.unrun, idle]
  have placed := conserved.placed
  have oneShot := conserved.oneShot
  have restarted := conserved.restarted
  simp only [spent, unrun, List.append_nil, List.not_mem_nil, or_false, if_false,
    not_false_eq_true, forall_const] at placed oneShot restarted
  have listed {e : Entry} (inside : e ∈ q.timers) : ∃ i, q.Lives i ∧ q.entry i = e :=
    conserved.listed e inside
  refine ⟨conserved.owned, ?_, ?_, ?_, ?_, ?_, ?_, conserved.freed, ?_⟩
  · intro e inside
    exact listed (SortedSet.mem_onwards.mp inside).1
  · intro e inside
    exact listed (SortedSet.mem_before.mp inside).1
  · exact SortedSet.nodup _
  · intro e inside again
    exact (SortedSet.mem_before.mp inside).2.not_ge (SortedSet.mem_onwards.mp again).2
  · intro i lives
    rcases lt_or_ge (q.entry i) (Entry.make q.clock uintptrMax) with expired | later
    · exact Or.inr (SortedSet.mem_before.mpr ⟨placed i lives, expired⟩)
    · exact Or.inl (SortedSet.mem_onwards.mpr ⟨placed i lives, later⟩)
  · intro i lives once
    simp only [TimerQueue.spent, handleRead, List.not_mem_nil, if_false]
    exact oneShot i lives once
  · intro i lives repeats ran _
    exact restarted i lives repeats ran

/-- The entry at the head of the work of a call stands for one timer. -/
theorem points_of_head {e : Entry} (inside : e ∈ q.spent ++ q.unrun) :
    ∃ i, q.memory e.timer = some i ∧ q.Lives i ∧ q.entry i = e := by
  obtain ⟨i, lives, rfl⟩ := conserved.pending e inside
  exact ⟨i, lives, lives, rfl⟩

/-- A callback moves its timer from `unrun` to `spent`. -/
theorem conserved_called {e : Entry} {rest : List Entry} {i : Nat}
    (running : q.phase = .running (e :: rest)) (lives : q.Lives i) (same : q.entry i = e) :
    Conserved (q.called i e rest) := by
  obtain ⟨owned, listed, pending, distinct, apart, placed, oneShot, freed, restarted⟩ := conserved
  have spent : q.spent = q.call.ran := by simp [TimerQueue.spent, running]
  have unrun : q.unrun = e :: rest := by simp [TimerQueue.unrun, running]
  have spent' : (q.called i e rest).spent = q.spent ++ [e] := by
    rw [spent]
    rfl
  have pending' : (q.called i e rest).spent ++ (q.called i e rest).unrun = q.spent ++ q.unrun := by
    rw [spent', unrun, List.append_assoc]
    rfl
  have unspent : e ∉ q.spent := by
    intro inside
    rw [unrun, List.nodup_append] at distinct
    exact distinct.2.2 e inside e List.mem_cons_self rfl
  refine ⟨?_, ?_, ?_, by rwa [pending'], by rwa [pending'], ?_, ?_, ?_, ?_⟩
  · intro p j points
    obtain ⟨inside, located, small⟩ := owned p j points
    have address : ((q.called i e rest).object j).address = (q.object j).address :=
      congrArg Entry.timer (called_entry j)
    exact ⟨inside, address.trans located, small⟩
  · simp only [called_lives, called_entry]
    exact listed
  · simp only [called_lives, called_entry, pending']
    exact pending
  · simp only [called_lives, called_entry, pending']
    exact placed
  · intro j livesJ once
    rw [called_lives] at livesJ
    rw [called_repeats] at once
    have before := oneShot j livesJ once
    rw [called_entry, spent']
    by_cases here : j = i
    · subst here
      rw [same, if_neg unspent] at before
      rw [same, if_pos (by simp)]
      simp [called, before]
    · have other : q.entry j ≠ e := fun head => here ((entry_eq_iff lives same livesJ).mp head)
      rw [called_object here, before]
      simp [other]
  · intro j inside dead
    rw [called_lives] at dead
    have here : j ≠ i := by
      rintro rfl
      exact dead lives
    rw [called_object here]
    exact freed j inside dead
  · intro j livesJ repeats ran absent
    rw [called_lives] at livesJ
    rw [called_entry, spent'] at absent
    have here : j ≠ i := by
      rintro rfl
      exact absent (by simp [same])
    rw [called_object here] at repeats ran ⊢
    exact restarted j livesJ repeats ran fun inside => absent (List.mem_append_left _ inside)

/-! While `ResetTimers` is at the entry `e` of the timer `i`, with `rest` to come. -/

section Resetting

variable {e : Entry} {rest : List Entry} {i : Nat} (resetting : q.phase = .resetting (e :: rest))

include resetting

/-- The entries to come are those of other timers, which are in memory. -/
theorem rest_pending {d : Entry} (inside : d ∈ rest) :
    d ≠ e ∧ d ∉ q.timers ∧ ∃ j, q.Lives j ∧ q.entry j = d := by
  have among : d ∈ q.spent ++ q.unrun := by
    simp [spent, unrun, resetting, inside]
  refine ⟨?_, conserved.apart d among, conserved.pending d among⟩
  rintro rfl
  have distinct := conserved.distinct
  simp [spent, unrun, resetting, inside] at distinct

theorem rest_nodup : rest.Nodup := by
  have distinct := conserved.distinct
  simp only [spent, unrun, resetting, List.append_nil, List.nodup_cons] at distinct
  exact distinct.2

theorem timers_ne {d : Entry} (inside : d ∈ q.timers) : d ≠ e := by
  rintro rfl
  exact conserved.apart d (by simp [spent, unrun, resetting]) inside

variable (lives : q.Lives i) (same : q.entry i = e)

include lives same

/-- The other timers are in `timers_` or still to come. -/
theorem placed_other {j : Nat} (livesJ : q.Lives j) (other : j ≠ i) :
    q.entry j ∈ q.timers ∨ q.entry j ∈ rest := by
  have ne : q.entry j ≠ e := fun head => other ((entry_eq_iff lives same livesJ).mp head)
  simpa [spent, unrun, resetting, ne] using conserved.placed j livesJ

theorem oneShot_other {j : Nat} (livesJ : q.Lives j) (other : j ≠ i)
    (once : (q.object j).repeats = false) :
    (q.object j).runs = if q.entry j ∈ rest then 1 else 0 := by
  have ne : q.entry j ≠ e := fun head => other ((entry_eq_iff lives same livesJ).mp head)
  simpa [spent, resetting, ne] using conserved.oneShot j livesJ once

theorem restarted_other {j : Nat} (livesJ : q.Lives j) (other : j ≠ i)
    (repeats : (q.object j).repeats = true) (ran : 0 < (q.object j).runs)
    (absent : q.entry j ∉ rest) : ∃ time, (q.object j).restarted = some time ∧
      (q.object j).expireTime = time + (q.object j).interval.micros := by
  have ne : q.entry j ≠ e := fun head => other ((entry_eq_iff lives same livesJ).mp head)
  exact conserved.restarted j livesJ repeats ran (by simp [spent, resetting, ne, absent])

/-- The new entry of a timer is not one of those to come. -/
theorem putBack_notMem : Entry.make (q.clock + (q.object i).interval.micros) e.timer ∉ rest := by
  intro inside
  obtain ⟨ne, -, j, livesJ, here⟩ := rest_pending conserved resetting inside
  have located : (q.object j).address = (q.object i).address := by
    have address : (q.entry j).timer = e.timer := by rw [here, Entry.make_timer]
    rw [← same] at address
    exact address
  have isI : j = i := eq_of_points livesJ (by
    show q.memory (q.object j).address = some i
    rw [located]
    exact lives)
  subst isI
  exact ne (here.symm.trans same)

/-- `ResetTimers` puts a repeating timer back into `timers_`. -/
theorem conserved_putBack (repeating : (q.object i).repeats = true) :
    Conserved (q.putBack i e rest) := by
  have pending' : (q.putBack i e rest).spent ++ (q.putBack i e rest).unrun = rest :=
    List.append_nil rest
  have lifts {d : Entry} (ne : d ≠ e) (points : ∃ j, q.Lives j ∧ q.entry j = d) :
      ∃ j, (q.putBack i e rest).Lives j ∧ (q.putBack i e rest).entry j = d := by
    obtain ⟨j, livesJ, rfl⟩ := points
    have other : j ≠ i := fun isI => ne ((entry_eq_iff lives same livesJ).mpr isI)
    exact ⟨j, (putBack_lives j).mpr livesJ, putBack_entry other⟩
  refine ⟨?_, ?_, ?_, ?_, ?_, ?_, ?_, ?_, ?_⟩
  · intro p j points
    rw [putBack_address]
    exact conserved.owned p j points
  · intro d inside
    rcases SortedSet.mem_emplace.mp inside with rfl | before
    · exact ⟨i, (putBack_lives i).mpr lives, putBack_entry_self same⟩
    · exact lifts (timers_ne conserved resetting before) (conserved.listed d before)
  · intro d inside
    rw [pending'] at inside
    obtain ⟨ne, -, points⟩ := rest_pending conserved resetting inside
    exact lifts ne points
  · rw [pending']
    exact rest_nodup conserved resetting
  · intro d inside again
    rw [pending'] at inside
    rcases SortedSet.mem_emplace.mp again with rfl | before
    · exact putBack_notMem conserved resetting lives same inside
    · exact (rest_pending conserved resetting inside).2.1 before
  · intro j livesJ
    rw [putBack_lives] at livesJ
    rw [pending']
    by_cases here : j = i
    · subst here
      rw [putBack_entry_self same]
      exact Or.inl (SortedSet.mem_emplace.mpr (Or.inl rfl))
    · rw [putBack_entry here]
      exact (placed_other conserved resetting lives same livesJ here).imp_left
        fun inside => SortedSet.mem_emplace.mpr (Or.inr inside)
  · intro j livesJ once
    rw [putBack_lives] at livesJ
    rw [putBack_repeats] at once
    have here : j ≠ i := by
      rintro rfl
      rw [repeating] at once
      cases once
    rw [putBack_object here, putBack_entry here]
    exact oneShot_other conserved resetting lives same livesJ here once
  · intro j inside dead
    rw [putBack_lives] at dead
    have here : j ≠ i := by
      rintro rfl
      exact dead lives
    rw [putBack_object here]
    exact conserved.freed j inside dead
  · intro j livesJ repeats ran absent
    rw [putBack_lives] at livesJ
    by_cases here : j = i
    · subst here
      exact ⟨q.clock, by simp [putBack], by simp [putBack]⟩
    · rw [putBack_object here] at repeats ran ⊢
      rw [putBack_entry here] at absent
      exact restarted_other conserved resetting lives same livesJ here repeats ran absent

/-- `ResetTimers` deletes a one-shot timer, which has run. -/
theorem conserved_deleted (once : (q.object i).repeats = false) :
    Conserved (q.deleted e rest) := by
  have pending' : (q.deleted e rest).spent ++ (q.deleted e rest).unrun = rest :=
    List.append_nil rest
  have lives_eq (j : Nat) : (q.deleted e rest).Lives j ↔ q.Lives j ∧ j ≠ i :=
    deleted_lives lives same j
  have lifts {d : Entry} (ne : d ≠ e) (points : ∃ j, q.Lives j ∧ q.entry j = d) :
      ∃ j, (q.deleted e rest).Lives j ∧ (q.deleted e rest).entry j = d := by
    obtain ⟨j, livesJ, rfl⟩ := points
    have other : j ≠ i := fun isI => ne ((entry_eq_iff lives same livesJ).mpr isI)
    exact ⟨j, (lives_eq j).mpr ⟨livesJ, other⟩, rfl⟩
  refine ⟨?_, ?_, ?_, ?_, ?_, ?_, ?_, ?_, ?_⟩
  · intro p j points
    by_cases here : p = e.timer
    · simp [deleted, here] at points
    · exact conserved.owned p j (by simpa [deleted, here] using points)
  · intro d inside
    exact lifts (timers_ne conserved resetting inside) (conserved.listed d inside)
  · intro d inside
    rw [pending'] at inside
    obtain ⟨ne, -, points⟩ := rest_pending conserved resetting inside
    exact lifts ne points
  · rw [pending']
    exact rest_nodup conserved resetting
  · intro d inside
    rw [pending'] at inside
    exact (rest_pending conserved resetting inside).2.1
  · intro j livesJ
    obtain ⟨before, here⟩ := (lives_eq j).mp livesJ
    rw [pending']
    exact placed_other conserved resetting lives same before here
  · intro j livesJ single
    obtain ⟨before, here⟩ := (lives_eq j).mp livesJ
    exact oneShot_other conserved resetting lives same before here single
  · intro j inside dead
    by_cases livesJ : q.Lives j
    · have isI : j = i := by
        by_contra here
        exact dead ((lives_eq j).mpr ⟨livesJ, here⟩)
      subst isI
      refine ⟨once, ?_⟩
      have count := conserved.oneShot j livesJ once
      rwa [if_pos (by simp [spent, resetting, same])] at count
    · exact conserved.freed j inside livesJ
  · intro j livesJ repeats ran absent
    obtain ⟨before, here⟩ := (lives_eq j).mp livesJ
    exact restarted_other conserved resetting lives same before here repeats ran absent

end Resetting

end Steps

/-! ## Whole runs -/

/-- What a step does in a state where no pointer dangles. -/
inductive Effect (q : TimerQueue) : TimerAction → TimerQueue → Prop
  | wait {time : Int} (later : q.clock ≤ time) :
      Effect q (.wait time) { q with clock := time, timerfd := q.timerfd.elapse time }
  | addTimer {address : Nat} {expireTime : Int} {interval : Interval} {timerfd : Timerfd}
      (accepts : q.accepts = true) (fresh : q.Fresh address)
      (armed : timerfd = if ∀ b, q.timers.first? = some b → expireTime < b.time then
          { unread := false
            deadline := some (max expireTime (q.clock + 100) * 1000)
            armedAt := q.clock }
        else q.timerfd) :
      Effect q (.addTimer address expireTime interval)
        { q.added address expireTime interval with timerfd := timerfd }
  | handleRead (idle : q.phase = .idle) : Effect q .handleRead q.handleRead
  | run {e : Entry} {rest : List Entry} {i : Nat} (running : q.phase = .running (e :: rest))
      (lives : q.Lives i) (same : q.entry i = e) : Effect q .run (q.called i e rest)
  | resetTimers (running : q.phase = .running []) :
      Effect q .resetTimers { q with phase := .resetting q.activeTimers }
  | putBack {e : Entry} {rest : List Entry} {i : Nat} (resetting : q.phase = .resetting (e :: rest))
      (lives : q.Lives i) (same : q.entry i = e) (repeating : (q.object i).repeats = true) :
      Effect q .reset (q.putBack i e rest)
  | delete {e : Entry} {rest : List Entry} {i : Nat} (resetting : q.phase = .resetting (e :: rest))
      (lives : q.Lives i) (same : q.entry i = e) (once : (q.object i).repeats = false) :
      Effect q .reset (q.deleted e rest)
  | rearm {b : Entry} (resetting : q.phase = .resetting []) (first : q.timers.first? = some b) :
      Effect q .rearm { q with
        phase := .idle
        timerfd :=
          { unread := false
            deadline := some (max b.time (q.clock + 100) * 1000)
            armedAt := q.clock } }
  | done (resetting : q.phase = .resetting []) (empty : q.timers.first? = none) :
      Effect q .rearm { q with phase := .idle }

/-- The end of `ResetTimers` follows the pointer of the first entry. -/
theorem rearm_effect {q : TimerQueue} (conserved : Conserved q) (resetting : q.phase = .resetting []) :
    ∃ q', q.rearm = .ok q' ∧ Effect q .rearm q' := by
  rw [TimerQueue.rearm]
  cases first : q.timers.first? with
  | none => exact ⟨_, rfl, .done resetting first⟩
  | some b =>
      obtain ⟨i, lives, same⟩ := conserved.listed b (SortedSet.first?_mem first)
      have expiry : (q.object i).expireTime = b.time := by rw [← same]; rfl
      have points : q.memory b.timer = some i := by rw [← same]; exact lives
      simp only [resetTimerFd_of_lives points, ok_bind, pure_eq_ok, expiry]
      exact ⟨_, rfl, .rearm resetting first⟩

/-- No step faults: each pointer that is followed points to a timer that lives. -/
theorem effect_of_step {q : TimerQueue} {action : TimerAction} {outcome : Result TimerQueue}
    (conserved : Conserved q) (stepped : q.step action = some outcome) :
    ∃ q', outcome = .ok q' ∧ Effect q action q' := by
  cases action with
  | wait time =>
      rw [step] at stepped
      split_ifs at stepped with later
      cases stepped
      exact ⟨_, rfl, .wait later⟩
  | addTimer address expireTime interval =>
      rw [step] at stepped
      split_ifs at stepped with allowed
      cases stepped
      obtain ⟨timerfd, added, armed⟩ := addTimer_spec q address expireTime interval
      exact ⟨_, added, .addTimer allowed.1 allowed.2 armed⟩
  | handleRead =>
      simp only [step] at stepped
      split at stepped
      · cases stepped
        exact ⟨_, rfl, .handleRead ‹_›⟩
      · cases stepped
  | run =>
      simp only [step] at stepped
      split at stepped
      · rename_i e rest running
        cases stepped
        obtain ⟨i, points, lives, same⟩ := points_of_head conserved
          (show e ∈ q.spent ++ q.unrun by simp [unrun, running])
        exact ⟨_, runTimer_of_lives points rest, .run running lives same⟩
      · cases stepped
  | resetTimers =>
      simp only [step] at stepped
      split at stepped
      · cases stepped
        exact ⟨_, rfl, .resetTimers ‹_›⟩
      · cases stepped
  | reset =>
      simp only [step] at stepped
      split at stepped
      · rename_i e rest resetting
        cases stepped
        obtain ⟨i, points, lives, same⟩ := points_of_head conserved
          (show e ∈ q.spent ++ q.unrun by simp [spent, resetting])
        refine ⟨_, resetTimer_of_lives points rest, ?_⟩
        split_ifs with repeating
        · exact .putBack resetting lives same repeating
        · exact .delete resetting lives same (by simpa using repeating)
      · cases stepped
  | rearm =>
      simp only [step] at stepped
      split at stepped
      · rename_i resetting
        cases stepped
        exact rearm_effect conserved resetting
      · cases stepped

theorem conserved_effect {q q' : TimerQueue} {action : TimerAction} (conserved : Conserved q)
    (sampled : Sampled q) (effect : Effect q action q') : Conserved q' := by
  cases effect with
  | wait later => exact conserved_clock conserved _ _
  | addTimer accepts fresh armed =>
      exact conserved_clock (conserved_added conserved fresh _ _) _ _
  | handleRead idle => exact conserved_handleRead conserved idle
  | run running lives same => exact conserved_called conserved running lives same
  | resetTimers running =>
      have taken := sampled.taken
      simp only [Taken, running, List.append_nil] at taken
      obtain ⟨owned, listed, pending, distinct, apart, placed, oneShot, freed, restarted⟩ := conserved
      have spent : q.spent = q.activeTimers := by rw [TimerQueue.spent, running, taken]
      have unrun : q.unrun = [] := by rw [TimerQueue.unrun, running]
      simp only [spent, unrun] at pending distinct apart placed oneShot restarted
      exact ⟨owned, listed, pending, distinct, apart, placed, oneShot, freed, restarted⟩
  | putBack resetting lives same repeating =>
      exact conserved_putBack conserved resetting lives same repeating
  | delete resetting lives same once => exact conserved_deleted conserved resetting lives same once
  | rearm resetting first =>
      obtain ⟨owned, listed, pending, distinct, apart, placed, oneShot, freed, restarted⟩ := conserved
      have spent : q.spent = [] := by rw [TimerQueue.spent, resetting]
      have unrun : q.unrun = [] := by rw [TimerQueue.unrun, resetting]
      simp only [spent, unrun] at pending distinct apart placed oneShot restarted
      exact ⟨owned, listed, pending, distinct, apart, placed, oneShot, freed, restarted⟩
  | done resetting empty =>
      obtain ⟨owned, listed, pending, distinct, apart, placed, oneShot, freed, restarted⟩ := conserved
      have spent : q.spent = [] := by rw [TimerQueue.spent, resetting]
      have unrun : q.unrun = [] := by rw [TimerQueue.unrun, resetting]
      simp only [spent, unrun] at pending distinct apart placed oneShot restarted
      exact ⟨owned, listed, pending, distinct, apart, placed, oneShot, freed, restarted⟩

/-- Below the sentinel stand the entries that have expired, whatever their pointers. -/
theorem lt_sentinel {e : Entry} {now : Int} (small : e.timer < uintptrMax) :
    e < Entry.make now uintptrMax ↔ e.time ≤ now := by
  rw [Entry.lt_make]
  omega

theorem sampled_effect {q q' : TimerQueue} {action : TimerAction} (conserved : Conserved q)
    (sampled : Sampled q) (effect : Effect q action q') : Sampled q' := by
  obtain ⟨taken, due, later, past, ordered⟩ := sampled
  cases effect with
  | wait onward => exact ⟨taken, due, later, past.trans onward, ordered⟩
  | addTimer accepts fresh armed =>
      refine ⟨taken, due, ?_, past, ordered⟩
      intro e inside after
      exact SortedSet.mem_emplace.mpr (Or.inr (later e inside after))
  | handleRead idle =>
      refine ⟨rfl, ?_, ?_, le_refl _, q.timers.sorted⟩
      · show q.timers.elems.filter _ = (q.timers.before _).elems
        rw [(SortedSet.before_onwards_elems _ q.timers).1]
        apply List.filter_congr
        intro e inside
        exact decide_eq_decide.mpr (lt_sentinel (timer_lt conserved inside)).symm
      · intro e inside after
        refine SortedSet.mem_onwards.mpr ⟨inside, ?_⟩
        rw [← not_lt, lt_sentinel (timer_lt conserved inside)]
        exact not_le.mpr after
  | @run e rest i running lives same =>
      simp only [Taken, running] at taken
      rw [unrun, running] at due
      refine ⟨?_, ?_, later, past, ordered⟩
      · show q.activeTimers = q.call.ran ++ [e] ++ rest
        rw [taken, List.append_assoc]
        rfl
      · show _ = q.call.ran ++ [e] ++ rest
        rw [List.append_assoc]
        exact due
  | resetTimers running =>
      simp only [Taken, running, List.append_nil] at taken
      rw [unrun, running] at due
      exact ⟨taken, due, later, past, ordered⟩
  | putBack resetting lives same repeating =>
      simp only [Taken, resetting] at taken
      rw [unrun, resetting] at due
      refine ⟨taken, due, ?_, past, ordered⟩
      intro e inside after
      exact SortedSet.mem_emplace.mpr (Or.inr (later e inside after))
  | delete resetting lives same once =>
      simp only [Taken, resetting] at taken
      rw [unrun, resetting] at due
      exact ⟨taken, due, later, past, ordered⟩
  | rearm resetting first =>
      rw [unrun, resetting] at due
      exact ⟨trivial, due, later, past, ordered⟩
  | done resetting empty =>
      rw [unrun, resetting] at due
      exact ⟨trivial, due, later, past, ordered⟩

theorem reaches_conserved {clock : Int} {q : TimerQueue} (reaches : Reaches step (start clock) q) :
    Conserved q ∧ Sampled q := by
  refine reaches.invariant (P := fun q => Conserved q ∧ Sampled q) ?_
    ⟨start_conserved clock, start_sampled clock⟩
  rintro q action q' ⟨conserved, sampled⟩ stepped
  obtain ⟨_, returned, effect⟩ := effect_of_step conserved stepped
  cases returned
  exact ⟨conserved_effect conserved sampled effect, sampled_effect conserved sampled effect⟩

/-- Timer `i` stands in `timers_`, once, under its current expiry, and has not run since
it was put there. -/
structure Pending (q : TimerQueue) (i : Nat) : Prop where
  lives : q.Lives i
  listed : q.entry i ∈ q.timers
  unique : ∀ e, e ∈ q.timers → e.timer = (q.object i).address → e = q.entry i
  notRun : (q.object i).repeats = false → (q.object i).runs = 0
  restarted : (q.object i).repeats = true → 0 < (q.object i).runs →
    ∃ time, (q.object i).restarted = some time ∧
      (q.object i).expireTime = time + (q.object i).interval.micros

/-- Timer `i` was a one-shot, has run once, and is deleted. -/
structure Finished (q : TimerQueue) (i : Nat) : Prop where
  freed : ¬ q.Lives i
  oneShot : (q.object i).repeats = false
  once : (q.object i).runs = 1

/-- What holds of the timers throughout a run. -/
structure TimersKept (q : TimerQueue) : Prop where
  /-- No pointer is followed to a timer that has been deleted. -/
  safe : ∀ action fault, q.step action ≠ some (.error fault)
  /-- The next callback belongs to a timer whose expiry has come. -/
  ripe : ∀ e rest, q.phase = .running (e :: rest) →
    ∃ i, q.Lives i ∧ q.entry i = e ∧ (q.object i).expireTime ≤ q.clock
  /-- A call of `HandleRead` samples the clock and `timers_`, … -/
  sample : ∀ q', q.step .handleRead = some (.ok q') →
    q'.call = { now := q.clock, timers := q.timers.elems, ran := [] }
  /-- … runs those that have expired then, in order, … -/
  exactly : q.call.timers.filter (·.time ≤ q.call.now) = q.call.ran ++ q.unrun
  ordered : q.call.timers.Pairwise (·.time ≤ ·.time) ∧ q.call.timers.Nodup
  /-- … and leaves every later one. -/
  later : ∀ e ∈ q.call.timers, q.call.now < e.time → e ∈ q.timers
  /-- A one-shot timer runs at most once and is deleted only after it has run; a
  repeating one is never deleted. -/
  oneShot : ∀ i, i < q.allocated → (q.object i).repeats = false → (q.object i).runs ≤ 1
  freed : ∀ i, i < q.allocated → ¬ q.Lives i →
    (q.object i).repeats = false ∧ (q.object i).runs = 1
  /-- Between calls each timer ever added is pending or finished, … -/
  accounted : q.phase = .idle → ∀ i, i < q.allocated → q.Pending i ∨ q.Finished i
  /-- … and `timers_` holds pending ones only. -/
  backed : ∀ e, e ∈ q.timers → ∃ i, q.Lives i ∧ q.entry i = e

theorem pending_or_finished {q : TimerQueue} (conserved : Conserved q) (idle : q.phase = .idle)
    {i : Nat} (inside : i < q.allocated) : q.Pending i ∨ q.Finished i := by
  have spent : q.spent = [] := by simp [TimerQueue.spent, idle]
  have unrun : q.unrun = [] := by simp [TimerQueue.unrun, idle]
  by_cases lives : q.Lives i
  · refine Or.inl ⟨lives, ?_, ?_, ?_, ?_⟩
    · simpa [spent, unrun] using conserved.placed i lives
    · intro e listed here
      obtain ⟨j, livesJ, rfl⟩ := conserved.listed e listed
      rw [eq_of_points livesJ (by rw [here]; exact lives)]
    · intro once
      simpa [spent] using conserved.oneShot i lives once
    · intro repeating ran
      exact conserved.restarted i lives repeating ran (by simp [spent])
  · obtain ⟨once, ran⟩ := conserved.freed i inside lives
    exact Or.inr ⟨lives, once, ran⟩

/-- **No timer is lost, run early, run twice or used after its end**, in any run of
`AddTimer` and `HandleRead` with a clock that does not go back. -/
theorem timers_kept {clock : Int} {q : TimerQueue} (reaches : Reaches step (start clock) q) :
    TimersKept q := by
  obtain ⟨conserved, sampled⟩ := reaches_conserved reaches
  refine ⟨?_, ?_, ?_, sampled.due, ⟨?_, ?_⟩, sampled.later, ?_, conserved.freed, ?_,
    conserved.listed⟩
  · intro action fault stepped
    obtain ⟨_, impossible, -⟩ := effect_of_step conserved stepped
    cases impossible
  · intro e rest running
    have unrun : q.unrun = e :: rest := by simp [TimerQueue.unrun, running]
    obtain ⟨i, lives, same⟩ := conserved.pending e (by simp [unrun])
    refine ⟨i, lives, same, ?_⟩
    have taken : e ∈ q.call.timers.filter (·.time ≤ q.call.now) := by simp [sampled.due, unrun]
    have expired : e.time ≤ q.call.now := by simpa using (List.mem_filter.mp taken).2
    have expiry : (q.object i).expireTime = e.time := by rw [← same]; rfl
    exact expiry ▸ expired.trans sampled.past
  · intro q' stepped
    obtain ⟨_, returned, effect⟩ := effect_of_step conserved stepped
    cases returned
    cases effect
    rfl
  · exact sampled.ordered.imp fun less => Entry.time_le less.le
  · exact sampled.ordered.imp fun less => ne_of_lt less
  · intro i inside once
    by_cases lives : q.Lives i
    · rw [conserved.oneShot i lives once]
      split_ifs <;> omega
    · exact (conserved.freed i inside lives).2.le
  · exact fun idle i inside => pending_or_finished conserved idle inside

/-- Two timers for the same time, one of them repeating, and a third one that a callback adds. -/
def sharedExpiry : List TimerAction :=
  [.addTimer 16 5 ⟨false, 0⟩, .addTimer 8 5 ⟨true, 10⟩, .wait 5, .handleRead, .run,
    .addTimer 24 3 ⟨false, 0⟩, .run, .wait 7, .resetTimers, .reset, .reset, .rearm]

theorem timers_kept_sharedExpiry :
    ∃ q, Reaches step (start 0) q ∧ q.timers.elems = [Entry.make 3 24, Entry.make 17 8] ∧
      q.call.ran = [Entry.make 5 8, Entry.make 5 16] ∧ TimersKept q := by
  obtain ⟨q, performed⟩ : ∃ q, perform step (start 0) sharedExpiry = some q := ⟨_, rfl⟩
  have reaches := reaches_of_perform performed
  cases performed
  exact ⟨_, reaches, rfl, rfl, timers_kept reaches⟩

end TimerQueue

end CppFileServer.Utils
