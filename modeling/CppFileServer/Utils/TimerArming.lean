/-
# Utils.TimerArming -- the timerfd never sleeps past the first timer

The timerfd is one-shot, so it has to be armed again for whatever timer is first.
`AddTimer` does so when the new timer is the earliest, and `HandleRead` at its
end; between calls the two together keep `Armed`.
-/
import CppFileServer.Utils.TimerConservation

namespace CppFileServer.Utils

set_option autoImplicit false

open CppFileServer.Cpp CppFileServer.Theory

/-- The timerfd is readable, or it will be as soon as `expiry` has come and the 100 us
that every arming waits at least are over. -/
def Timerfd.Covers (fd : Timerfd) (expiry : Int) : Prop :=
  fd.unread = true ∨ fd.deadline = some (max expiry (fd.armedAt + 100) * 1000)

theorem Timerfd.covers_elapse {fd : Timerfd} {expiry : Int} (covers : fd.Covers expiry)
    (now : Int) : (fd.elapse now).Covers expiry := by
  unfold Timerfd.elapse
  cases deadline : fd.deadline with
  | none => exact covers
  | some d =>
      simp only
      split_ifs with passed
      · exact Or.inl rfl
      · exact covers

/-- A timerfd that covers an expiry is readable from then on. -/
theorem Timerfd.unread_of_covers {fd : Timerfd} {expiry now : Int} (covers : fd.Covers expiry)
    (passed : max expiry (fd.armedAt + 100) ≤ now) : (fd.elapse now).unread = true := by
  unfold Timerfd.elapse
  rcases covers with unread | armed
  · cases fd.deadline with
    | none => exact unread
    | some d =>
        simp only
        split_ifs
        · rfl
        · exact unread
  · rw [armed]
    simp only
    rw [if_pos (by omega)]

namespace TimerQueue

/-- Between calls the timerfd covers the first timer. -/
def Armed (q : TimerQueue) : Prop :=
  q.phase = .idle → ∀ b, q.timers.first? = some b → q.timerfd.Covers b.time

/-- When the new timer is the earliest, the first expiry is now its own. -/
theorem first_time_of_earliest {timers : SortedSet Entry} {expireTime : Int} {address : Nat}
    {b : Entry} (earliest : ∀ c, timers.first? = some c → expireTime < c.time)
    (first : (timers.emplace (Entry.make expireTime address)).first? = some b) :
    b.time = expireTime := by
  rcases SortedSet.mem_emplace.mp (SortedSet.first?_mem first) with rfl | inside
  · rfl
  · cases found : timers.first? with
    | none => exact absurd inside (SortedSet.first?_eq_none.mp found b)
    | some c =>
        have before := earliest c found
        have least := Entry.time_le (SortedSet.first?_le found inside)
        have atMost := Entry.time_le
          (SortedSet.first?_le first (SortedSet.mem_emplace.mpr (Or.inl rfl)))
        rw [Entry.make_time] at atMost
        omega

/-- Otherwise the first expiry stays as it was, even when the timer that has it changes. -/
theorem first_time_of_not_earliest {timers : SortedSet Entry} {expireTime : Int} {address : Nat}
    {b c : Entry} (found : timers.first? = some c) (notEarlier : c.time ≤ expireTime)
    (first : (timers.emplace (Entry.make expireTime address)).first? = some b) :
    b.time = c.time := by
  have atMost := Entry.time_le (SortedSet.first?_le first
    (SortedSet.mem_emplace.mpr (Or.inr (SortedSet.first?_mem found))))
  rcases SortedSet.mem_emplace.mp (SortedSet.first?_mem first) with rfl | inside
  · rw [Entry.make_time] at atMost ⊢
    omega
  · exact le_antisymm atMost (Entry.time_le (SortedSet.first?_le found inside))

theorem armed_effect {q q' : TimerQueue} {action : TimerAction} (armed : Armed q)
    (effect : Effect q action q') : Armed q' := by
  intro idle b first
  cases effect with
  | wait later => exact Timerfd.covers_elapse (armed idle b first) _
  | @addTimer address expireTime interval timerfd accepts fresh covers =>
      have earlier : (q.timers.emplace (Entry.make expireTime address)).first? = some b := first
      show timerfd.Covers b.time
      rw [covers]
      split_ifs with earliest
      · rw [first_time_of_earliest earliest earlier]
        exact Or.inr rfl
      · simp only [not_forall, not_lt] at earliest
        obtain ⟨c, found, notEarlier⟩ := earliest
        rw [first_time_of_not_earliest found notEarlier earlier]
        exact armed idle c found
  | handleRead _ => cases idle
  | run running lives same => cases idle
  | resetTimers running => cases idle
  | putBack resetting lives same repeating => cases idle
  | delete resetting lives same once => cases idle
  | rearm resetting found =>
      rw [found] at first
      cases first
      exact Or.inr rfl
  | done resetting empty =>
      rw [empty] at first
      cases first

/-- **The timerfd is always armed for the earliest timer.**  Between calls, when there are
timers, it has an unread expiration or its deadline is the first expiry, or 100 us after
it was armed when that is later; so it becomes readable for that timer. -/
theorem timerfd_covers_first {clock : Int} {q : TimerQueue}
    (reaches : Reaches step (start clock) q) (idle : q.phase = .idle) {b : Entry}
    (first : q.timers.first? = some b) :
    (q.timerfd.unread = true ∨
        q.timerfd.deadline = some (max b.time (q.timerfd.armedAt + 100) * 1000)) ∧
      ∀ time q', max b.time (q.timerfd.armedAt + 100) ≤ time →
        q.step (.wait time) = some (.ok q') → q'.timerfd.unread = true := by
  have all : (Conserved q ∧ Sampled q) ∧ Armed q := by
    refine reaches.invariant (P := fun q => (Conserved q ∧ Sampled q) ∧ Armed q) ?_
      ⟨⟨start_conserved clock, start_sampled clock⟩, ?_⟩
    · rintro q action q' ⟨⟨conserved, sampled⟩, armed⟩ stepped
      obtain ⟨_, returned, effect⟩ := effect_of_step conserved stepped
      cases returned
      exact ⟨⟨conserved_effect conserved sampled effect, sampled_effect conserved sampled effect⟩,
        armed_effect armed effect⟩
    · intro _ b impossible
      cases impossible
  have covers : q.timerfd.Covers b.time := all.2 idle b first
  refine ⟨covers, ?_⟩
  intro time q' passed stepped
  rw [step] at stepped
  split_ifs at stepped
  cases stepped
  exact Timerfd.unread_of_covers covers passed

/-- A call of `AddTimer` after the timerfd has become readable discards the expiration,
and one inside a callback arms for a timer that the end of the call passes over. -/
def raceWithExpiry : List TimerAction :=
  [.addTimer 8 1000 ⟨true, 500⟩, .wait 1000, .addTimer 16 900 ⟨false, 0⟩, .handleRead, .run, .run,
    .addTimer 24 5000 ⟨false, 0⟩, .resetTimers, .reset, .reset, .rearm]

theorem timerfd_covers_first_raceWithExpiry :
    ∃ q, Reaches step (start 0) q ∧ q.timers.first? = some (Entry.make 1500 8) ∧
      (q.timerfd.unread = true ∨ q.timerfd.deadline = some (max 1500 (1000 + 100) * 1000)) := by
  obtain ⟨q, performed⟩ : ∃ q, perform step (start 0) raceWithExpiry = some q := ⟨_, rfl⟩
  have reaches := reaches_of_perform performed
  cases performed
  exact ⟨_, reaches, rfl, (timerfd_covers_first reaches rfl rfl).1⟩

end TimerQueue

end CppFileServer.Utils
