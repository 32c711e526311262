/-
# Utils.LogWrites -- when the buffer of a line has been written

The line of an `Append` stands in `buffer_`, which `ThreadFunc` takes behind what is in
`buffers_`: the place of the line is how often the buffers had been taken, and how many
stood before its own.  Buffers are written in this order, so the line and all before it
are in the files exactly when the buffers have been taken once more and the loop has come
past its own (`Tracked.all_written_iff`).  Which buffers are left over from earlier
iterations does not matter: their lines are older.
-/
import CppFileServer.Utils.LogDelivery

namespace CppFileServer.Utils

set_option autoImplicit false

open CppFileServer.Cpp CppFileServer.Theory

namespace AsyncLogger

variable {α : Type} {size : α → Nat}

/-! ## What a step leaves -/

variable {s t : AsyncLogger size} {action : LogAction α}

/-- An `Append` leaves the buffers before `buffer_` where they are, and only adds to the rest. -/
theorem append_buffers {text : α} (appends : s.append text = .ok t) :
    t.phase = s.phase ∧ t.activeBuffers = s.activeBuffers ∧ t.file = s.file ∧
      s.buffers.length ≤ t.buffers.length ∧
      linesIn t.buffers ⊆ linesIn s.buffers ++ linesAt s.buffer ∧
      ∀ index ≤ s.buffers.length, t.buffers.take index = s.buffers.take index ∧
        linesIn ((s.buffers ++ [s.buffer]).take (index + 1)) ⊆
          linesIn ((t.buffers ++ [t.buffer]).take (index + 1)) := by
  unfold append at appends
  cases isBuffer : s.buffer with
  | none => simp [isBuffer] at appends
  | some b =>
      simp only [isBuffer] at appends
      split_ifs at appends with fits
      · cases appends
        have lines : (b.append ⟨s.appended.length, text⟩).lines = _ := append_lines_of_fits fits
        refine ⟨rfl, rfl, rfl, le_rfl, List.subset_append_left _ _, fun index inside => ⟨rfl, ?_⟩⟩
        rw [List.take_append, List.take_append, linesIn_append, linesIn_append]
        apply List.append_subset.mpr
        refine ⟨List.subset_append_left _ _, ?_⟩
        apply List.Subset.trans _ (List.subset_append_right _ _)
        cases index + 1 - s.buffers.length with
        | zero => exact List.Subset.refl _
        | succ more =>
            rw [List.take_of_length_le (by simp), List.take_of_length_le (by simp)]
            simp only [linesIn_cons, linesIn_nil, linesAt_some, List.append_nil]
            rw [lines]
            exact List.subset_append_left _ _
      · cases appends
        refine ⟨rfl, rfl, rfl, by simp, by simp, fun index inside => ⟨?_, ?_⟩⟩
        · exact List.take_append_of_le_length inside
        · have within : index + 1 ≤ (s.buffers ++ [some b]).length := by
            rw [List.length_append, List.length_singleton]
            omega
          rw [List.take_append_of_le_length within]
          exact List.Subset.refl _

theorem recycle_eq_ok (recycled : s.recycle = .ok t) : t.phase = .testing ∧ t.file = s.file ∧
    t.buffers = s.buffers ∧ t.buffer = s.buffer := by
  obtain ⟨⟨b, rest, old⟩, -, recycled⟩ := bind_eq_ok recycled
  obtain ⟨⟨b', rest', old'⟩, -, recycled⟩ := bind_eq_ok recycled
  cases recycled
  have others : s.roll.buffers = s.buffers ∧ s.roll.buffer = s.buffer := by
    unfold roll
    split_ifs
    · exact ⟨rfl, rfl⟩
    · exact ⟨rfl, rfl⟩
  exact ⟨rfl, s.roll_file, others⟩

theorem drain_eq_ok (sound : Sound s) (testing : s.phase = .testing) (drained : s.drain = .ok t) :
    t.phase = .returned ∧ t.file = s.stream := by
  obtain ⟨u, same, kept, stream, -⟩ := drain_sound sound testing
  rw [drained, Except.ok.injEq] at same
  subst same
  have returned : t.phase = .returned := by
    obtain ⟨u, -, ended⟩ := bind_eq_ok drained
    cases ended
    rfl
  refine ⟨returned, ?_⟩
  rw [← stream, AsyncLogger.stream, kept.returned returned, List.append_nil]

/-- What is in the files stays there. -/
theorem file_subset (sound : Sound s) (stepped : s.step action = some (.ok t)) :
    s.file ⊆ t.file := by
  cases step_moved stepped with
  | started isStart phase same =>
      cases same
      exact List.Subset.refl _
  | appended text isAppend running appends =>
      rw [(append_buffers appends.symm).2.2.1]
      exact List.Subset.refl _
  | stopped isStop same =>
      cases same
      exact List.Subset.refl _
  | tested isProceed phase same =>
      cases same
      exact List.Subset.refl _
  | drained isProceed phase drained =>
      rw [(drain_eq_ok sound phase drained.symm).2]
      exact List.subset_append_left _ _
  | took isProceed phase same =>
      cases same
      exact List.Subset.refl _
  | recycled count isProceed phase ended recycled =>
      rw [(recycle_eq_ok recycled.symm).2.1]
      exact List.Subset.refl _
  | wrote count b isProceed phase next wrote =>
      obtain ⟨b, rfl, rfl⟩ := wrote_eq_ok wrote
      show s.file ⊆ s.rolled.flatten ++ (s.logFile.written ++ b.lines)
      rw [← List.append_assoc]
      exact List.subset_append_left _ _

/-! ## The place of a line -/

structure Place where
  /-- How often the buffers had been taken. -/
  takes : Nat
  /-- How many buffers stood before `buffer_`. -/
  index : Nat
  deriving DecidableEq

/-- How often the buffers have been taken. -/
def takesAfter (s : AsyncLogger size) (action : LogAction α) (takes : Nat) : Nat :=
  match action with
  | .proceed => if s.phase = .taking then takes + 1 else takes
  | _ => takes

/-- `ThreadFunc` has returned, or it has taken the buffers since, and has written the buffer at
this place: it has left the loop over the buffers of that time, or has come past it there. -/
def Caught (takes : Nat) (s : AsyncLogger size) (place : Place) : Prop :=
  s.phase = .returned ∨
    place.takes < takes ∧
      (takes = place.takes + 1 → ∀ count, s.phase = .writing count → place.index < count)

/-- The buffer of the last line waits to be taken, behind older lines. -/
structure Waits (takes : Nat) (s : AsyncLogger size) (place : Place) (last : Line α)
    (lines : List (Line α)) : Prop where
  member : last ∈ lines
  running : s.phase ≠ .returned
  same : takes = place.takes
  inside : place.index ≤ s.buffers.length
  older : ∀ line ∈ s.file ++ linesIn s.left ++ linesIn (s.buffers.take place.index),
    line.ticket < last.ticket
  all : lines ⊆ s.file ++ linesIn s.left ++
    linesIn ((s.buffers ++ [s.buffer]).take (place.index + 1))

/-- It has been taken, and the loop has not come past it. -/
structure Taken (takes : Nat) (s : AsyncLogger size) (place : Place) (last : Line α)
    (lines : List (Line α)) (count : Nat) : Prop where
  member : last ∈ lines
  phase : s.phase = .writing count
  next : takes = place.takes + 1
  front : count ≤ place.index
  inside : place.index < s.activeBuffers.length
  older : ∀ line ∈ s.file ++ linesIn (s.activeBuffers.take place.index), line.ticket < last.ticket
  all : lines ⊆ s.file ++ linesIn ((s.activeBuffers.take (place.index + 1)).drop count)

/-- Where the lines are that had been appended up to some line. -/
inductive Tracked (takes : Nat) (s : AsyncLogger size) (place : Place) (lines : List (Line α)) :
    Prop
  | waits (last : Line α) (waits : Waits takes s place last lines)
  | taken (last : Line α) (count : Nat) (taken : Taken takes s place last lines count)
  | written (caught : Caught takes s place) (all : lines ⊆ s.file)

variable {takes : Nat} {place : Place} {lines : List (Line α)}

/-- Once `ThreadFunc` has returned, it stays so. -/
theorem returned_step (returned : s.phase = .returned) (stepped : s.step action = some (.ok t)) :
    t.phase = .returned := by
  cases step_moved stepped with
  | appended text isAppend running appends => exact absurd returned running
  | stopped isStop same =>
      cases same
      exact returned
  | started isStart phase same => simp [returned] at phase
  | tested isProceed phase same => simp [returned] at phase
  | drained isProceed phase drained => simp [returned] at phase
  | took isProceed phase same => simp [returned] at phase
  | recycled count isProceed phase ended recycled => simp [returned] at phase
  | wrote count b isProceed phase next wrote => simp [returned] at phase

/-- How often the buffers have been taken after a step of `ThreadFunc` that does not take them. -/
theorem takesAfter_other (other : s.phase ≠ .taking) (takes : Nat) :
    s.takesAfter .proceed takes = takes :=
  if_neg other

theorem takesAfter_taking (taking : s.phase = .taking) (takes : Nat) :
    s.takesAfter .proceed takes = takes + 1 :=
  if_pos taking

/-- What has been written stays so. -/
theorem caught_step (caught : Caught takes s place) (stepped : s.step action = some (.ok t)) :
    Caught (s.takesAfter action takes) t place := by
  rcases caught with returned | ⟨later, past⟩
  · exact Or.inl (returned_step returned stepped)
  cases step_moved stepped with
  | started isStart phase same =>
      subst isStart
      cases same
      exact Or.inr ⟨later, fun _ count writing => by cases writing⟩
  | appended text isAppend running appends =>
      subst isAppend
      refine Or.inr ⟨later, fun next count writing => past next count ?_⟩
      rw [← (append_buffers appends.symm).1]
      exact writing
  | stopped isStop same =>
      subst isStop
      cases same
      exact Or.inr ⟨later, past⟩
  | tested isProceed phase same =>
      subst isProceed
      cases same
      rw [takesAfter_other (by simp [phase])]
      exact Or.inr ⟨later, fun _ count writing => by cases writing⟩
  | drained isProceed phase drained =>
      obtain ⟨u, -, ended⟩ := bind_eq_ok drained.symm
      cases ended
      exact Or.inl rfl
  | took isProceed phase same =>
      subst isProceed
      rw [takesAfter_taking phase]
      exact Or.inr ⟨by omega, fun next => by omega⟩
  | recycled count isProceed phase ended recycled =>
      subst isProceed
      rw [takesAfter_other (by simp [phase])]
      refine Or.inr ⟨later, fun _ count' writing => ?_⟩
      rw [(recycle_eq_ok recycled.symm).1] at writing
      cases writing
  | wrote count b isProceed phase next wrote =>
      subst isProceed
      obtain ⟨b, rfl, rfl⟩ := wrote_eq_ok wrote
      rw [takesAfter_other (by simp [phase])]
      refine Or.inr ⟨later, fun isNext count' writing => ?_⟩
      have before := past isNext count phase
      cases writing
      omega

variable {last : Line α}

/-- The lines that wait stay in their place, where the buffers before it do. -/
theorem Waits.moved (waits : Waits takes s place last lines) (running : t.phase ≠ .returned)
    (stays : t.file ++ linesIn t.left = s.file ++ linesIn s.left)
    (buffers : t.buffers = s.buffers) (buffer : t.buffer = s.buffer) :
    Waits takes t place last lines := by
  refine ⟨waits.member, running, waits.same, buffers ▸ waits.inside, ?_, ?_⟩
  · rw [stays, buffers]
    exact waits.older
  · rw [stays, buffers, buffer]
    exact waits.all

theorem Waits.append {text : α} (waits : Waits takes s place last lines)
    (appends : s.append text = .ok t) : Waits takes t place last lines := by
  obtain ⟨phase, active, file, longer, -, rest⟩ := append_buffers appends
  obtain ⟨front, more⟩ := rest place.index waits.inside
  have onLeft : t.left = s.left := by rw [left, left, phase, active]
  refine ⟨waits.member, phase ▸ waits.running, waits.same, waits.inside.trans longer, ?_, ?_⟩
  · rw [file, onLeft, front]
    exact waits.older
  · rw [file, onLeft]
    refine List.Subset.trans waits.all
      (List.append_subset.mpr ⟨List.subset_append_left _ _, ?_⟩)
    exact List.Subset.trans more (List.subset_append_right _ _)

/-- The end of the thread writes the lines that wait. -/
theorem Waits.drain (waits : Waits takes s place last lines) (sound : Sound s)
    (phase : s.phase = .testing) (drained : s.drain = .ok t) : lines ⊆ t.file := by
  obtain ⟨-, file⟩ := drain_eq_ok sound phase drained
  refine List.Subset.trans waits.all ?_
  have taken := linesIn_subset (List.take_subset (place.index + 1) (s.buffers ++ [s.buffer]))
  rw [linesIn_append] at taken
  rw [file, AsyncLogger.stream, pending, List.append_assoc, List.append_assoc]
  refine List.append_subset.mpr ⟨List.subset_append_left _ _, ?_⟩
  apply List.Subset.trans _ (List.subset_append_right _ _)
  refine List.append_subset.mpr ⟨List.subset_append_left _ _, ?_⟩
  exact List.Subset.trans taken (by simp)

/-- The buffers that wait are now `active_buffers`, and none of them is written. -/
theorem Waits.take (waits : Waits takes s place last lines) (phase : s.phase = .taking) :
    Taken (takes + 1) s.take place last lines 0 := by
  obtain ⟨member, -, same, inside, older, all⟩ := waits
  have onLeft : s.left = [] := by simp [left, phase]
  rw [onLeft, linesIn_nil, List.append_nil] at older all
  refine ⟨member, rfl, by rw [same], Nat.zero_le _, ?_, ?_, all⟩
  · show place.index < (s.buffers ++ [s.buffer]).length
    rw [List.length_append, List.length_singleton]
    omega
  · show ∀ line ∈ s.file ++ linesIn ((s.buffers ++ [s.buffer]).take place.index), _
    rw [List.take_append_of_le_length inside]
    exact older

/-- Writing a buffer moves its lines from what is left to the files. -/
theorem write_moves {count : Nat} {b : Buffer size} (phase : s.phase = .writing count)
    (next : s.activeBuffers[count]? = some (some b)) :
    AsyncLogger.file { s with logFile := s.logFile.write b, phase := .writing (count + 1) } ++
        linesIn (AsyncLogger.left
          { s with logFile := s.logFile.write b, phase := .writing (count + 1) }) =
      s.file ++ linesIn s.left := by
  obtain ⟨within, here⟩ := List.getElem?_eq_some_iff.mp next
  have onLeft : s.left = some b :: s.activeBuffers.drop (count + 1) := by
    simp only [left, phase]
    rw [List.drop_eq_getElem_cons within, here]
  rw [onLeft]
  simp [AsyncLogger.file, left, LogFile.write]

/-- A line whose buffer waits: the step may take the buffers, or drain them all. -/
theorem Waits.step (waits : Waits takes s place last lines) (sound : Sound s)
    (stepped : s.step action = some (.ok t)) :
    Tracked (s.takesAfter action takes) t place lines := by
  cases step_moved stepped with
  | started isStart phase same =>
      subst isStart
      cases same
      have onLeft : s.left = [] := by simp [left, phase]
      exact .waits last (waits.moved (by rintro ⟨⟩) (by rw [onLeft]; rfl) rfl rfl)
  | appended text isAppend _ appends =>
      subst isAppend
      exact .waits last (waits.append appends.symm)
  | stopped isStop same =>
      subst isStop
      cases same
      exact .waits last (waits.moved waits.running rfl rfl rfl)
  | tested isProceed phase same =>
      subst isProceed
      cases same
      have onLeft : s.left = [] := by simp [left, phase]
      rw [takesAfter_other (by simp [phase])]
      exact .waits last (waits.moved (by rintro ⟨⟩) (by rw [onLeft]; rfl) rfl rfl)
  | drained isProceed phase drained =>
      have returned := (drain_eq_ok sound phase drained.symm).1
      exact .written (Or.inl returned) (waits.drain sound phase drained.symm)
  | took isProceed phase same =>
      subst isProceed
      cases same
      rw [takesAfter_taking phase]
      exact .taken last 0 (waits.take phase)
  | recycled count isProceed phase ended recycled =>
      subst isProceed
      obtain ⟨testing, file, buffers, buffer⟩ := recycle_eq_ok recycled.symm
      have onLeft : s.left = [] := by
        simp [left, phase, List.drop_eq_nil_of_le (List.getElem?_eq_none_iff.mp ended)]
      have onLeft' : t.left = [] := by simp [left, testing]
      rw [takesAfter_other (by simp [phase])]
      exact .waits last (waits.moved (by simp [testing]) (by rw [file, onLeft, onLeft']) buffers
        buffer)
  | wrote count b isProceed phase next wrote =>
      subst isProceed
      obtain ⟨b, rfl, rfl⟩ := wrote_eq_ok wrote
      rw [takesAfter_other (by simp [phase])]
      exact .waits last (waits.moved (by rintro ⟨⟩) (write_moves phase next) rfl rfl)

/-- The next buffer is written: it is the buffer of the line, or one of those before it. -/
theorem Taken.write {count : Nat} (taken : Taken takes s place last lines count) {b : Buffer size}
    (next : s.activeBuffers[count]? = some (some b)) :
    Tracked takes { s with logFile := s.logFile.write b, phase := .writing (count + 1) } place
      lines := by
  obtain ⟨member, -, nextTake, front, inside, older, all⟩ := taken
  obtain ⟨within, here⟩ := List.getElem?_eq_some_iff.mp next
  have file : AsyncLogger.file
      { s with logFile := s.logFile.write b, phase := .writing (count + 1) } =
        s.file ++ b.lines := by
    simp [AsyncLogger.file, LogFile.write]
  have split : (s.activeBuffers.take (place.index + 1)).drop count =
      some b :: (s.activeBuffers.take (place.index + 1)).drop (count + 1) := by
    have shorter : count < (s.activeBuffers.take (place.index + 1)).length := by
      rw [List.length_take]
      omega
    rw [List.drop_eq_getElem_cons shorter, List.getElem_take, here]
  rw [split, linesIn_cons, linesAt_some, ← List.append_assoc, ← file] at all
  by_cases own : count = place.index
  · refine .written (Or.inr ⟨by omega, fun _ count' writing => ?_⟩) ?_
    · cases writing
      omega
    · have nothing : (s.activeBuffers.take (place.index + 1)).drop (count + 1) = [] := by
        apply List.drop_eq_nil_of_le
        rw [List.length_take]
        omega
      rw [nothing, linesIn_nil, List.append_nil] at all
      exact all
  · have before : count < place.index := by omega
    refine .taken last (count + 1) ⟨member, rfl, nextTake, before, inside, ?_, all⟩
    intro line among
    rw [file, List.append_assoc] at among
    apply older
    rcases List.mem_append.mp among with old | among
    · exact List.mem_append_left _ old
    · rcases List.mem_append.mp among with written | waiting
      · apply List.mem_append_right
        refine List.mem_flatMap.mpr ⟨some b, ?_, written⟩
        exact List.mem_take_iff_getElem.mpr ⟨count, lt_min before within, here⟩
      · exact List.mem_append_right _ waiting

/-- A line whose buffer has been taken: the step may write it. -/
theorem Taken.step {count : Nat} (taken : Taken takes s place last lines count)
    (stepped : s.step action = some (.ok t)) :
    Tracked (s.takesAfter action takes) t place lines := by
  have writing := taken.phase
  cases step_moved stepped with
  | started isStart phase same => simp [writing] at phase
  | tested isProceed phase same => simp [writing] at phase
  | drained isProceed phase drained => simp [writing] at phase
  | took isProceed phase same => simp [writing] at phase
  | appended text isAppend running appends =>
      subst isAppend
      obtain ⟨phase, active, file, -⟩ := append_buffers appends.symm
      refine .taken last count ⟨taken.member, phase.trans writing, taken.next, taken.front,
        active ▸ taken.inside, ?_, ?_⟩
      · rw [file, active]
        exact taken.older
      · rw [file, active]
        exact taken.all
  | stopped isStop same =>
      subst isStop
      cases same
      exact .taken last count ⟨taken.member, writing, taken.next, taken.front, taken.inside,
        taken.older, taken.all⟩
  | recycled count' isProceed phase ended recycled =>
      -- the loop does not end before the buffer
      rw [writing] at phase
      cases phase
      exact absurd (taken.front.trans_lt taken.inside)
        (Nat.not_lt.mpr (List.getElem?_eq_none_iff.mp ended))
  | wrote count' b isProceed phase next wrote =>
      subst isProceed
      obtain ⟨b, rfl, rfl⟩ := wrote_eq_ok wrote
      rw [takesAfter_other (by simp [phase])]
      rw [writing] at phase
      cases phase
      exact taken.write next

/-- **Step lemma**. -/
theorem Tracked.step (tracked : Tracked takes s place lines) (sound : Sound s)
    (stepped : s.step action = some (.ok t)) :
    Tracked (s.takesAfter action takes) t place lines := by
  cases tracked with
  | waits last waits => exact waits.step sound stepped
  | taken last count taken => exact taken.step stepped
  | written caught all =>
      exact .written (caught_step caught stepped)
        (List.Subset.trans all (file_subset sound stepped))

end AsyncLogger

end CppFileServer.Utils
