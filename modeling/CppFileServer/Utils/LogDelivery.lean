/-
# Utils.LogDelivery -- the asynchronous log loses no line

The lines in the files followed by the lines still to be written are the stream of
the logger.  No step takes anything out of it: the writes move its division on, an
`Append` adds its line, and taking the buffers adds again what `active_buffers`
still held.  `Sound` says which pointers are set, which buffers are empty and that
what is written or discarded is in the files.
-/
import CppFileServer.Utils.AsyncLogger
import Mathlib.Data.List.Infix

namespace CppFileServer.Utils

set_option autoImplicit false

open CppFileServer.Cpp CppFileServer.Theory

namespace AsyncLogger

variable {α : Type} {size : α → Nat}

/-! ## What is written and what is to be written -/

/-- The buffers of `active_buffers` that have been written. -/
def done (s : AsyncLogger size) : List (Option (Buffer size)) :=
  match s.phase with
  | .writing count => s.activeBuffers.take count
  | _ => s.activeBuffers

/-- The buffers of `active_buffers` that are still to be written. -/
def left (s : AsyncLogger size) : List (Option (Buffer size)) :=
  match s.phase with
  | .writing count => s.activeBuffers.drop count
  | _ => []

/-- The lines that are to be written. -/
def pending (s : AsyncLogger size) : List (Line α) :=
  linesIn s.left ++ linesIn s.buffers ++ linesAt s.buffer

def stream (s : AsyncLogger size) : List (Line α) := s.file ++ s.pending

@[simp] theorem linesIn_nil : linesIn ([] : List (Option (Buffer size))) = [] := rfl

@[simp] theorem linesIn_append (bs cs : List (Option (Buffer size))) :
    linesIn (bs ++ cs) = linesIn bs ++ linesIn cs := List.flatMap_append

@[simp] theorem linesIn_cons (b : Option (Buffer size)) (bs : List (Option (Buffer size))) :
    linesIn (b :: bs) = linesAt b ++ linesIn bs := List.flatMap_cons

@[simp] theorem linesAt_none : linesAt (none : Option (Buffer size)) = [] := rfl

@[simp] theorem linesAt_some (b : Buffer size) : linesAt (some b) = b.lines := rfl

@[simp] theorem reset_lines (b : Buffer size) : b.reset.lines = [] := rfl

@[simp] theorem construct_lines : (FixedBuffer.construct : Buffer size).lines = [] := rfl

theorem linesIn_reset (bs : List (Option (Buffer size))) :
    linesIn (bs.map fun b => b.map FixedBuffer.reset) = [] := by
  induction bs with
  | nil => rfl
  | cons b bs ih =>
      rw [List.map_cons, linesIn_cons, ih, List.append_nil]
      cases b with
      | none => rfl
      | some b => rfl

theorem linesIn_subset {bs cs : List (Option (Buffer size))} (subset : bs ⊆ cs) :
    linesIn bs ⊆ linesIn cs := by
  intro line inside
  obtain ⟨b, among, held⟩ := List.mem_flatMap.mp inside
  exact List.mem_flatMap.mpr ⟨b, subset among, held⟩

/-! ## The parts of a step -/

theorem append_lines_of_fits {b : Buffer size} {line : Line α} (fits : size line.text < b.avail) :
    (b.append line).lines = b.lines ++ [line] := by
  unfold FixedBuffer.append
  rw [dif_pos fits]

theorem append_lines_of_full {b : Buffer size} {line : Line α} (full : ¬ size line.text < b.avail) :
    b.append line = b := by
  unfold FixedBuffer.append
  rw [dif_neg full]

/-- An empty buffer has room for every line that is shorter than it. -/
theorem avail_of_empty {b : Buffer size} (empty : b.lines = []) : b.avail = kLargeBufferSize := by
  unfold FixedBuffer.avail FixedBuffer.len
  simp [empty]

theorem append_lines_of_empty {b : Buffer size} (empty : b.lines = []) (line : Line α) :
    (b.append line).lines = if size line.text < kLargeBufferSize then [line] else [] := by
  split_ifs with short
  · rw [append_lines_of_fits (by rwa [avail_of_empty empty]), empty, List.nil_append]
  · rw [append_lines_of_full (by rwa [avail_of_empty empty]), empty]

theorem append_of_fits {s : AsyncLogger size} {b : Buffer size} {text : α}
    (isBuffer : s.buffer = some b) (fits : size text < b.avail) : s.append text = .ok { s with
      appended := s.appended ++ [⟨s.appended.length, text⟩]
      buffer := some (b.append ⟨s.appended.length, text⟩) } := by
  simp only [append, isBuffer, if_pos fits]

theorem append_of_full {s : AsyncLogger size} {b : Buffer size} {text : α}
    (isBuffer : s.buffer = some b) (full : ¬ size text < b.avail) : s.append text = .ok { s with
      appended := s.appended ++ [⟨s.appended.length, text⟩]
      buffers := s.buffers ++ [some b]
      buffer := some ((s.nextBuffer.getD .construct).append ⟨s.appended.length, text⟩)
      nextBuffer := none } := by
  simp only [append, isBuffer, if_neg full]

/-- What a step does. -/
inductive Moved (s : AsyncLogger size) (action : LogAction α)
    (outcome : Result (AsyncLogger size)) : Prop
  | started (isStart : action = .start) (phase : s.phase = .constructed)
      (same : outcome = .ok s.start)
  | appended (text : α) (isAppend : action = .append text) (running : s.phase ≠ .returned)
      (same : outcome = s.append text)
  | stopped (isStop : action = .stop) (same : outcome = .ok { s with running := false })
  | tested (isProceed : action = .proceed) (phase : s.phase = .testing)
      (same : outcome = .ok { s with phase := .taking })
  | drained (isProceed : action = .proceed) (phase : s.phase = .testing)
      (same : outcome = s.drain)
  | took (isProceed : action = .proceed) (phase : s.phase = .taking) (same : outcome = .ok s.take)
  | recycled (count : Nat) (isProceed : action = .proceed) (phase : s.phase = .writing count)
      (ended : s.activeBuffers[count]? = none) (same : outcome = s.recycle)
  | wrote (count : Nat) (b : Option (Buffer size)) (isProceed : action = .proceed)
      (phase : s.phase = .writing count) (next : s.activeBuffers[count]? = some b)
      (same : outcome = do
        let t ← s.write b
        pure { t with phase := .writing (count + 1) })

theorem step_moved {s : AsyncLogger size} {action : LogAction α}
    {outcome : Result (AsyncLogger size)} (stepped : s.step action = some outcome) :
    Moved s action outcome := by
  cases action with
  | start =>
      simp only [step] at stepped
      split_ifs at stepped with constructed
      exact .started rfl constructed (Option.some.inj stepped).symm
  | append text =>
      simp only [step] at stepped
      split_ifs at stepped with returned
      exact .appended text rfl returned (Option.some.inj stepped).symm
  | stop =>
      simp only [step] at stepped
      split_ifs at stepped with running
      exact .stopped rfl (Option.some.inj stepped).symm
  | proceed =>
      simp only [step, proceed] at stepped
      cases phase : s.phase with
      | constructed => simp [phase] at stepped
      | testing =>
          simp only [phase, Option.some.injEq] at stepped
          split_ifs at stepped with running
          · exact .tested rfl phase stepped.symm
          · exact .drained rfl phase stepped.symm
      | taking =>
          simp only [phase, Option.some.injEq] at stepped
          exact .took rfl phase stepped.symm
      | writing count =>
          simp only [phase, Option.some.injEq] at stepped
          cases next : s.activeBuffers[count]? with
          | none =>
              simp only [next] at stepped
              exact .recycled count rfl phase next stepped.symm
          | some b =>
              simp only [next] at stepped
              exact .wrote count b rfl phase next stepped.symm
      | returned => simp [phase] at stepped

theorem wrote_eq_ok {s t : AsyncLogger size} {b : Option (Buffer size)} {count : Nat}
    (wrote : .ok t = do
      let t ← s.write b
      pure { t with phase := .writing (count + 1) }) :
    ∃ b', b = some b' ∧
      t = { s with logFile := s.logFile.write b', phase := .writing (count + 1) } := by
  obtain ⟨u, written, returned⟩ := bind_eq_ok wrote.symm
  cases b with
  | none => cases written
  | some b =>
      cases written
      cases returned
      exact ⟨b, rfl, rfl⟩

/-- Moving a spare to its place leaves only empty buffers, and discards no line. -/
theorem refill_spec {pointer spare : Option (Buffer size)} (empty : linesAt pointer = [])
    (emptySpare : linesAt spare = []) : linesAt (refill pointer spare).1 = [] ∧
      linesAt (refill pointer spare).2.1 = [] ∧ (refill pointer spare).2.2 = [] := by
  cases pointer with
  | none =>
      cases spare with
      | none => exact ⟨rfl, rfl, rfl⟩
      | some b => exact ⟨rfl, rfl, emptySpare⟩
  | some b => exact ⟨empty, emptySpare, rfl⟩

theorem roll_file (s : AsyncLogger size) : s.roll.file = s.file := by
  unfold roll
  split_ifs
  · simp [file]
  · rfl

theorem write_eq_ok {s t : AsyncLogger size} {b : Option (Buffer size)} (wrote : s.write b = .ok t) :
    t = { s with logFile := t.logFile } ∧ t.file = s.file ++ linesAt b ∧ b ≠ none := by
  cases b with
  | none => cases wrote
  | some b =>
      cases wrote
      refine ⟨rfl, ?_, by simp⟩
      simp [file, LogFile.write]

theorem writeBuffers_returns (s : AsyncLogger size) {bs : List (Option (Buffer size))}
    (present : none ∉ bs) : ∃ t, s.writeBuffers bs = .ok t ∧ t = { s with logFile := t.logFile } ∧
      t.file = s.file ++ linesIn bs := by
  induction bs generalizing s with
  | nil => exact ⟨s, rfl, rfl, by simp⟩
  | cons b bs ih =>
      rw [List.mem_cons, not_or] at present
      obtain ⟨head, tail⟩ := present
      cases b with
      | none => exact absurd rfl head
      | some b =>
          obtain ⟨t, wrote, same, file⟩ := ih { s with logFile := s.logFile.write b } tail
          refine ⟨t, wrote, same, ?_⟩
          rw [file, linesIn_cons, ← List.append_assoc]
          simp [AsyncLogger.file, LogFile.write]

/-- What is taken from the back of `active_buffers`. -/
theorem spare_returns {active : List (Option (Buffer size))} (present : none ∉ active) :
    ∃ b rest old, spare active = .ok (b, rest, old) ∧ b.lines = [] ∧ rest ⊆ active ∧
      old ⊆ linesIn active := by
  unfold spare
  cases last : active.getLast? with
  | none => exact ⟨_, _, _, rfl, rfl, List.nil_subset _, List.nil_subset _⟩
  | some b =>
      have inside := List.mem_of_getLast? last
      cases b with
      | none => exact absurd inside present
      | some b =>
          refine ⟨_, _, _, rfl, rfl, List.dropLast_subset active, ?_⟩
          intro line among
          exact List.mem_flatMap.mpr ⟨some b, inside, among⟩

/-! ## The invariant -/

structure Sound (s : AsyncLogger size) : Prop where
  /-- No pointer that is followed is null. -/
  buffer : ∃ b, s.buffer = some b
  buffers : none ∉ s.buffers
  active : none ∉ s.activeBuffers
  spared : s.phase = .testing ∨ s.phase = .taking → ∃ b, s.newCurrent = some b
  /-- The spares are empty. -/
  next : linesAt s.nextBuffer = []
  current : linesAt s.newCurrent = []
  newNext : linesAt s.newNext = []
  /-- What is written or discarded is in the files. -/
  written : linesIn s.done ⊆ s.file
  discarded : s.discarded ⊆ s.file
  appended : ∀ line ∈ s.appended, size line.text < kLargeBufferSize → line ∈ s.stream
  returned : s.phase = .returned → s.pending = []
  begun : s.phase = .constructed → s.activeBuffers = []

theorem next_empty {s : AsyncLogger size} (sound : Sound s) :
    (s.nextBuffer.getD .construct).lines = [] := by
  have next := sound.next
  cases isNext : s.nextBuffer with
  | none => rfl
  | some b => simpa [isNext] using next

/-- What a step adds to the stream: the line of an `Append` that is shorter than a buffer, and
what `active_buffers` holds when it is swapped for `buffers_`. -/
def added (s : AsyncLogger size) : LogAction α → List (Line α)
  | .append text => if size text < kLargeBufferSize then [⟨s.appended.length, text⟩] else []
  | .proceed => if s.phase = .taking then linesIn s.activeBuffers else []
  | _ => []

/-- What a step adds to `appended`. -/
def recorded (s : AsyncLogger size) : LogAction α → List (Line α)
  | .append text => [⟨s.appended.length, text⟩]
  | _ => []

/-- The old lines are in a stream that has only grown; the new ones must be in what it has
grown by. -/
theorem appended_grows {s t : AsyncLogger size} (sound : Sound s) {lines more : List (Line α)}
    (stream : t.stream = s.stream ++ more) (appended : t.appended = s.appended ++ lines)
    (fresh : ∀ line ∈ lines, size line.text < kLargeBufferSize → line ∈ more) :
    ∀ line ∈ t.appended, size line.text < kLargeBufferSize → line ∈ t.stream := by
  intro line inside short
  rw [appended] at inside
  rw [stream]
  rcases List.mem_append.mp inside with old | new
  · exact List.mem_append_left _ (sound.appended line old short)
  · exact List.mem_append_right _ (fresh line new short)

theorem appended_kept {s t : AsyncLogger size} (sound : Sound s) (stream : t.stream = s.stream)
    (appended : t.appended = s.appended) :
    ∀ line ∈ t.appended, size line.text < kLargeBufferSize → line ∈ t.stream := by
  intro line inside short
  rw [stream]
  exact sound.appended line (appended ▸ inside) short

/-- The line goes into `buffer_`. -/
theorem append_sound_of_fits {s : AsyncLogger size} (sound : Sound s) {text : α} {b : Buffer size}
    (isBuffer : s.buffer = some b) (fits : size text < b.avail) :
    ∃ t, s.append text = .ok t ∧ (s.phase ≠ .returned → Sound t) ∧
      t.stream = s.stream ++ [⟨s.appended.length, text⟩] ∧
      t.appended = s.appended ++ [⟨s.appended.length, text⟩] := by
  let line : Line α := ⟨s.appended.length, text⟩
  let t : AsyncLogger size :=
    { s with appended := s.appended ++ [line], buffer := some (b.append line) }
  have appends : s.append text = .ok t := append_of_fits isBuffer fits
  have stream : t.stream = s.stream ++ [line] := by
    have lines : (b.append line).lines = b.lines ++ [line] := append_lines_of_fits fits
    show s.file ++ (linesIn s.left ++ linesIn s.buffers ++ (b.append line).lines) = _
    simp [AsyncLogger.stream, pending, isBuffer, lines]
  refine ⟨t, appends, ?_, stream, rfl⟩
  intro running
  exact { sound with
    buffer := ⟨_, rfl⟩
    written := sound.written
    discarded := sound.discarded
    appended := appended_grows sound stream rfl fun _ inside _ => inside
    returned := fun impossible => absurd impossible running }

/-- `buffer_` is full and another one takes its place. -/
theorem append_sound_of_full {s : AsyncLogger size} (sound : Sound s) {text : α} {b : Buffer size}
    (isBuffer : s.buffer = some b) (full : ¬ size text < b.avail) :
    ∃ t, s.append text = .ok t ∧ (s.phase ≠ .returned → Sound t) ∧
      t.stream = s.stream ++ s.added (.append text) ∧
      t.appended = s.appended ++ [⟨s.appended.length, text⟩] := by
  let line : Line α := ⟨s.appended.length, text⟩
  let b' : Buffer size := s.nextBuffer.getD .construct
  let t : AsyncLogger size :=
    { s with
      appended := s.appended ++ [line]
      buffers := s.buffers ++ [some b]
      buffer := some (b'.append line)
      nextBuffer := none }
  have appends : s.append text = .ok t := append_of_full isBuffer full
  have stream : t.stream = s.stream ++ s.added (.append text) := by
    have lines := append_lines_of_empty (next_empty sound) line
    show s.file ++ (linesIn s.left ++ linesIn (s.buffers ++ [some b]) ++ (b'.append line).lines) = _
    rw [lines]
    simp [AsyncLogger.stream, pending, isBuffer, line, added]
  refine ⟨t, appends, ?_, stream, rfl⟩
  intro running
  refine { sound with
    buffer := ⟨_, rfl⟩
    buffers := ?_
    next := rfl
    written := sound.written
    discarded := sound.discarded
    appended := appended_grows sound stream rfl ?_
    returned := fun impossible => absurd impossible running }
  · show none ∉ s.buffers ++ [some b]
    simpa using sound.buffers
  · intro line' inside short
    rw [List.mem_singleton] at inside
    subst inside
    rw [added, if_pos short]
    exact List.mem_singleton_self _

/-- The line of an `Append` that is shorter than a buffer always finds room. -/
theorem append_sound {s : AsyncLogger size} (sound : Sound s) (text : α) :
    ∃ t, s.append text = .ok t ∧ (s.phase ≠ .returned → Sound t) ∧
      t.stream = s.stream ++ s.added (.append text) ∧
      t.appended = s.appended ++ s.recorded (.append text) := by
  obtain ⟨b, isBuffer⟩ := sound.buffer
  by_cases fits : size text < b.avail
  · have room : b.avail ≤ kLargeBufferSize := Nat.sub_le _ _
    rw [added, if_pos (by omega)]
    exact append_sound_of_fits sound isBuffer fits
  · exact append_sound_of_full sound isBuffer fits

/-- The block under the mutex puts a spare in the place of `buffer_`. -/
theorem take_sound {s : AsyncLogger size} (sound : Sound s) (taking : s.phase = .taking) :
    Sound s.take ∧ s.take.stream = s.stream ++ s.added .proceed := by
  obtain ⟨b, isSpare⟩ := sound.spared (Or.inr taking)
  have noBuffer : linesAt (none : Option (Buffer size)) = [] := rfl
  obtain ⟨-, emptyCurrent, old⟩ := refill_spec noBuffer sound.current
  obtain ⟨emptyNext, emptySpare, old'⟩ := refill_spec sound.next sound.newNext
  have isBuffer : s.take.buffer = some b.reset := by simp [take, isSpare, refill]
  have onDone : s.done = s.activeBuffers := by simp [done, taking]
  have onLeft : s.left = [] := by simp [left, taking]
  have stream : s.take.stream = s.stream ++ linesIn s.activeBuffers := by
    show s.file ++ (linesIn ((s.buffers ++ [s.buffer]).drop 0) ++ linesIn s.activeBuffers ++
      linesAt s.take.buffer) = _
    simp [AsyncLogger.stream, pending, onLeft, isBuffer]
  refine ⟨?_, by rw [stream, added, if_pos taking]⟩
  refine ⟨⟨_, isBuffer⟩, sound.active, ?_, ?_, emptyNext, emptyCurrent, emptySpare, ?_, ?_, ?_, ?_, ?_⟩
  · obtain ⟨b', full⟩ := sound.buffer
    show none ∉ s.buffers ++ [s.buffer]
    simpa [full] using sound.buffers
  · rintro (impossible | impossible) <;> cases impossible
  · exact List.nil_subset _
  · show s.discarded ++ (refill none s.newCurrent).2.2 ++ (refill s.nextBuffer s.newNext).2.2 ⊆ s.file
    rw [old, old', List.append_nil, List.append_nil]
    exact sound.discarded
  · exact appended_grows sound stream (List.append_nil _).symm fun _ impossible => nomatch impossible
  · intro impossible
    cases impossible
  · intro impossible
    cases impossible

theorem recycle_sound {s : AsyncLogger size} (sound : Sound s) {count : Nat}
    (writing : s.phase = .writing count) (ended : s.activeBuffers[count]? = none) :
    ∃ t, s.recycle = .ok t ∧ Sound t ∧ t.stream = s.stream ∧ t.appended = s.appended := by
  have all : s.activeBuffers.length ≤ count := List.getElem?_eq_none_iff.mp ended
  have onDone : s.done = s.activeBuffers := by simp [done, writing, List.take_of_length_le all]
  have onLeft : s.left = [] := by simp [left, writing, List.drop_eq_nil_of_le all]
  obtain ⟨b, rest, old, spared, empty, fewer, lines⟩ := spare_returns sound.active
  have present : none ∉ rest := fun inside => sound.active (fewer inside)
  obtain ⟨b', rest', old', spared', empty', fewer', lines'⟩ := spare_returns present
  let t : AsyncLogger size := { s.roll with
    phase := .testing
    activeBuffers := rest'
    newCurrent := some b
    newNext := some b'
    discarded := s.discarded ++ linesAt s.newCurrent ++ old ++ linesAt s.newNext ++ old' }
  have recycled : s.recycle = .ok t := by simp [recycle, spared, spared', t]
  have file : t.file = s.file := s.roll_file
  have others : s.roll.buffers = s.buffers ∧ s.roll.buffer = s.buffer ∧
      s.roll.nextBuffer = s.nextBuffer ∧ s.roll.appended = s.appended := by
    unfold roll
    split_ifs <;> exact ⟨rfl, rfl, rfl, rfl⟩
  obtain ⟨buffers, buffer, nextBuffer, appended⟩ := others
  have stream : t.stream = s.stream := by
    show t.file ++ ([] ++ linesIn s.roll.buffers ++ linesAt s.roll.buffer) = _
    rw [file, buffers, buffer, AsyncLogger.stream, pending, onLeft]
    rfl
  have writtenOld {ls : List (Line α)} (among : ls ⊆ linesIn s.activeBuffers) : ls ⊆ s.file := by
    have written := sound.written
    rw [onDone] at written
    exact List.Subset.trans among written
  refine ⟨t, recycled, ?_, stream, appended⟩
  refine ⟨?_, ?_, ?_, fun _ => ⟨b, rfl⟩, ?_, empty, empty', ?_, ?_, ?_, ?_, ?_⟩
  · show ∃ b, s.roll.buffer = some b
    rw [buffer]
    exact sound.buffer
  · show none ∉ s.roll.buffers
    rw [buffers]
    exact sound.buffers
  · exact fun inside => present (fewer' inside)
  · show linesAt s.roll.nextBuffer = []
    rw [nextBuffer]
    exact sound.next
  · rw [file]
    exact writtenOld (linesIn_subset (List.Subset.trans fewer' fewer))
  · rw [file]
    show s.discarded ++ linesAt s.newCurrent ++ old ++ linesAt s.newNext ++ old' ⊆ s.file
    rw [sound.current, sound.newNext, List.append_nil, List.append_nil]
    apply List.append_subset.mpr
    refine ⟨List.append_subset.mpr ⟨sound.discarded, writtenOld lines⟩, ?_⟩
    exact writtenOld (List.Subset.trans lines' (linesIn_subset fewer))
  · exact appended_kept sound stream appended
  · intro impossible
    cases impossible
  · intro impossible
    cases impossible

/-- Writing a buffer moves its lines from those to be written into the file. -/
theorem write_sound {s : AsyncLogger size} (sound : Sound s) {count : Nat}
    (writing : s.phase = .writing count) {b : Option (Buffer size)}
    (next : s.activeBuffers[count]? = some b) :
    ∃ t, s.write b = .ok t ∧ Sound { t with phase := .writing (count + 1) } ∧
      AsyncLogger.stream { t with phase := .writing (count + 1) } = s.stream ∧
      t.appended = s.appended := by
  obtain ⟨inside, here⟩ := List.getElem?_eq_some_iff.mp next
  have present : b ≠ none := by
    rintro rfl
    exact sound.active (here ▸ List.getElem_mem inside)
  obtain ⟨b, rfl⟩ := Option.ne_none_iff_exists'.mp present
  let t : AsyncLogger size := { s with logFile := s.logFile.write b }
  have wrote : s.write (some b) = .ok t := rfl
  obtain ⟨-, file, -⟩ := write_eq_ok wrote
  have onDone : s.done = s.activeBuffers.take count := by simp [done, writing]
  have onLeft : s.left = some b :: s.activeBuffers.drop (count + 1) := by
    rw [left, writing]
    simp only
    rw [List.drop_eq_getElem_cons inside, here]
  have stream : AsyncLogger.stream { t with phase := .writing (count + 1) } = s.stream := by
    show t.file ++ (linesIn (s.activeBuffers.drop (count + 1)) ++ linesIn s.buffers ++
      linesAt s.buffer) = _
    rw [file, AsyncLogger.stream, pending, onLeft]
    simp
  refine ⟨t, wrote, ?_, stream, rfl⟩
  have kept : s.file ⊆ t.file := by
    rw [file]
    exact List.subset_append_left _ _
  refine { sound with
    spared := ?_
    written := ?_
    discarded := List.Subset.trans sound.discarded kept
    appended := ?_
    returned := fun impossible => by cases impossible
    begun := fun impossible => by cases impossible }
  · rintro (impossible | impossible) <;> cases impossible
  · show linesIn (s.activeBuffers.take (count + 1)) ⊆ t.file
    have written := sound.written
    rw [onDone] at written
    rw [List.take_succ_eq_append_getElem inside, here, linesIn_append, file]
    refine List.append_subset.mpr ⟨List.Subset.trans written (List.subset_append_left _ _), ?_⟩
    simp
  · exact appended_kept sound stream rfl

/-- What the end of the thread throws away is written by then. -/
theorem thrown_away_subset {s : AsyncLogger size} (sound : Sound s) (testing : s.phase = .testing) :
    s.discarded ++ linesIn s.buffers ++ linesAt s.buffer ++ linesIn s.activeBuffers ++
      linesAt s.newCurrent ++ linesAt s.newNext ⊆ s.stream := by
  have inFile : s.file ⊆ s.stream := List.subset_append_left _ _
  have onDone : s.done = s.activeBuffers := by simp [done, testing]
  have onLeft : s.left = [] := by simp [left, testing]
  have inPending : linesIn s.buffers ++ linesAt s.buffer ⊆ s.stream := by
    rw [AsyncLogger.stream, pending, onLeft]
    exact List.subset_append_right _ _
  obtain ⟨inBuffers, inBuffer⟩ := List.append_subset.mp inPending
  have written := sound.written
  rw [onDone] at written
  rw [sound.current, sound.newNext, List.append_nil, List.append_nil]
  refine List.append_subset.mpr ⟨?_, List.Subset.trans written inFile⟩
  refine List.append_subset.mpr ⟨?_, inBuffer⟩
  exact List.append_subset.mpr ⟨List.Subset.trans sound.discarded inFile, inBuffers⟩

/-- The end of the thread writes all that is left. -/
theorem drain_sound {s : AsyncLogger size} (sound : Sound s) (testing : s.phase = .testing) :
    ∃ t, s.drain = .ok t ∧ Sound t ∧ t.stream = s.stream ∧ t.appended = s.appended := by
  obtain ⟨b, isBuffer⟩ := sound.buffer
  obtain ⟨u, wrote, same, file⟩ := writeBuffers_returns s sound.buffers
  let t : AsyncLogger size := { u with
    logFile := u.logFile.write b
    phase := .returned
    buffers := s.buffers.map fun b => b.map FixedBuffer.reset
    buffer := s.buffer.map FixedBuffer.reset
    activeBuffers := []
    newCurrent := none
    newNext := none
    discarded := s.discarded ++ linesIn s.buffers ++ linesAt s.buffer ++
      linesIn s.activeBuffers ++ linesAt s.newCurrent ++ linesAt s.newNext }
  have drained : s.drain = .ok t := by simp [drain, wrote, isBuffer, writeLast, t]
  have others : u.rolled = s.rolled ∧ u.appended = s.appended ∧ u.nextBuffer = s.nextBuffer := by
    rw [same]
    exact ⟨rfl, rfl, rfl⟩
  obtain ⟨rolled, appended, nextBuffer⟩ := others
  have onLeft : s.left = [] := by simp [left, testing]
  have noneLeft : t.pending = [] := by
    show linesIn [] ++ linesIn (s.buffers.map fun b => b.map FixedBuffer.reset) ++
      linesAt (s.buffer.map FixedBuffer.reset) = []
    rw [linesIn_reset, isBuffer]
    rfl
  have all : t.file = s.stream := by
    have drainedFile : t.file = u.file ++ b.lines := by
      show u.rolled.flatten ++ (u.logFile.written ++ b.lines) = _
      simp [AsyncLogger.file]
    rw [drainedFile, file, AsyncLogger.stream, pending, onLeft, isBuffer]
    simp
  have stream : t.stream = s.stream := by rw [AsyncLogger.stream, noneLeft, List.append_nil, all]
  refine ⟨t, drained, ?_, stream, appended⟩
  refine ⟨⟨b.reset, by simp [t, isBuffer]⟩, ?_, List.not_mem_nil, ?_, ?_, rfl, rfl, List.nil_subset _,
    ?_, ?_, fun _ => noneLeft, fun _ => rfl⟩
  · intro inside
    obtain ⟨b', among, isNone⟩ := List.mem_map.mp inside
    cases b' with
    | none => exact sound.buffers among
    | some b' => cases isNone
  · rintro (impossible | impossible) <;> cases impossible
  · show linesAt u.nextBuffer = []
    rw [nextBuffer]
    exact sound.next
  · rw [all]
    exact thrown_away_subset sound testing
  · exact appended_kept sound stream appended

/-! ## Every step -/

theorem start_sound {s : AsyncLogger size} (sound : Sound s) (constructed : s.phase = .constructed) :
    Sound s.start ∧ s.start.stream = s.stream := by
  have empty : s.activeBuffers = [] := sound.begun constructed
  have stream : s.start.stream = s.stream := by
    simp [AsyncLogger.stream, pending, left, start, constructed, AsyncLogger.file]
  refine ⟨{ sound with
    spared := fun _ => ⟨_, rfl⟩
    current := rfl
    newNext := rfl
    written := ?_
    discarded := sound.discarded
    appended := ?_
    returned := fun impossible => by cases impossible
    begun := fun impossible => by cases impossible }, stream⟩
  · show linesIn s.activeBuffers ⊆ s.file
    rw [empty]
    exact List.nil_subset _
  · rw [stream]
    exact sound.appended

theorem stop_sound {s : AsyncLogger size} (sound : Sound s) : Sound { s with running := false } :=
  { sound with
    written := sound.written
    discarded := sound.discarded
    appended := sound.appended
    returned := sound.returned }

theorem test_sound {s : AsyncLogger size} (sound : Sound s) (testing : s.phase = .testing) :
    Sound { s with phase := .taking } ∧
      AsyncLogger.stream { s with phase := .taking } = s.stream := by
  have stream : AsyncLogger.stream { s with phase := .taking } = s.stream := by
    simp [AsyncLogger.stream, pending, left, testing, AsyncLogger.file]
  refine ⟨{ sound with
    spared := fun _ => sound.spared (Or.inl testing)
    written := ?_
    discarded := sound.discarded
    appended := ?_
    returned := fun impossible => by cases impossible
    begun := fun impossible => by cases impossible }, stream⟩
  · show linesIn s.activeBuffers ⊆ s.file
    simpa [done, testing] using sound.written
  · rw [stream]
    exact sound.appended

/-- **Step lemma**: no step fails, each keeps the invariant, and the stream only grows. -/
theorem step_sound {s : AsyncLogger size} (sound : Sound s) {action : LogAction α}
    {outcome : Result (AsyncLogger size)} (stepped : s.step action = some outcome) :
    ∃ t, outcome = .ok t ∧ Sound t ∧ t.stream = s.stream ++ s.added action ∧
      t.appended = s.appended ++ s.recorded action := by
  -- taking the buffers is the only step of `ThreadFunc` that changes the stream
  have calm (phase : s.phase ≠ .taking) : s.stream = s.stream ++ s.added .proceed := by
    rw [added, if_neg phase, List.append_nil]
  have noLine : s.appended = s.appended ++ s.recorded .proceed := (List.append_nil _).symm
  cases step_moved stepped with
  | started isStart phase same =>
      subst isStart
      obtain ⟨kept, stream⟩ := start_sound sound phase
      exact ⟨_, same, kept, stream.trans (List.append_nil _).symm, (List.append_nil _).symm⟩
  | appended text isAppend running same =>
      subst isAppend
      obtain ⟨t, appends, kept, stream, appended⟩ := append_sound sound text
      exact ⟨t, same.trans appends, kept running, stream, appended⟩
  | stopped isStop same =>
      subst isStop
      exact ⟨_, same, stop_sound sound, (List.append_nil _).symm, (List.append_nil _).symm⟩
  | tested isProceed phase same =>
      subst isProceed
      obtain ⟨kept, stream⟩ := test_sound sound phase
      exact ⟨_, same, kept, stream.trans (calm (by simp [phase])), noLine⟩
  | drained isProceed phase same =>
      subst isProceed
      obtain ⟨t, drained, kept, stream, appended⟩ := drain_sound sound phase
      exact ⟨t, same.trans drained, kept, stream.trans (calm (by simp [phase])),
        appended.trans noLine⟩
  | took isProceed phase same =>
      subst isProceed
      obtain ⟨kept, stream⟩ := take_sound sound phase
      exact ⟨_, same, kept, stream, noLine⟩
  | recycled count isProceed phase ended same =>
      subst isProceed
      obtain ⟨t, recycled, kept, stream, appended⟩ := recycle_sound sound phase ended
      exact ⟨t, same.trans recycled, kept, stream.trans (calm (by simp [phase])),
        appended.trans noLine⟩
  | wrote count b isProceed phase next same =>
      subst isProceed
      obtain ⟨t, wrote, kept, stream, appended⟩ := write_sound sound phase next
      rw [wrote, ok_bind] at same
      exact ⟨_, same, kept, stream.trans (calm (by simp [phase])), appended.trans noLine⟩

theorem initial_sound : Sound ({} : AsyncLogger size) where
  buffer := ⟨_, rfl⟩
  buffers := List.not_mem_nil
  active := List.not_mem_nil
  spared := by rintro (impossible | impossible) <;> cases impossible
  next := rfl
  current := rfl
  newNext := rfl
  written := List.nil_subset _
  discarded := List.nil_subset _
  appended := fun _ impossible => by cases impossible
  returned := fun impossible => by cases impossible
  begun := fun _ => rfl

theorem reaches_sound {s : AsyncLogger size} (reaches : Reaches step {} s) : Sound s := by
  refine reaches.invariant ?_ initial_sound
  intro s action t sound stepped
  obtain ⟨u, same, kept, -⟩ := step_sound sound stepped
  cases same
  exact kept

/-- After `Append` of a line that is shorter than a buffer, the line is the last of `buffer_`. -/
theorem append_fits {s : AsyncLogger size} (sound : Sound s) {text : α}
    (short : size text < kLargeBufferSize) : ∃ t b, s.append text = .ok t ∧ t.buffer = some b ∧
      b.lines.getLast? = some ⟨s.appended.length, text⟩ := by
  obtain ⟨b, isBuffer⟩ := sound.buffer
  by_cases fits : size text < b.avail
  · refine ⟨_, b.append ⟨s.appended.length, text⟩, append_of_fits isBuffer fits, rfl, ?_⟩
    rw [append_lines_of_fits fits, List.getLast?_concat]
  · refine ⟨_, (s.nextBuffer.getD .construct).append ⟨s.appended.length, text⟩,
      append_of_full isBuffer fits, rfl, ?_⟩
    rw [append_lines_of_empty (next_empty sound), if_pos short]
    rfl

/-- **No line is lost.**  When `ThreadFunc` has returned, each line that is shorter than a
buffer is in the files.  In every state between two critical sections `buffer_` is set, no
null pointer is in `buffers_` or `active_buffers`, what was discarded is in the files, and an
`Append` of a line that is shorter than a buffer writes it; and no step follows a null
pointer. -/
theorem log_loses_nothing {s : AsyncLogger size} (reaches : Reaches step {} s) :
    (s.phase = .returned →
      ∀ line ∈ s.appended, size line.text < kLargeBufferSize → line ∈ s.file) ∧
    (∃ b, s.buffer = some b) ∧ none ∉ s.buffers ∧ none ∉ s.activeBuffers ∧
    s.discarded ⊆ s.file ∧
    (∀ text, size text < kLargeBufferSize → ∃ t b, s.append text = .ok t ∧ t.buffer = some b ∧
      b.lines.getLast? = some ⟨s.appended.length, text⟩) ∧
    ∀ action outcome, s.step action = some outcome → ∃ t, outcome = .ok t := by
  have sound := reaches_sound reaches
  refine ⟨?_, sound.buffer, sound.buffers, sound.active, sound.discarded, ?_, ?_⟩
  · intro returned line inside short
    have inStream := sound.appended line inside short
    rwa [AsyncLogger.stream, sound.returned returned, List.append_nil] at inStream
  · intro text short
    exact append_fits sound short
  · intro action outcome stepped
    obtain ⟨t, same, -⟩ := step_sound sound stepped
    exact ⟨t, same⟩

/-- A line before `Start`, one that fills the next buffer, one for a third, and one after `Stop`. -/
def stoppedRun : List (LogAction Nat) :=
  [.append 5, .start, .append 4095999, .proceed, .append 7, .proceed, .proceed, .proceed, .stop,
    .append 8, .proceed, .proceed, .proceed]

/-- All four are in the file. -/
theorem log_loses_nothing_stoppedRun :
    ∃ s : AsyncLogger (id : Nat → Nat), Reaches step {} s ∧ s.phase = .returned ∧
      s.appended = [⟨0, 5⟩, ⟨1, 4095999⟩, ⟨2, 7⟩, ⟨3, 8⟩] ∧ ∀ line ∈ s.appended, line ∈ s.file := by
  have performed : ((perform step ({} : AsyncLogger (id : Nat → Nat)) stoppedRun).any fun s =>
      s.phase = .returned ∧ s.appended = [⟨0, 5⟩, ⟨1, 4095999⟩, ⟨2, 7⟩, ⟨3, 8⟩]) = true := by
    decide +kernel
  obtain ⟨s, performed, known⟩ := (Option.any_eq_true _ _).mp performed
  obtain ⟨returned, appended⟩ := of_decide_eq_true known
  have reaches := reaches_of_perform performed
  refine ⟨s, reaches, returned, appended, ?_⟩
  intro line inside
  apply (log_loses_nothing reaches).1 returned line inside
  rw [appended] at inside
  simp only [List.mem_cons, List.not_mem_nil, or_false] at inside
  rcases inside with rfl | rfl | rfl | rfl <;> decide

end AsyncLogger

end CppFileServer.Utils
