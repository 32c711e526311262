/-
# Utils.LogOrder -- when the asynchronous log keeps the order

`ThreadFunc` gives two buffers back after it has written them; when it took more,
the others stay in `active_buffers`, and the swap puts them into `buffers_` to be
written again.  The comment at `active_buffers` asks for the vector to be empty
when buffers are read into it: `ReadsIntoEmpty` says that it holds no line.  The
lines come out in the order of `Append`, each once, exactly when every iteration
of the run meets it.
-/
import CppFileServer.Utils.LogDelivery

namespace CppFileServer.Utils

set_option autoImplicit false

open CppFileServer.Cpp CppFileServer.Theory

namespace AsyncLogger

variable {α : Type} {size : α → Nat}

/-- The lines stand in the order in which `Append` took the mutex, none of them twice. -/
def InOrder (lines : List (Line α)) : Prop := lines.Pairwise fun a b => a.ticket < b.ticket

instance (lines : List (Line α)) : Decidable (InOrder lines) := by
  unfold InOrder
  infer_instance

/-- When the thread takes the buffers, `active_buffers` holds no line. -/
def ReadsIntoEmpty (s : AsyncLogger size) (action : LogAction α) : Prop :=
  action = .proceed → s.phase = .taking → linesIn s.activeBuffers = []

/-- When the thread takes the buffers, `buffers_` holds at most one. -/
def ReadsTwo (s : AsyncLogger size) (action : LogAction α) : Prop :=
  action = .proceed → s.phase = .taking → s.buffers.length ≤ 1

/-! ## The stream in order -/

structure Ordered (s : AsyncLogger size) : Prop where
  sound : Sound s
  inOrder : InOrder s.stream
  below : ∀ line ∈ s.stream, line.ticket < s.appended.length

/-- No line of the stream has a number that is still to come. -/
theorem step_below {s t : AsyncLogger size} {action : LogAction α} (sound : Sound s)
    (below : ∀ line ∈ s.stream, line.ticket < s.appended.length)
    (stepped : s.step action = some (.ok t)) : ∀ line ∈ t.stream, line.ticket < t.appended.length := by
  obtain ⟨u, same, -, stream, appended⟩ := step_sound sound stepped
  cases same
  intro line inside
  rw [appended, List.length_append]
  rw [stream] at inside
  rcases List.mem_append.mp inside with old | adds
  · exact Nat.lt_add_right _ (below line old)
  · cases action with
    | append text =>
        simp only [added] at adds
        split_ifs at adds
        · cases List.mem_singleton.mp adds
          exact Nat.lt_add_one _
        · cases adds
    | start => cases adds
    | stop => cases adds
    | proceed =>
        -- what `active_buffers` still holds has been written before
        simp only [added] at adds
        split_ifs at adds with taking
        · have written : line ∈ s.file := by
            apply sound.written
            simpa [done, taking] using adds
          exact Nat.lt_add_right _ (below line (List.mem_append_left _ written))
        · cases adds

theorem step_ordered {s t : AsyncLogger size} {action : LogAction α} (ordered : Ordered s)
    (reads : s.ReadsIntoEmpty action) (stepped : s.step action = some (.ok t)) : Ordered t := by
  have below := step_below ordered.sound ordered.below stepped
  obtain ⟨u, same, sound, stream, -⟩ := step_sound ordered.sound stepped
  cases same
  refine ⟨sound, ?_, below⟩
  by_cases nothing : s.added action = []
  · rw [stream, nothing, List.append_nil]
    exact ordered.inOrder
  · -- only an `Append` adds a line, and its number is new
    obtain ⟨text, rfl⟩ : ∃ text, action = .append text := by
      cases action with
      | append text => exact ⟨text, rfl⟩
      | proceed =>
          simp only [added] at nothing
          split_ifs at nothing with taking
          · exact absurd (reads rfl taking) nothing
          · exact absurd rfl nothing
      | start => exact absurd rfl nothing
      | stop => exact absurd rfl nothing
    simp only [added] at nothing stream
    split_ifs at nothing stream
    · rw [stream, InOrder, List.pairwise_append]
      refine ⟨ordered.inOrder, List.pairwise_singleton _ _, ?_⟩
      intro line inside line' isNew
      cases List.mem_singleton.mp isNew
      exact ordered.below line inside
    · exact absurd rfl nothing

/-! ## The numbers of the lines -/

/-- The lines are numbered as they are appended, and the stream holds none with a later number. -/
structure Numbered (s : AsyncLogger size) : Prop where
  sound : Sound s
  inOrder : InOrder s.appended
  below : ∀ line ∈ s.appended, line.ticket < s.appended.length
  stream : ∀ line ∈ s.stream, line.ticket < s.appended.length

theorem initial_numbered : Numbered ({} : AsyncLogger size) where
  sound := initial_sound
  inOrder := List.Pairwise.nil
  below := by rintro line ⟨⟩
  stream := by rintro line ⟨⟩

/-- Some line of the stream stands twice or too late in it, so that the files will not be in order. -/
def Disordered (s : AsyncLogger size) : Prop := Sound s ∧ ¬ InOrder s.stream

theorem step_disordered {s t : AsyncLogger size} {action : LogAction α} (disordered : Disordered s)
    (stepped : s.step action = some (.ok t)) : Disordered t := by
  obtain ⟨u, same, sound, stream, -⟩ := step_sound disordered.1 stepped
  cases same
  refine ⟨sound, ?_⟩
  intro inOrder
  rw [stream, InOrder, List.pairwise_append] at inOrder
  exact disordered.2 inOrder.1

/-- A line that is left in `active_buffers` has been written, and will be again. -/
theorem disordered_of_taking {s t : AsyncLogger size} (sound : Sound s) {action : LogAction α}
    (stepped : s.step action = some (.ok t)) : s.ReadsIntoEmpty action ∨ Disordered t := by
  by_cases reads : s.ReadsIntoEmpty action
  · exact Or.inl reads
  · right
    obtain ⟨u, same, sound', stream, -⟩ := step_sound sound stepped
    cases same
    unfold ReadsIntoEmpty at reads
    push Not at reads
    obtain ⟨rfl, taking, held⟩ := reads
    obtain ⟨line, inside⟩ := List.exists_mem_of_ne_nil _ held
    refine ⟨sound', ?_⟩
    intro inOrder
    rw [stream, added, if_pos taking, InOrder, List.pairwise_append] at inOrder
    have written : line ∈ s.file := by
      apply sound.written
      simpa [done, taking] using inside
    exact lt_irrefl _ (inOrder.2.2 line (List.mem_append_left _ written) line inside)

/-! ## Two buffers at a time -/

/-- An iteration has at most two buffers, and leaves none. -/
def Light (s : AsyncLogger size) : Prop :=
  match s.phase with
  | .writing _ => s.activeBuffers.length ≤ 2
  | _ => s.activeBuffers = []

theorem spare_length {active rest : List (Option (Buffer size))} {b : Buffer size}
    {old : List (Line α)} (spared : spare active = .ok (b, rest, old)) :
    rest.length = active.length - 1 := by
  unfold spare at spared
  split at spared
  · rename_i last
    rw [List.getLast?_eq_none_iff] at last
    cases spared
    rw [last]
    rfl
  · cases spared
  · cases spared
    exact List.length_dropLast

theorem step_light {s t : AsyncLogger size} {action : LogAction α} (light : Light s)
    (reads : s.ReadsTwo action) (stepped : s.step action = some (.ok t)) : Light t := by
  unfold Light at light
  cases step_moved stepped with
  | started isStart phase same =>
      cases same
      show s.activeBuffers = []
      simpa [phase] using light
  | appended text isAppend running appends =>
      unfold append at appends
      cases isBuffer : s.buffer with
      | none => simp [isBuffer] at appends
      | some b =>
          simp only [isBuffer] at appends
          split_ifs at appends <;> cases appends <;> exact light
  | stopped isStop same =>
      cases same
      exact light
  | tested isProceed phase same =>
      cases same
      show s.activeBuffers = []
      simpa [phase] using light
  | drained isProceed phase drained =>
      obtain ⟨u, -, drained⟩ := bind_eq_ok drained.symm
      cases drained
      rfl
  | took isProceed phase same =>
      cases same
      have few := reads isProceed phase
      show (s.buffers ++ [s.buffer]).length ≤ 2
      rw [List.length_append, List.length_singleton]
      omega
  | recycled count isProceed phase ended recycled =>
      obtain ⟨⟨b, rest, old⟩, spared, recycled⟩ := bind_eq_ok recycled.symm
      obtain ⟨⟨b', rest', old'⟩, spared', recycled⟩ := bind_eq_ok recycled
      cases recycled
      have first := spare_length spared
      have second := spare_length spared'
      simp only [phase] at light
      show rest' = []
      exact List.eq_nil_of_length_eq_zero (by omega)
  | wrote count b isProceed phase next wrote =>
      obtain ⟨b, rfl, rfl⟩ := wrote_eq_ok wrote
      simpa [Light, phase] using light

/-! ## The log in order -/

/-- **The log is in order exactly when every iteration reads into an empty vector.**  A run
whose iterations do has the lines in the files in the order of `Append`, each once; a run to
the return of `ThreadFunc` with the files in order is such a run.  When `buffers_` never holds
more than one buffer as the thread takes it, this is so. -/
theorem log_in_order {actions : List (LogAction α)} {s : AsyncLogger size}
    (performed : perform step {} actions = some s) :
    (Throughout step ReadsIntoEmpty ({} : AsyncLogger size) actions → InOrder s.file) ∧
    (s.phase = .returned →
      (InOrder s.file ↔ Throughout step ReadsIntoEmpty ({} : AsyncLogger size) actions)) ∧
    (Throughout step ReadsTwo ({} : AsyncLogger size) actions →
      Throughout step ReadsIntoEmpty ({} : AsyncLogger size) actions) := by
  have initial : Ordered ({} : AsyncLogger size) :=
    ⟨initial_sound, List.Pairwise.nil, fun _ impossible => by cases impossible⟩
  have keeps (reads : Throughout step ReadsIntoEmpty ({} : AsyncLogger size) actions) :
      InOrder s.file := by
    have ordered : Ordered s :=
      reads.invariant (fun _ _ _ => step_ordered) performed initial
    have inOrder := ordered.inOrder
    rw [AsyncLogger.stream, InOrder, List.pairwise_append] at inOrder
    exact inOrder.1
  refine ⟨keeps, ?_, ?_⟩
  · intro returned
    refine ⟨?_, keeps⟩
    intro inOrder
    refine throughout_of_unmarked (P := Sound) ?_ (fun _ _ _ => step_disordered) ?_ performed
      initial_sound ?_
    · intro u action v sound stepped
      obtain ⟨w, same, kept, -⟩ := step_sound sound stepped
      cases same
      exact kept
    · intro u action v sound stepped
      exact disordered_of_taking sound stepped
    · rintro ⟨sound, disordered⟩
      rw [AsyncLogger.stream, sound.returned returned, List.append_nil] at disordered
      exact disordered inOrder
  · intro reads
    refine reads.imp (P := Light) (fun _ _ _ => step_light) ?_ rfl
    intro u action light _ isProceed taking
    unfold Light at light
    rw [taking] at light
    rw [light]
    rfl

/-- Three lines that fill a buffer each are appended before the first iteration. -/
def overloadedRun : List (LogAction Nat) :=
  [.start, .append 4095999, .append 4095999, .append 4095999] ++ List.replicate 10 .proceed ++
    [.stop, .proceed]

/-- The first of them is in the file twice. -/
theorem log_in_order_fails :
    ∃ s : AsyncLogger (id : Nat → Nat), perform step {} overloadedRun = some s ∧
      s.file.map Line.ticket = [0, 1, 2, 0] ∧ ¬ InOrder s.file := by
  have performed : ((perform step ({} : AsyncLogger (id : Nat → Nat)) overloadedRun).any fun s =>
      s.file.map Line.ticket = [0, 1, 2, 0] ∧ ¬ InOrder s.file) = true := by
    decide +kernel
  obtain ⟨s, performed, known⟩ := (Option.any_eq_true _ _).mp performed
  exact ⟨s, performed, of_decide_eq_true known⟩

/-- The same lines, each but the last written before the next is appended. -/
def calmRun : List (LogAction Nat) :=
  [.start, .append 4095999, .append 4095999] ++ List.replicate 5 .proceed ++
    [.append 4095999, .proceed, .proceed, .stop, .proceed, .proceed, .proceed]

/-- The three lines are in the file in order, so that no iteration met a left-over buffer. -/
theorem log_in_order_calmRun :
    ∃ s : AsyncLogger (id : Nat → Nat), perform step {} calmRun = some s ∧
      s.file.map Line.ticket = [0, 1, 2] ∧
      Throughout step ReadsIntoEmpty ({} : AsyncLogger (id : Nat → Nat)) calmRun := by
  have performed : ((perform step ({} : AsyncLogger (id : Nat → Nat)) calmRun).any fun s =>
      s.file.map Line.ticket = [0, 1, 2] ∧ s.phase = .returned ∧ InOrder s.file) = true := by
    decide +kernel
  obtain ⟨s, performed, known⟩ := (Option.any_eq_true _ _).mp performed
  obtain ⟨tickets, returned, inOrder⟩ := of_decide_eq_true known
  exact ⟨s, performed, tickets, ((log_in_order performed).2.1 returned).mp inOrder⟩

end AsyncLogger

end CppFileServer.Utils
