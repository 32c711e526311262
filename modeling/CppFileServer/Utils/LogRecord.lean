/-
# Utils.LogRecord -- the record of a Logger

The constructor of a `Logger` writes the time, the thread and the level, `<<` adds
what the caller logs, and `~Logger` adds the place in the source and a newline before
it hands the record on.  Each of these is an operation of the stream and is dropped as
a whole when the stream has no room.  A number asks for 48 bytes and is dropped early,
but a single character asks for two, and so the newline is dropped when the stream has
exactly one byte left: `LineCut` says for which lengths that happens.
-/
import CppFileServer.Cpp.Decimal
import CppFileServer.Utils.LogFlush
import CppFileServer.Utils.LogNumerals

namespace CppFileServer.Utils

set_option autoImplicit false

open CppFileServer.Cpp CppFileServer.Theory

/-! ## The parts of a record -/

/-- A number in a field of some width. -/
def padded (pad : UInt8) (width : Nat) (text : Bytes) : Bytes :=
  List.replicate (width - text.length) pad ++ text

theorem padded_length (pad : UInt8) (width : Nat) (text : Bytes) :
    (padded pad width text).length = max width text.length := by
  rw [padded, List.length_append, List.length_replicate]
  omega

theorem toDecimal_short {n : Nat} (fits : n < 2 ^ 64) : (toDecimal n).length ≤ 20 := by
  rw [← digitText_natCast]
  exact FixedMemory.digitText_length (by omega)

theorem intToDecimal_short {n : Int} (fits : n.natAbs < 2 ^ 64) :
    (intToDecimal n).length ≤ 21 := by
  have digits := toDecimal_short fits
  rw [intToDecimal]
  split_ifs
  · rw [List.length_cons]
    omega
  · omega

def logLevelString : LogLevel → { b : Bytes // b.length = 6 }
  | .DEBUG => ⟨ascii "DEBUG ", rfl⟩
  | .INFO => ⟨ascii "INFO  ", rfl⟩
  | .WARN => ⟨ascii "WARN  ", rfl⟩
  | .ERROR => ⟨ascii "ERROR ", rfl⟩
  | .FATAL => ⟨ascii "FATAL ", rfl⟩

def GetBaseName (file : CString) : CString :=
  ⟨afterLast 47 file.val, fun inside => file.property ((afterLast_suffix 47 file.val).subset inside)⟩

/-- The arguments of the constructor, and what it reads of its thread and the clock. -/
structure LogCall where
  /-- The literal `__FILE__`. -/
  file : CString
  short : file.val.length < 2 ^ 31
  line : Int32
  level : LogLevel
  /-- `t_time`, as `FormatTime` leaves it. -/
  t_time : { b : Bytes // b.length = 64 }
  /-- `now.GetMicroSeconds()`. -/
  microSeconds : Nat
  tid : Int32

namespace LogCall

/-- `Fmt us(".%06dZ  ", microseconds)`. -/
def us (c : LogCall) : Fmt where
  text := ascii "." ++ padded 48 6 (toDecimal (c.microSeconds % 1000000)) ++ ascii "Z  "
  short := by
    have below : c.microSeconds % 1000000 < 1000000 := Nat.mod_lt _ (by decide)
    have digits : (toDecimal (c.microSeconds % 1000000)).length ≤ 20 :=
      toDecimal_short (by omega)
    have dot : (ascii ".").length = 1 := by decide
    have zone : (ascii "Z  ").length = 3 := by decide
    rw [List.length_append, List.length_append, padded_length]
    omega

theorem nine_le_us (c : LogCall) : 9 ≤ c.us.text.length := by
  have dot : (ascii ".").length = 1 := by decide
  have zone : (ascii "Z  ").length = 3 := by decide
  rw [us, List.length_append, List.length_append, padded_length]
  omega

/-- `tidString()`, written with `"%5d "`. -/
def tidString (c : LogCall) : Bytes := padded 32 5 (intToDecimal c.tid.toInt) ++ ascii " "

theorem tidString_length (c : LogCall) : c.tidString.length ≤ 22 := by
  have low := c.tid.le_toInt
  have high := c.tid.toInt_lt
  have digits : (intToDecimal c.tid.toInt).length ≤ 21 := intToDecimal_short (by omega)
  have blank : (ascii " ").length = 1 := by decide
  rw [tidString, List.length_append, padded_length]
  omega

/-- What the constructor writes. -/
def header (c : LogCall) : List Item :=
  [.template ⟨c.t_time.val, 17, by rw [c.t_time.property]; decide, by decide⟩,
   .template ⟨c.us.text, 9, c.nine_le_us, by decide⟩,
   .template ⟨c.tidString, c.tidString.length, Nat.le_refl _,
     Nat.lt_of_le_of_lt c.tidString_length (by decide)⟩,
   .template ⟨(logLevelString c.level).val, 6, Nat.le_of_eq (logLevelString c.level).property.symm,
     by decide⟩]

end LogCall

/-! ## Logger -/

structure Logger where
  stream : LogStream
  level : LogLevel
  line : Int32
  basename : CString

namespace Logger

def construct (memory : { b : Bytes // b.length = kBufferSize }) (c : LogCall) :
    Result Logger := do
  let stream ← run LogStream.insert (FixedMemory.construct memory) c.header
  pure { stream := stream, level := c.level, line := c.line, basename := GetBaseName c.file }

/-- What `Finish` writes. -/
def place (line : Int32) (basename : CString) : List Item :=
  [.cString (some ⟨ascii " - ", by decide⟩), .cString (some basename),
   .cString (some ⟨ascii ":", by decide⟩), .number (.int line),
   .cString (some ⟨ascii "\n", by decide⟩)]

def Finish (l : Logger) : Result Logger := do
  let stream ← run LogStream.insert l.stream (place l.line l.basename)
  pure { l with stream := stream }

/-- `~Logger`, to what it hands to `g_output`. -/
def destructor (l : Logger) : Result Output := do
  let l ← l.Finish
  pure ⟨l.stream.content, by rw [FixedMemory.content_length]; exact l.stream.inside⟩

/-- A whole statement of a log macro. -/
def record (memory : { b : Bytes // b.length = kBufferSize }) (c : LogCall) (items : List Item) :
    Result Output := do
  let l ← construct memory c
  let stream ← run LogStream.insert l.stream items
  destructor { l with stream := stream }

end Logger

/-! ## When the newline is dropped -/

def EndsLine (text : Bytes) : Prop := text.getLast? = some 10

/-- The length behind `" - "`, which is dropped when three bytes or fewer are left. -/
def behindDash (held : Nat) : Nat := if held + 4 ≤ kBufferSize then held + 3 else held

/-- The newline has no room behind a stream of this length and a file of this name. -/
def LineCut (held name : Nat) : Prop :=
  kBufferSize - 2 ≤ behindDash held ∨ behindDash held + name = kBufferSize - 2 ∨
    behindDash held + name = kBufferSize - 1

/-- The record ends with a newline: its own one, or what it would stand behind is one. -/
def Closes (held name : Bytes) : Prop :=
  ¬ LineCut held.length name.length ∨ (held.length = kBufferSize - 1 ∧ EndsLine held) ∨
    (behindDash held.length + name.length = kBufferSize - 1 ∧ EndsLine name)

theorem endsLine_append {front text : Bytes} (nonempty : text ≠ []) :
    EndsLine (front ++ text) ↔ EndsLine text := by
  rw [EndsLine, EndsLine, List.getLast?_append_of_ne_nil _ nonempty]

theorem not_endsLine_nil : ¬ EndsLine [] := by
  intro ends
  cases ends

section Place

variable {held name digits : Bytes}

theorem length_put_copied {buf : Bytes} {len : Nat} (readable : len ≤ buf.length) :
    (Piece.put kBufferSize held (copied buf len)).length =
      if held.length + (len + 1) ≤ kBufferSize then held.length + len else held.length := by
  have length : (copied buf len).text.length = len := List.length_take_of_le readable
  rw [Piece.length_put, length]
  rfl

/-- A text that does not end a line. -/
theorem endsLine_put (held : Bytes) {piece : Piece UInt8} (nonempty : piece.text ≠ [])
    (within : ¬ EndsLine piece.text) :
    EndsLine (Piece.put kBufferSize held piece) ↔
      kBufferSize < held.length + piece.room ∧ EndsLine held := by
  by_cases room : held.length + piece.room ≤ kBufferSize
  · rw [Piece.put_of_room room, endsLine_append nonempty]
    constructor
    · exact fun ends => absurd ends within
    · exact fun full => absurd full.1 (Nat.not_lt.mpr room)
  · rw [Piece.put_of_full (Nat.not_le.mp room)]
    exact ⟨fun ends => ⟨Nat.not_le.mp room, ends⟩, fun full => full.2⟩

theorem endsLine_newline :
    EndsLine (Piece.put kBufferSize held (copied (ascii "\n") 1)) ↔
      held.length < kBufferSize - 1 ∨ EndsLine held := by
  have size : kBufferSize = 4096 := rfl
  by_cases room : held.length + (copied (ascii "\n") 1).room ≤ kBufferSize
  · rw [Piece.put_of_room room, endsLine_append (by decide)]
    have left : held.length < kBufferSize - 1 := by
      have asked : (copied (ascii "\n") 1).room = 2 := rfl
      omega
    exact ⟨fun _ => Or.inl left, fun _ => rfl⟩
  · rw [Piece.put_of_full (Nat.not_le.mp room)]
    have full : ¬ held.length < kBufferSize - 1 := by
      have asked : (copied (ascii "\n") 1).room = 2 := rfl
      omega
    exact ⟨Or.inr, fun ends => ends.resolve_left full⟩

/-- A line number that is written leaves room for the newline. -/
theorem endsLine_number (short : digits.length ≤ 20) :
    EndsLine (Piece.putAll kBufferSize held [⟨digits, kMaxNumSize⟩, copied (ascii "\n") 1]) ↔
      held.length < kBufferSize - 1 ∨ EndsLine held := by
  have size : kBufferSize = 4096 := rfl
  have number : kMaxNumSize = 48 := rfl
  show EndsLine (Piece.put kBufferSize (Piece.put kBufferSize held ⟨digits, kMaxNumSize⟩) _) ↔ _
  rw [endsLine_newline]
  by_cases room : held.length + kMaxNumSize ≤ kBufferSize
  · have left : held.length < kBufferSize - 1 := by omega
    have stillLeft : (Piece.put kBufferSize held ⟨digits, kMaxNumSize⟩).length <
        kBufferSize - 1 := by
      rw [Piece.put_of_room room, List.length_append]
      show held.length + digits.length < _
      omega
    exact ⟨fun _ => Or.inl left, fun _ => Or.inl stillLeft⟩
  · rw [Piece.put_of_full (Nat.not_le.mp room)]

/-- A colon takes the place of the newline when two bytes are left. -/
theorem endsLine_colon (below : held.length < kBufferSize) (short : digits.length ≤ 20) :
    EndsLine (Piece.putAll kBufferSize held
      [copied (ascii ":") 1, ⟨digits, kMaxNumSize⟩, copied (ascii "\n") 1]) ↔
      held.length < kBufferSize - 2 ∨ (held.length = kBufferSize - 1 ∧ EndsLine held) := by
  have size : kBufferSize = 4096 := rfl
  have within : ¬ EndsLine (copied (ascii ":") 1).text := by
    unfold EndsLine
    decide
  have nonempty : (copied (ascii ":") 1).text ≠ [] := by decide
  have ends := endsLine_put held nonempty within
  have room : (copied (ascii ":") 1).room = 2 := rfl
  have length : (Piece.put kBufferSize held (copied (ascii ":") 1)).length =
      if held.length + 2 ≤ kBufferSize then held.length + 1 else held.length :=
    length_put_copied (by decide)
  have shorter : (Piece.put kBufferSize held (copied (ascii ":") 1)).length < kBufferSize - 1 ↔
      held.length < kBufferSize - 2 := by
    rw [length]
    split_ifs <;> omega
  have full : kBufferSize < held.length + (copied (ascii ":") 1).room ↔
      held.length = kBufferSize - 1 := by omega
  exact (endsLine_number short).trans (or_congr shorter (ends.trans (and_congr_left' full)))

/-- What stands in front of the colon. -/
def named (held name : Bytes) : Bytes :=
  Piece.putAll kBufferSize held [copied (ascii " - ") 3, copied name name.length]

theorem length_dash (held : Bytes) :
    (Piece.put kBufferSize held (copied (ascii " - ") 3)).length = behindDash held.length :=
  length_put_copied (by decide)

theorem length_named (held name : Bytes) : (named held name).length =
    if behindDash held.length + (name.length + 1) ≤ kBufferSize
    then behindDash held.length + name.length else behindDash held.length := by
  rw [← length_dash]
  exact length_put_copied (Nat.le_refl _)

/-- A stream with one byte left behind the dash has had one byte left before it, if it ends
a line. -/
theorem endsLine_dash (below : held.length < kBufferSize)
    (full : behindDash held.length = kBufferSize - 1) :
    EndsLine (Piece.put kBufferSize held (copied (ascii " - ") 3)) ↔
      held.length = kBufferSize - 1 ∧ EndsLine held := by
  have size : kBufferSize = 4096 := rfl
  have nonempty : (copied (ascii " - ") 3).text ≠ [] := by decide
  have within : ¬ EndsLine (copied (ascii " - ") 3).text := by
    unfold EndsLine
    decide
  have dropped : kBufferSize < held.length + (copied (ascii " - ") 3).room ↔
      held.length = kBufferSize - 1 := by
    have room : (copied (ascii " - ") 3).room = 4 := rfl
    unfold behindDash at full
    split_ifs at full <;> omega
  exact (endsLine_put held nonempty within).trans (and_congr_left' dropped)

/-- What ends the line when one byte is left behind the name. -/
theorem endsLine_named (below : held.length < kBufferSize)
    (full : (named held name).length = kBufferSize - 1) :
    EndsLine (named held name) ↔ (held.length = kBufferSize - 1 ∧ EndsLine held) ∨
      (behindDash held.length + name.length = kBufferSize - 1 ∧ EndsLine name) := by
  have size : kBufferSize = 4096 := rfl
  have text : (copied name name.length).text = name := List.take_length
  have dash := length_dash held
  have late : held.length = kBufferSize - 1 → behindDash held.length = kBufferSize - 1 := by
    intro last
    rw [behindDash, if_neg (by omega), last]
  rw [length_named] at full
  show EndsLine (Piece.put kBufferSize (Piece.put kBufferSize held _) _) ↔ _
  by_cases room : behindDash held.length + (name.length + 1) ≤ kBufferSize
  · rw [if_pos room] at full
    rw [Piece.put_of_room (by rw [dash]; exact room), text]
    by_cases nonempty : name = []
    · rw [nonempty, List.length_nil, Nat.add_zero] at full
      rw [nonempty, List.append_nil, endsLine_dash below full]
      exact ⟨Or.inl, fun ends => ends.resolve_right fun last => not_endsLine_nil last.2⟩
    · have longer : 0 < name.length := List.length_pos_iff.mpr nonempty
      rw [endsLine_append nonempty]
      constructor
      · exact fun ends => Or.inr ⟨full, ends⟩
      · rintro (⟨last, -⟩ | ⟨-, ends⟩)
        · have more := late last
          omega
        · exact ends
  · rw [if_neg room] at full
    rw [Piece.put_of_full (by rw [dash]; exact Nat.not_le.mp room), endsLine_dash below full]
    constructor
    · exact Or.inl
    · rintro (last | ⟨sum, ends⟩)
      · exact last
      · have empty : name = [] := List.length_eq_zero_iff.mp (by omega)
        rw [empty] at ends
        exact absurd ends not_endsLine_nil

/-- **The end of a record** behind what the stream held. -/
theorem endsLine_place (below : held.length < kBufferSize) (short : digits.length ≤ 20) :
    EndsLine (Piece.putAll kBufferSize held
      [copied (ascii " - ") 3, copied name name.length, copied (ascii ":") 1,
       ⟨digits, kMaxNumSize⟩, copied (ascii "\n") 1]) ↔ Closes held name := by
  have size : kBufferSize = 4096 := rfl
  have length := length_named held name
  have behind : behindDash held.length < kBufferSize := by
    unfold behindDash
    split_ifs <;> omega
  have belowNamed : (named held name).length < kBufferSize := by
    rw [length]
    split_ifs <;> omega
  have uncut : (named held name).length < kBufferSize - 2 ↔
      ¬ LineCut held.length name.length := by
    rw [length]
    unfold LineCut
    split_ifs <;> omega
  show EndsLine (Piece.putAll kBufferSize (named held name) _) ↔ _
  rw [endsLine_colon belowNamed short, Closes, ← uncut]
  apply or_congr_right
  constructor
  · rintro ⟨full, ends⟩
    exact (endsLine_named below full).mp ends
  · intro ends
    have full : (named held name).length = kBufferSize - 1 := by
      rw [length]
      unfold behindDash at *
      split_ifs at * <;> omega
    exact ⟨full, (endsLine_named below full).mpr ends⟩

end Place

/-! ## Whole records -/

namespace Logger

variable {memory : { b : Bytes // b.length = kBufferSize }} {c : LogCall}

/-- What the stream holds when `~Logger` is called. -/
def held (c : LogCall) (items : List Item) : Bytes :=
  Piece.putAll kBufferSize [] ((c.header ++ items).map Item.piece)

theorem held_short (c : LogCall) (items : List Item) : (held c items).length < kBufferSize :=
  Piece.putAll_length (List.forall_mem_map.mpr fun item _ => item.roomy) (by decide)

theorem construct_spec (memory : { b : Bytes // b.length = kBufferSize }) (c : LogCall) :
    ∃ l, construct memory c = .ok l ∧ l.line = c.line ∧ l.basename = GetBaseName c.file ∧
      l.stream.content = Piece.putAll kBufferSize [] (c.header.map Item.piece) := by
  have countable : ∀ item ∈ c.header, item.Countable := by
    intro item inside
    simp only [LogCall.header, List.mem_cons, List.not_mem_nil, or_false] at inside
    rcases inside with rfl | rfl | rfl | rfl <;> trivial
  obtain ⟨stream, ran, content⟩ := LogStream.run_insert countable (FixedMemory.construct memory)
  refine ⟨⟨stream, c.level, c.line, GetBaseName c.file⟩, ?_, rfl, rfl, content⟩
  rw [construct, ran, ok_bind]
  rfl

theorem GetBaseName_short (c : LogCall) : (GetBaseName c.file).val.length < 2 ^ 31 :=
  Nat.lt_of_le_of_lt (afterLast_suffix 47 c.file.val).length_le c.short

/-- `~Logger` puts its five pieces behind what the stream holds. -/
theorem destructor_spec {l : Logger} (short : l.basename.val.length < 2 ^ 31) :
    ∃ output, l.destructor = .ok output ∧
      output.val = Piece.putAll kBufferSize l.stream.content
        [copied (ascii " - ") 3, copied l.basename.val l.basename.val.length,
         copied (ascii ":") 1, ⟨digitText l.line.toInt, kMaxNumSize⟩, copied (ascii "\n") 1] := by
  have dash : (ascii " - ").length < 2 ^ 31 := by decide
  have colon : (ascii ":").length < 2 ^ 31 := by decide
  have newline : (ascii "\n").length < 2 ^ 31 := by decide
  have countable : ∀ item ∈ place l.line l.basename, item.Countable := by
    intro item inside
    simp only [place, List.mem_cons, List.not_mem_nil, or_false] at inside
    apply Item.countable_of_short
    rcases inside with rfl | rfl | rfl | rfl | rfl
    · exact dash
    · exact short
    · exact colon
    · trivial
    · exact newline
  have pieces : (place l.line l.basename).map Item.piece =
      [copied (ascii " - ") 3, copied l.basename.val l.basename.val.length,
       copied (ascii ":") 1, ⟨digitText l.line.toInt, kMaxNumSize⟩, copied (ascii "\n") 1] := by
    simp only [place, List.map_cons, List.map_nil, Item.piece]
    rw [copied_short dash, copied_short short, copied_short colon, copied_short newline]
    rfl
  obtain ⟨stream, ran, content⟩ := LogStream.run_insert countable l.stream
  refine ⟨⟨stream.content, by rw [FixedMemory.content_length]; exact stream.inside⟩, ?_, ?_⟩
  · rw [destructor, Finish, ran, ok_bind]
    rfl
  · rw [← pieces]
    exact content

/-- Operations on strings whose lengths can be counted, and the end of their record. -/
theorem record_of_countable {items : List Item} (countable : ∀ item ∈ items, item.Countable) :
    ∃ output, record memory c items = .ok output ∧
      (EndsLine output.val ↔ Closes (held c items) (GetBaseName c.file).val) := by
  obtain ⟨l, constructed, line, basename, content⟩ := construct_spec memory c
  obtain ⟨stream, ran, written⟩ := LogStream.run_insert countable l.stream
  have short : ({ l with stream := stream } : Logger).basename.val.length < 2 ^ 31 := by
    show l.basename.val.length < 2 ^ 31
    rw [basename]
    exact GetBaseName_short c
  obtain ⟨output, destroyed, text⟩ := destructor_spec short
  have isHeld : stream.content = held c items := by
    rw [written, content, held, List.map_append, Piece.putAll_append]
  refine ⟨output, ?_, ?_⟩
  · rw [record, constructed, ok_bind, ran, ok_bind, destroyed]
  · rw [text, ← basename]
    show EndsLine (Piece.putAll kBufferSize stream.content _) ↔ _
    rw [isHeld]
    exact endsLine_place (held_short c items)
      (FixedMemory.digitText_length (Number.small (.int l.line)))

/-- **Terminated lines**: a record ends with a newline exactly when no string has a length
that is negative as an `int` and the newline of `~Logger` is not cut off, or what would
stand in front of it is one. -/
theorem record_endsLine_iff (memory : { b : Bytes // b.length = kBufferSize }) (c : LogCall)
    (items : List Item) :
    (∃ output, record memory c items = .ok output ∧ EndsLine output.val) ↔
      (∀ item ∈ items, item.Countable) ∧ Closes (held c items) (GetBaseName c.file).val := by
  constructor
  · rintro ⟨output, recorded, ends⟩
    have countable : ∀ item ∈ items, item.Countable := by
      obtain ⟨l, -, recorded'⟩ := bind_eq_ok recorded
      obtain ⟨stream, ran, -⟩ := bind_eq_ok recorded'
      exact LogStream.run_insert_eq_ok ran
    obtain ⟨output', recorded', iff⟩ := record_of_countable countable
    rw [recorded] at recorded'
    cases recorded'
    exact ⟨countable, iff.mp ends⟩
  · rintro ⟨countable, closes⟩
    obtain ⟨output, recorded, iff⟩ := record_of_countable countable
    exact ⟨output, recorded, iff.mpr closes⟩

/-- A string that fits behind the header is held as a whole. -/
theorem held_string {v : Bytes} (fits : (held c []).length + v.length < kBufferSize) :
    held c [.string v] = held c [] ++ v := by
  have size : kBufferSize = 4096 := rfl
  have short : v.length < 2 ^ 31 := by omega
  have room : (held c []).length + (copied v v.length).room ≤ kBufferSize := by
    show (held c []).length + (v.length + 1) ≤ kBufferSize
    omega
  have text : (copied v v.length).text = v := List.take_length
  have last : held c [.string v] =
      Piece.put kBufferSize (held c []) (copied v (toInt v.length).toNat) := by
    rw [held, held, List.append_nil, List.map_append, Piece.putAll_append, List.map_singleton,
      Piece.putAll_cons, Piece.putAll_nil, Item.piece]
  rw [last, copied_short short, Piece.put_of_room room, text]

/-- A string that leaves one byte, and does not end a line. -/
theorem record_cut {v : Bytes} (full : (held c []).length + v.length = kBufferSize - 1)
    (nonempty : v ≠ []) (within : ¬ EndsLine v) (named : (GetBaseName c.file).val ≠ []) :
    ∃ output, record memory c [.string v] = .ok output ∧ ¬ EndsLine output.val := by
  have size : kBufferSize = 4096 := rfl
  have short : v.length < 2 ^ 31 := by omega
  have countable : ∀ item ∈ [Item.string v], item.Countable :=
    List.forall_mem_singleton.mpr (Item.countable_of_short short)
  obtain ⟨output, recorded, iff⟩ := record_of_countable countable
  refine ⟨output, recorded, fun ends => ?_⟩
  have closes := iff.mp ends
  rw [held_string (by omega)] at closes
  have length : (held c [] ++ v).length = kBufferSize - 1 := by rw [List.length_append, full]
  have behind : behindDash (kBufferSize - 1) = kBufferSize - 1 := by decide
  rw [Closes, length, behind, endsLine_append nonempty] at closes
  rcases closes with uncut | ⟨-, ends⟩ | ⟨sum, -⟩
  · apply uncut
    rw [LineCut, behind]
    exact Or.inl (by omega)
  · exact within ends
  · exact named (List.length_eq_zero_iff.mp (by omega))

/-- A call of `LOG_INFO` in `main.cpp`. -/
def exampleCall : LogCall where
  file := ⟨ascii "/src/main.cpp", by decide⟩
  short := by decide
  line := 12
  level := .INFO
  t_time := ⟨List.replicate 64 50, List.length_replicate⟩
  microSeconds := 5
  tid := 1234

/-- A string of 4057 bytes behind a header of 38 leaves one byte. -/
theorem record_without_newline :
    ∃ output, record ⟨List.replicate kBufferSize 0, List.length_replicate⟩ exampleCall
        [.string (List.replicate 4057 97)] = .ok output ∧ ¬ EndsLine output.val := by
  have header : (held exampleCall []).length = 38 := by decide
  have full : (held exampleCall []).length + (List.replicate 4057 (97 : UInt8)).length =
      kBufferSize - 1 := by
    rw [header, List.length_replicate]
    rfl
  have nonempty : List.replicate 4057 (97 : UInt8) ≠ [] := List.cons_ne_nil _ _
  have within : ¬ EndsLine (List.replicate 4057 97) := by
    rw [EndsLine, List.getLast?_replicate]
    decide
  exact record_cut full nonempty within (by decide)

end Logger

end CppFileServer.Utils
