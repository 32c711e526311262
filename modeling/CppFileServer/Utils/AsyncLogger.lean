/-
# Utils.AsyncLogger -- the asynchronous log

`Append` collects lines in `buffer_` and, when a line does not fit, moves it to
`buffers_` and goes on with `nextBuffer_` or a new one.  `ThreadFunc` takes the
buffers under the mutex and writes them outside of it, gives two of them back as
spares, and drains what is left when `Stop` has ended its loop.

Producers come in through `append`, one at a time as the mutex lets them, so a run
is a list of actions in the order of the lock.  A buffer holds lines, whose texts
stand one after another in `data_`; the type of a text is a parameter with its
size.  The number of a line, `appended` and `discarded` are records that the source
does not keep.
-/
import CppFileServer.Cpp.Basic
import CppFileServer.Theory.Machine

namespace CppFileServer.Utils

set_option autoImplicit false

open CppFileServer.Cpp CppFileServer.Theory

/-- A line, with the number of calls of `Append` that took the mutex before its own. -/
structure Line (α : Type) where
  ticket : Nat
  text : α
  deriving DecidableEq

/-! ## FixedBuffer -/

structure FixedBuffer (SIZE : Nat) {α : Type} (size : α → Nat) where
  lines : List (Line α)
  /-- `cur_` stays inside `data_`. -/
  bounded : (lines.map fun line => size line.text).sum ≤ SIZE

namespace FixedBuffer

variable {SIZE : Nat} {α : Type} {size : α → Nat}

def construct : FixedBuffer SIZE size := ⟨[], Nat.zero_le _⟩

def len (b : FixedBuffer SIZE size) : Nat := (b.lines.map fun line => size line.text).sum

def avail (b : FixedBuffer SIZE size) : Nat := SIZE - b.len

def append (b : FixedBuffer SIZE size) (line : Line α) : FixedBuffer SIZE size :=
  if fits : size line.text < b.avail then
    ⟨b.lines ++ [line], by
      have bounded := b.bounded
      unfold avail len at fits
      rw [List.map_append, List.sum_append, List.map_singleton, List.sum_singleton]
      omega⟩
  else b

def reset (_ : FixedBuffer SIZE size) : FixedBuffer SIZE size := construct

end FixedBuffer

def kLargeBufferSize : Nat := 4096 * 1000

/-! ## LogFile -/

structure LogFile (α : Type) where
  written : List (Line α) := []
  writtenBytes : Nat := 0

def LogFile.write {SIZE : Nat} {α : Type} {size : α → Nat} (file : LogFile α)
    (b : FixedBuffer SIZE size) : LogFile α where
  written := file.written ++ b.lines
  writtenBytes := file.writtenBytes + b.len

def loggerFileMaxSize : Nat := 1024 * 1024 * 1024

/-! ## AsyncLogger -/

namespace AsyncLogger

abbrev Buffer {α : Type} (size : α → Nat) := FixedBuffer kLargeBufferSize size

/-- Where `ThreadFunc` is. -/
inductive Phase
  /-- Not started. -/
  | constructed
  /-- At the test of `running_`. -/
  | testing
  /-- About to take the buffers; `wait_for` is part of this, and may end at any time. -/
  | taking
  /-- In the loop that writes `active_buffers`, so many of them written. -/
  | writing (count : Nat)
  | returned
  deriving DecidableEq

end AsyncLogger

open AsyncLogger in
/-- The logger, with the variables of `ThreadFunc`.  A moved-from pointer is `none`. -/
structure AsyncLogger {α : Type} (size : α → Nat) where
  phase : Phase := .constructed
  running : Bool := false
  logFile : LogFile α := {}
  /-- The files before the last. -/
  rolled : List (List (Line α)) := []
  buffer : Option (Buffer size) := some .construct
  nextBuffer : Option (Buffer size) := some .construct
  buffers : List (Option (Buffer size)) := []
  activeBuffers : List (Option (Buffer size)) := []
  newCurrent : Option (Buffer size) := none
  newNext : Option (Buffer size) := none
  /-- The lines of all calls of `Append`. -/
  appended : List (Line α) := []
  /-- The lines of buffers that were reset or destroyed. -/
  discarded : List (Line α) := []

namespace AsyncLogger

variable {α : Type} {size : α → Nat}

/-- The lines a pointer leads to. -/
def linesAt : Option (Buffer size) → List (Line α)
  | some b => b.lines
  | none => []

def linesIn (bs : List (Option (Buffer size))) : List (Line α) := bs.flatMap linesAt

/-- The files one after another. -/
def file (s : AsyncLogger size) : List (Line α) := s.rolled.flatten ++ s.logFile.written

def append (s : AsyncLogger size) (text : α) : Result (AsyncLogger size) :=
  let line : Line α := ⟨s.appended.length, text⟩
  match s.buffer with
  | none => .error .undefined
  | some b =>
      if size text < b.avail then .ok { s with
        appended := s.appended ++ [line]
        buffer := some (b.append line) }
      else .ok { s with
        appended := s.appended ++ [line]
        buffers := s.buffers ++ [some b]
        buffer := some ((s.nextBuffer.getD .construct).append line)
        nextBuffer := none }

/-! ## ThreadFunc -/

/-- `if (!pointer && spare) { pointer = std::move(spare); pointer->reset(); }`, with what it
discards. -/
def refill : Option (Buffer size) → Option (Buffer size) →
    Option (Buffer size) × Option (Buffer size) × List (Line α)
  | none, some b => (some b.reset, none, b.lines)
  | pointer, spare => (pointer, spare, [])

/-- The block under the mutex. -/
def take (s : AsyncLogger size) : AsyncLogger size :=
  let (buffer, newCurrent, old) := refill none s.newCurrent
  let (nextBuffer, newNext, old') := refill s.nextBuffer s.newNext
  { s with
    phase := .writing 0
    buffers := s.activeBuffers
    activeBuffers := s.buffers ++ [s.buffer]
    buffer := buffer
    nextBuffer := nextBuffer
    newCurrent := newCurrent
    newNext := newNext
    discarded := s.discarded ++ old ++ old' }

def write (s : AsyncLogger size) : Option (Buffer size) → Result (AsyncLogger size)
  | none => .error .undefined
  | some b => .ok { s with logFile := s.logFile.write b }

/-- The change to a new file, after `RollFile`. -/
def roll (s : AsyncLogger size) : AsyncLogger size :=
  if loggerFileMaxSize < s.logFile.writtenBytes then
    { s with rolled := s.rolled ++ [s.logFile.written], logFile := {} }
  else s

/-- A spare from the back of `active_buffers`, or a new one; with the rest of
`active_buffers` and what the reset discards. -/
def spare (active : List (Option (Buffer size))) :
    Result (Buffer size × List (Option (Buffer size)) × List (Line α)) :=
  match active.getLast? with
  | none => .ok (.construct, [], [])
  | some none => .error .undefined
  | some (some b) => .ok (b.reset, active.dropLast, b.lines)

def recycle (s : AsyncLogger size) : Result (AsyncLogger size) := do
  let (newCurrent, active, old) ← spare s.activeBuffers
  let (newNext, active, old') ← spare active
  pure { s.roll with
    phase := .testing
    activeBuffers := active
    newCurrent := some newCurrent
    newNext := some newNext
    discarded := s.discarded ++ linesAt s.newCurrent ++ old ++ linesAt s.newNext ++ old' }

/-- The loop after `while (running_)`, over `buffers_`. -/
def writeBuffers (s : AsyncLogger size) : List (Option (Buffer size)) → Result (AsyncLogger size)
  | [] => .ok s
  | b :: bs => do
      let s ← s.write b
      writeBuffers s bs

/-- The write of `buffer_`, if it is set. -/
def writeLast (s : AsyncLogger size) : Option (Buffer size) → AsyncLogger size
  | none => s
  | some b => { s with logFile := s.logFile.write b }

/-- The end of `ThreadFunc`, to its return; no `Append` runs meanwhile. -/
def drain (s : AsyncLogger size) : Result (AsyncLogger size) := do
  let t ← s.writeBuffers s.buffers
  pure { t.writeLast s.buffer with
    phase := .returned
    buffers := s.buffers.map fun b => b.map FixedBuffer.reset
    buffer := s.buffer.map FixedBuffer.reset
    activeBuffers := []
    newCurrent := none
    newNext := none
    discarded := s.discarded ++ linesIn s.buffers ++ linesAt s.buffer ++
      linesIn s.activeBuffers ++ linesAt s.newCurrent ++ linesAt s.newNext }

end AsyncLogger

inductive LogAction (α : Type)
  | start
  | append (text : α)
  | stop
  | proceed

namespace AsyncLogger

variable {α : Type} {size : α → Nat}

/-- `Start`, with the spares that `ThreadFunc` begins with. -/
def start (s : AsyncLogger size) : AsyncLogger size :=
  { s with
    phase := .testing
    running := true
    newCurrent := some .construct
    newNext := some .construct }

/-- The next step of `ThreadFunc`. -/
def proceed (s : AsyncLogger size) : Option (Result (AsyncLogger size)) :=
  match s.phase with
  | .constructed => none
  | .testing => some (if s.running then .ok { s with phase := .taking } else s.drain)
  | .taking => some (.ok s.take)
  | .writing count => some (
      match s.activeBuffers[count]? with
      | none => s.recycle
      | some b => do
          let s ← s.write b
          pure { s with phase := .writing (count + 1) })
  | .returned => none

def step (s : AsyncLogger size) : LogAction α → Option (Result (AsyncLogger size))
  | .start => if s.phase = .constructed then some (.ok s.start) else none
  | .append text => if s.phase = .returned then none else some (s.append text)
  | .stop => if s.running then some (.ok { s with running := false }) else none
  | .proceed => s.proceed

end AsyncLogger

end CppFileServer.Utils
