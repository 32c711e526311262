/-
# Utils.LogFlush -- what Flush makes durable

`AsyncLogger::Flush` calls `fflush` on the file.  What has been written to the file by
then has left the process and survives its end; the lines in `buffer_`, in `buffers_`
and in the part of `active_buffers` that is not yet written stay behind, although the
comment at `defaultFlush` asks for an output at once.

`LoggingProcess` is the logger with the threads that are in `~Logger` or in `Flush`.
An output of `~Logger` is what a `LogStream` holds, which is shorter than a buffer of
the logger.  How often the buffers were taken, the place of the last line, the lines
before a call, and the line a process aborted for are records that the source does not
keep.
-/
import CppFileServer.Utils.LogOrder
import CppFileServer.Utils.LogStream
import CppFileServer.Utils.LogWrites

namespace CppFileServer.Utils

set_option autoImplicit false

open CppFileServer.Cpp CppFileServer.Theory

/-- What a `LogStream` hands to `g_output`. -/
abbrev Output := { text : Bytes // text.length ≤ kBufferSize }

def Output.size (output : Output) : Nat := output.val.length

inductive LogLevel
  | DEBUG
  | INFO
  | WARN
  | ERROR
  | FATAL
  deriving DecidableEq

/-- A call of `Flush`, with the lines that had been appended when it was made. -/
structure FlushCall where
  earlier : List (Line Output)
  /-- The place of the last of them. -/
  place : Option AsyncLogger.Place
  /-- The message that `~Logger` aborts for, when it made the call. -/
  fatal : Option (Line Output)
  deriving DecidableEq

structure LoggingProcess where
  logger : AsyncLogger Output.size := {}
  /-- How often `ThreadFunc` has taken the buffers. -/
  takes : Nat := 0
  /-- The place of the last line. -/
  last : Option AsyncLogger.Place := none
  /-- So many lines of the file that is open have left the process. -/
  flushed : Nat := 0
  /-- The messages in whose `~Logger` `g_flush` is to be called. -/
  outputs : List (Line Output) := []
  /-- The calls of `Flush` that have not returned. -/
  calls : List FlushCall := []
  /-- The message the process has aborted for. -/
  aborted : Option (Line Output) := none

inductive LoggingAction
  | log (action : LogAction Output)
  /-- `~Logger`, to the return of `g_output`. -/
  | destructor (level : LogLevel) (text : Output)
  /-- The call of `g_flush` in `~Logger`. -/
  | gFlush (line : Line Output)
  /-- A call of `Flush` from elsewhere. -/
  | flush
  /-- `fflush` in this call, and what follows to its return or to `abort`. -/
  | fflush (call : FlushCall)
  /-- Lines that leave the process without `Flush`, as when the buffer of the stream is full. -/
  | sync (count : Nat)

namespace LoggingProcess

/-- How many lines of the open file have left the process after a step of the logger: none of
a new file, and all when `ThreadFunc` has returned. -/
def flushedAfter (before after : AsyncLogger Output.size) (flushed : Nat) : Nat :=
  if after.rolled.length ≠ before.rolled.length then 0
  else if after.phase = .returned then after.logFile.written.length
  else flushed

def placeAfter (after : AsyncLogger Output.size) (action : LogAction Output) (takes : Nat)
    (last : Option AsyncLogger.Place) : Option AsyncLogger.Place :=
  match action with
  | .append _ => some ⟨takes, after.buffers.length⟩
  | _ => last

def log (s : LoggingProcess) (action : LogAction Output) : Option (Result LoggingProcess) :=
  (s.logger.step action).map fun result => do
    let logger ← result
    pure { s with
      logger := logger
      takes := s.logger.takesAfter action s.takes
      last := placeAfter logger action s.takes s.last
      flushed := flushedAfter s.logger logger s.flushed }

def act (s : LoggingProcess) : LoggingAction → Option (Result LoggingProcess)
  | .log action => s.log action
  | .destructor level text => (s.log (.append text)).map fun result => do
      let t ← result
      pure { t with
        outputs :=
          if level = .FATAL then t.outputs ++ [⟨s.logger.appended.length, text⟩] else t.outputs }
  | .gFlush line =>
      if line ∈ s.outputs then some (.ok { s with
        outputs := s.outputs.erase line
        calls := s.calls ++ [⟨s.logger.appended, s.last, some line⟩] })
      else none
  | .flush => some (.ok { s with calls := s.calls ++ [⟨s.logger.appended, s.last, none⟩] })
  | .fflush call =>
      if call ∈ s.calls then some (.ok { s with
        flushed := s.logger.logFile.written.length
        calls := s.calls.erase call
        aborted := call.fatal })
      else none
  | .sync count =>
      if s.flushed ≤ count ∧ count ≤ s.logger.logFile.written.length then
        some (.ok { s with flushed := count })
      else none

/-- A process that has aborted takes no step. -/
def step (s : LoggingProcess) (action : LoggingAction) : Option (Result LoggingProcess) :=
  if s.aborted = none then s.act action else none

/-! ## What a step does -/

open AsyncLogger (Caught Numbered Tracked)

variable {s t : LoggingProcess} {action : LoggingAction}

/-- Some lines, and the place of the last of them. -/
def TrackedUpTo (s : LoggingProcess) (place : Option AsyncLogger.Place)
    (lines : List (Line Output)) : Prop :=
  match place with
  | none => lines = []
  | some place => Tracked s.takes s.logger place lines

/-- What holds in every run. -/
structure Kept (s : LoggingProcess) : Prop where
  numbered : Numbered s.logger
  outputs : s.outputs ⊆ s.logger.appended
  /-- A call knows the lines that had been appended, among them its own. -/
  earlier : ∀ call ∈ s.calls, call.earlier <+: s.logger.appended
  fatal : ∀ call ∈ s.calls, ∀ line, call.fatal = some line → line ∈ call.earlier
  last : s.TrackedUpTo s.last s.logger.appended
  calls : ∀ call ∈ s.calls, s.TrackedUpTo call.place call.earlier

theorem initial_kept : Kept {} where
  numbered := AsyncLogger.initial_numbered
  outputs := List.nil_subset _
  earlier := by rintro call ⟨⟩
  fatal := by rintro call ⟨⟩
  last := rfl
  calls := by rintro call ⟨⟩

theorem Output.short (output : Output) : output.size < kLargeBufferSize :=
  Nat.lt_of_le_of_lt output.property (by decide)

/-- A step of the logger moves the lines of a place on. -/
theorem TrackedUpTo.step (kept : Numbered s.logger) {a : LogAction Output}
    (logged : s.logger.step a = some (.ok t.logger))
    (takes : t.takes = s.logger.takesAfter a s.takes) {place : Option AsyncLogger.Place}
    {lines : List (Line Output)} (tracked : s.TrackedUpTo place lines) :
    t.TrackedUpTo place lines := by
  cases place with
  | none => exact tracked
  | some place =>
      show Tracked t.takes t.logger place lines
      rw [takes]
      exact Tracked.step tracked kept.sound logged

end LoggingProcess

end CppFileServer.Utils
