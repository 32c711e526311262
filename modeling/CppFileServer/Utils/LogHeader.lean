/-
# Utils.LogHeader -- what a Logger keeps for its thread

The time of a record is formatted once in a second, and the number of its thread once: both
are kept in variables that each thread has for itself and that start as zeros, so that the
text for second 0 is there before it was formatted.  `header_fresh` says when a record is the
one that a `Logger` without these variables makes.

`localtime_r` and `gettid` are parameters.
-/
import CppFileServer.Theory.Memo
import CppFileServer.Utils.LogRecord

namespace CppFileServer.Utils

set_option autoImplicit false

open CppFileServer.Cpp CppFileServer.Theory

/-- What `FormatTime` reads of a `struct tm`. -/
structure Tm where
  tm_year : Int
  tm_mon : Int
  tm_mday : Int
  tm_hour : Int
  tm_min : Int
  tm_sec : Int

/-- `"%4d%02d%02d %02d:%02d:%02d."` -/
def Tm.text (tm : Tm) : Bytes :=
  padded 32 4 (intToDecimal (tm.tm_year + 1900)) ++ padded 48 2 (intToDecimal (tm.tm_mon + 1)) ++
    padded 48 2 (intToDecimal tm.tm_mday) ++ ascii " " ++ padded 48 2 (intToDecimal tm.tm_hour) ++
    ascii ":" ++ padded 48 2 (intToDecimal tm.tm_min) ++ ascii ":" ++
    padded 48 2 (intToDecimal tm.tm_sec) ++ ascii "."

/-- `snprintf` into an array of this size. -/
def snprintf {size : Nat} (nonempty : 0 < size) (array : { b : Bytes // b.length = size })
    (text : Bytes) : { b : Bytes // b.length = size } :=
  ⟨text.take (size - 1) ++ 0 :: array.val.drop ((text.take (size - 1)).length + 1), by
    have length := array.property
    have cut : (text.take (size - 1)).length ≤ size - 1 := List.length_take_le _ _
    rw [List.length_append, List.length_cons, List.length_drop, length]
    omega⟩

/-- The variables that are `__thread`. -/
structure ThreadLocals where
  t_time : { b : Bytes // b.length = 64 } := ⟨List.replicate 64 0, List.length_replicate⟩
  t_lastsecond : Nat := 0
  t_cachedTid : Int32 := 0
  t_formattedTid : { b : Bytes // b.length = 32 } := ⟨List.replicate 32 0, List.length_replicate⟩
  t_formattedTidLength : Nat := 0
  inside : t_formattedTidLength ≤ 32 := by decide

/-- `"%5d "` -/
def tidText (tid : Int32) : Bytes := padded 32 5 (intToDecimal tid.toInt) ++ ascii " "

theorem tidText_length (tid : Int32) : (tidText tid).length ≤ 22 := by
  have low := tid.le_toInt
  have high := tid.toInt_lt
  have digits : (intToDecimal tid.toInt).length ≤ 21 := intToDecimal_short (by omega)
  have blank : (ascii " ").length = 1 := by decide
  rw [tidText, List.length_append, padded_length]
  omega

theorem LogCall.level_inside (c : LogCall) : 6 ≤ (logLevelString c.level).val.length :=
  Nat.le_of_eq (logLevelString c.level).property.symm

theorem six_fits : 6 < 2 ^ 31 := by decide

theorem nine_fits : 9 < 2 ^ 31 := by decide

theorem seventeen_fits : 17 < 2 ^ 31 := by decide

namespace ThreadLocals

theorem time_inside (locals : ThreadLocals) : 17 ≤ locals.t_time.val.length := by
  rw [locals.t_time.property]
  decide

theorem tid_inside (locals : ThreadLocals) :
    locals.t_formattedTidLength ≤ locals.t_formattedTid.val.length :=
  locals.inside.trans (Nat.le_of_eq locals.t_formattedTid.property.symm)

theorem tid_fits (locals : ThreadLocals) : locals.t_formattedTidLength < 2 ^ 31 :=
  Nat.lt_of_le_of_lt locals.inside (by decide)

def FormatTime (locals : ThreadLocals) (localtime : Nat → Tm) (microSeconds : Nat) : ThreadLocals :=
  let seconds := microSeconds / 1000000
  if locals.t_lastsecond ≠ seconds then
    { locals with
      t_time := snprintf (by decide) locals.t_time (localtime seconds).text
      t_lastsecond := seconds }
  else locals

/-- `CurrentThread::tid`. -/
def tid (locals : ThreadLocals) (gettid : Int32) : ThreadLocals :=
  if locals.t_cachedTid = 0 then
    { locals with
      t_cachedTid := gettid
      t_formattedTid := snprintf (by decide) locals.t_formattedTid (tidText gettid)
      t_formattedTidLength := (tidText gettid).length
      inside := (tidText_length gettid).trans (by decide) }
  else locals

/-- What the constructor of `Logger` writes. -/
def header (locals : ThreadLocals) (c : LogCall) : List Item :=
  [.template ⟨locals.t_time.val, 17, locals.time_inside, seventeen_fits⟩,
   .template ⟨c.us.text, 9, c.nine_le_us, nine_fits⟩,
   .template ⟨locals.t_formattedTid.val, locals.t_formattedTidLength, locals.tid_inside,
     locals.tid_fits⟩,
   .template ⟨(logLevelString c.level).val, 6, c.level_inside, six_fits⟩]

/-- A statement of a log macro, with the variables as its constructor has left them. -/
def record (locals : ThreadLocals) (memory : { b : Bytes // b.length = kBufferSize }) (c : LogCall)
    (items : List Item) : Result Output := do
  let stream ← run LogStream.insert (FixedMemory.construct memory) (locals.header c)
  let stream ← run LogStream.insert stream items
  Logger.destructor
    { stream := stream, level := c.level, line := c.line, basename := GetBaseName c.file }

end ThreadLocals

/-! ## One thread -/

/-- What is written stands at the front. -/
theorem snprintf_take {size : Nat} (nonempty : 0 < size) (array : { b : Bytes // b.length = size })
    {text : Bytes} {n : Nat} (enough : n ≤ text.length) (fits : n < size) :
    (snprintf nonempty array text).val.take n = text.take n := by
  have inside : n ≤ (text.take (size - 1)).length := by
    rw [List.length_take]
    omega
  rw [snprintf, List.take_append_of_le_length inside, List.take_take, Nat.min_eq_left (by omega)]

theorem Tm.text_length (tm : Tm) : 17 ≤ tm.text.length := by
  have blank : (ascii " ").length = 1 := by decide
  have colon : (ascii ":").length = 1 := by decide
  simp only [Tm.text, List.length_append, padded_length, blank, colon]
  omega

theorem intToDecimal_noZero (n : Int) : (0 : UInt8) ∉ intToDecimal n := by
  have digits (m : Nat) : (0 : UInt8) ∉ toDecimal m := by
    intro inside
    exact absurd (toDecimal_isDigit inside) (by decide)
  unfold intToDecimal
  split_ifs
  · simp [digits]
  · exact digits _

/-- No text of a time begins with a zero byte. -/
theorem Tm.text_take (tm : Tm) : tm.text.take 17 ≠ List.replicate 17 0 := by
  have year : (0 : UInt8) ∉ padded 32 4 (intToDecimal (tm.tm_year + 1900)) := by
    intro inside
    rw [padded, List.mem_append, List.mem_replicate] at inside
    rcases inside with ⟨-, zero⟩ | inside
    · exact absurd zero (by decide)
    · exact intToDecimal_noZero _ inside
  have length : 4 ≤ (padded 32 4 (intToDecimal (tm.tm_year + 1900))).length := by
    rw [padded_length]
    omega
  intro zeros
  have first : tm.text.take 1 = [0] := by
    have shorter : (tm.text.take 17).take 1 = tm.text.take 1 := by rw [List.take_take]; rfl
    rw [← shorter, zeros]
    rfl
  apply year
  have begins : (padded 32 4 (intToDecimal (tm.tm_year + 1900))).take 1 = [0] := by
    rw [← first]
    simp only [Tm.text, List.append_assoc]
    rw [List.take_append_of_le_length (by omega)]
  exact (List.take_subset _ _) (begins ▸ List.mem_singleton_self 0)

namespace ThreadLocals

variable {localtime : Nat → Tm} {locals : ThreadLocals}

/-- The cache for the time. -/
def time (locals : ThreadLocals) : Memo Nat { b : Bytes // b.length = 64 } :=
  ⟨locals.t_lastsecond, locals.t_time⟩

/-- What it starts with. -/
def unformatted : Memo Nat { b : Bytes // b.length = 64 } :=
  ⟨0, ⟨List.replicate 64 0, List.length_replicate⟩⟩

def formatted (localtime : Nat → Tm) (array : { b : Bytes // b.length = 64 }) (second : Nat) :
    { b : Bytes // b.length = 64 } := snprintf (by decide) array (localtime second).text

theorem FormatTime_time (locals : ThreadLocals) (localtime : Nat → Tm) (microSeconds : Nat) :
    (locals.FormatTime localtime microSeconds).time =
      locals.time.look (formatted localtime) (microSeconds / 1000000) := by
  by_cases other : locals.t_lastsecond ≠ microSeconds / 1000000
  · have stale : locals.time.key ≠ microSeconds / 1000000 := other
    rw [FormatTime, Memo.look, if_pos other, if_pos stale]
    rfl
  · have known : ¬ locals.time.key ≠ microSeconds / 1000000 := other
    rw [FormatTime, Memo.look, if_neg other, if_neg known]

theorem tid_time (locals : ThreadLocals) (gettid : Int32) :
    (locals.tid gettid).time = locals.time := by
  unfold tid
  split_ifs <;> rfl

/-- The cache for the thread number is empty, or tells the truth. -/
def KnowsTid (locals : ThreadLocals) (gettid : Int32) : Prop :=
  locals.t_formattedTid.val.take locals.t_formattedTidLength = tidText gettid ∧
    locals.t_formattedTidLength = (tidText gettid).length

theorem tid_knows {gettid : Int32} (before : locals.t_cachedTid ≠ 0 → locals.KnowsTid gettid) :
    (locals.tid gettid).KnowsTid gettid := by
  unfold tid
  split_ifs with empty
  · have short := tidText_length gettid
    refine ⟨?_, rfl⟩
    rw [snprintf_take _ _ (Nat.le_refl _) (by omega), List.take_length]
  · exact before empty

theorem FormatTime_knows {gettid : Int32} (knows : locals.KnowsTid gettid) (microSeconds : Nat) :
    (locals.FormatTime localtime microSeconds).KnowsTid gettid := by
  unfold KnowsTid at knows ⊢
  unfold FormatTime
  simp only
  split_ifs
  · exact knows
  · exact knows

theorem FormatTime_cachedTid (locals : ThreadLocals) (localtime : Nat → Tm) (microSeconds : Nat) :
    (locals.FormatTime localtime microSeconds).t_cachedTid = locals.t_cachedTid := by
  unfold FormatTime
  simp only
  split_ifs <;> rfl

/-- A statement leaves the thread number known. -/
theorem FormatTime_tid_knows {gettid : Int32}
    (before : locals.t_cachedTid ≠ 0 → locals.KnowsTid gettid) (microSeconds : Nat) :
    ((locals.FormatTime localtime microSeconds).tid gettid).KnowsTid gettid := by
  apply tid_knows
  rw [FormatTime_cachedTid]
  intro set
  exact FormatTime_knows (before set) microSeconds

end ThreadLocals

/-! ## All threads -/

/-- A statement of a log macro, with the thread that executes it and the time then. -/
structure LogStatement (T : Type) where
  thread : T
  microSeconds : Nat
  file : CString
  short : file.val.length < 2 ^ 31
  line : Int32
  level : LogLevel
  memory : { b : Bytes // b.length = kBufferSize }
  items : List Item

section Threads

variable {T : Type} [DecidableEq T] (localtime : Nat → Tm) (gettid : T → Int32)

namespace LogStatement

def second (a : LogStatement T) : Nat := a.microSeconds / 1000000

/-- The call, on variables that have just been formatted. -/
def call (a : LogStatement T) : LogCall where
  file := a.file
  short := a.short
  line := a.line
  level := a.level
  t_time := snprintf (by decide) ⟨List.replicate 64 0, List.length_replicate⟩
    (localtime a.second).text
  microSeconds := a.microSeconds
  tid := gettid a.thread

end LogStatement

/-- The constructor of `Logger`, as far as it goes for the variables of all threads. -/
def enter (s : T → ThreadLocals) (a : LogStatement T) : T → ThreadLocals :=
  Function.update s a.thread
    (((s a.thread).FormatTime localtime a.microSeconds).tid (gettid a.thread))

/-- The variables after these statements, of all threads in any order. -/
def entered (before : List (LogStatement T)) : T → ThreadLocals :=
  before.foldl (enter localtime gettid) fun _ => {}

theorem entered_concat (before : List (LogStatement T)) (a : LogStatement T) :
    entered localtime gettid (before ++ [a]) =
      enter localtime gettid (entered localtime gettid before) a :=
  List.foldl_append

/-- The variables of a thread are what its own statements have made of them. -/
theorem entered_time (before : List (LogStatement T)) (t : T) :
    (entered localtime gettid before t).time =
      ThreadLocals.unformatted.after (ThreadLocals.formatted localtime)
        ((before.filter fun a => a.thread = t).map LogStatement.second) := by
  induction before using List.reverseRecOn with
  | nil => rfl
  | append_singleton before a ih =>
      rw [entered_concat, enter, List.filter_append, List.map_append]
      by_cases own : a.thread = t
      · subst own
        rw [Function.update_self, ThreadLocals.tid_time, ThreadLocals.FormatTime_time, ih]
        simp [Memo.after, LogStatement.second]
      · rw [Function.update_of_ne (Ne.symm own), ih]
        simp [own]

theorem entered_knows (before : List (LogStatement T)) (t : T) :
    (entered localtime gettid before t).t_cachedTid ≠ 0 →
      (entered localtime gettid before t).KnowsTid (gettid t) := by
  induction before using List.reverseRecOn with
  | nil => exact fun set => absurd rfl set
  | append_singleton before a ih =>
      rw [entered_concat, enter]
      by_cases own : a.thread = t
      · subst own
        rw [Function.update_self]
        intro _
        exact ThreadLocals.FormatTime_tid_knows ih a.microSeconds
      · rw [Function.update_of_ne (Ne.symm own)]
        exact ih

/-- The constructor itself reads a number that is known. -/
theorem entered_concat_knows (before : List (LogStatement T)) (a : LogStatement T) :
    (entered localtime gettid (before ++ [a]) a.thread).KnowsTid (gettid a.thread) := by
  rw [entered_concat, enter, Function.update_self]
  exact ThreadLocals.FormatTime_tid_knows (entered_knows localtime gettid before a.thread)
    a.microSeconds

/-- Some second that was not 0 has been formatted by the thread, for this statement or before. -/
def Formats (before : List (LogStatement T)) (a : LogStatement T) : Prop :=
  a.second ≠ 0 ∨ ∃ b ∈ before, b.thread = a.thread ∧ b.second ≠ 0

/-- The first 17 bytes of an array. -/
def shown (array : { b : Bytes // b.length = 64 }) : Bytes := array.val.take 17

theorem shown_formatted (array : { b : Bytes // b.length = 64 }) (second : Nat) :
    shown (ThreadLocals.formatted localtime array second) = (localtime second).text.take 17 := by
  rw [shown, ThreadLocals.formatted]
  exact snprintf_take _ array (localtime second).text_length (by decide)

theorem unformatted_stale : ¬ ThreadLocals.unformatted.Good shown
    fun second => (localtime second).text.take 17 := by
  intro same
  exact (localtime 0).text_take (Eq.symm same)

/-- The time that a statement writes is that of its own second, if any second has been formatted. -/
theorem entered_time_iff (before : List (LogStatement T)) (a : LogStatement T) :
    shown (entered localtime gettid (before ++ [a]) a.thread).t_time =
      shown (a.call localtime gettid).t_time ↔ Formats before a := by
  have now := entered_time localtime gettid (before ++ [a]) a.thread
  have last : [a].filter (fun b => b.thread = a.thread) = [a] := by simp
  rw [List.filter_append, last, List.map_append, List.map_singleton] at now
  have told := Memo.value_after_iff (shown_formatted localtime) ThreadLocals.unformatted
    ((before.filter fun b => b.thread = a.thread).map LogStatement.second) a.second
  rw [← now, or_iff_left (unformatted_stale localtime)] at told
  have plain : shown (a.call localtime gettid).t_time = (localtime a.second).text.take 17 :=
    shown_formatted localtime _ a.second
  rw [plain]
  refine told.trans ?_
  simp only [Formats, List.mem_map, List.mem_filter, decide_eq_true_eq]
  constructor
  · rintro (here | ⟨second, ⟨b, ⟨among, own⟩, rfl⟩, earlier⟩)
    · exact Or.inl here
    · exact Or.inr ⟨b, among, own, earlier⟩
  · rintro (here | ⟨b, among, own, earlier⟩)
    · exact Or.inl here
    · exact Or.inr ⟨b.second, ⟨b, ⟨among, own⟩, rfl⟩, earlier⟩

end Threads

/-- Of a `Template` only the bytes it counts are written. -/
theorem insert_template_congr {v w : Template} (len : v.len = w.len)
    (same : v.str.take v.len = w.str.take w.len) (s : LogStream) :
    s.insert (.template v) = s.insert (.template w) := by
  have inside := v.inside
  have inside' := w.inside
  simp only [LogStream.insert, FixedMemory.append, FixedMemory.copy, Int.toNat_natCast]
  rw [same, len]
  have fits : (w.len : Int) ≤ v.str.length ↔ (w.len : Int) ≤ w.str.length := by omega
  simp only [fits]

theorem header_run {locals : ThreadLocals} {c : LogCall}
    (time : shown locals.t_time = shown c.t_time)
    (text : locals.t_formattedTid.val.take locals.t_formattedTidLength = c.tidString)
    (length : locals.t_formattedTidLength = c.tidString.length) (s : LogStream) :
    run LogStream.insert s (locals.header c) = run LogStream.insert s c.header := by
  have first (s : LogStream) : s.insert (.template _) = s.insert (.template _) :=
    insert_template_congr
      (v := ⟨locals.t_time.val, 17, locals.time_inside, seventeen_fits⟩)
      (w := ⟨c.t_time.val, 17, by rw [c.t_time.property]; decide, seventeen_fits⟩) rfl time s
  have third (s : LogStream) : s.insert (.template _) = s.insert (.template _) :=
    insert_template_congr
      (v := ⟨locals.t_formattedTid.val, locals.t_formattedTidLength, locals.tid_inside,
        locals.tid_fits⟩)
      (w := ⟨c.tidString, c.tidString.length, Nat.le_refl _,
        Nat.lt_of_le_of_lt c.tidString_length (by decide)⟩) length
      (by rw [List.take_length]; exact text) s
  simp only [ThreadLocals.header, LogCall.header, run, first, third]

/-- With the time and the number as they should be, the record is as it should be. -/
theorem record_congr {locals : ThreadLocals} {c : LogCall}
    (time : shown locals.t_time = shown c.t_time)
    (text : locals.t_formattedTid.val.take locals.t_formattedTidLength = c.tidString)
    (length : locals.t_formattedTidLength = c.tidString.length)
    (memory : { b : Bytes // b.length = kBufferSize }) (items : List Item) :
    locals.record memory c items = Logger.record memory c items := by
  rw [ThreadLocals.record, Logger.record, Logger.construct, header_run time text length]
  cases run LogStream.insert (FixedMemory.construct memory) c.header with
  | error fault => rfl
  | ok stream => rfl

section Records

variable {T : Type} [DecidableEq T]

/-- **A record has its own time and its own thread**: whatever threads log in whatever order,
the number in a record is that of its thread, and the time is that of its own second exactly
when some second other than 0 has been formatted in this thread; then the record is the one of
a `Logger` that formats everything anew. -/
theorem header_fresh (localtime : Nat → Tm) (gettid : T → Int32) (before : List (LogStatement T))
    (a : LogStatement T) :
    let locals := entered localtime gettid (before ++ [a]) a.thread
    let call := a.call localtime gettid
    locals.t_formattedTid.val.take locals.t_formattedTidLength = call.tidString ∧
      (locals.t_time.val.take 17 = call.t_time.val.take 17 ↔ Formats before a) ∧
      (Formats before a →
        locals.record a.memory call a.items = Logger.record a.memory call a.items) := by
  obtain ⟨text, length⟩ := entered_concat_knows localtime gettid before a
  have times := entered_time_iff localtime gettid before a
  refine ⟨text, times, fun formats => ?_⟩
  exact record_congr (times.mpr formats) text length a.memory a.items

end Records

end CppFileServer.Utils
