/-
# Utils.LogStream -- the stream of a log record and its fixed buffer

A record is written into a buffer of 4096 bytes that never grows: `append` copies a
text as a whole when it is shorter than what is left, and `formatInteger` writes its
digits straight into the buffer when 48 bytes are left.  Otherwise nothing is written.

`FixedMemory` is the `FixedBuffer` of the source with its bytes.  Every write is
checked against the storage, and so is every move of `cur_`, so that an operation that
returns has stayed inside.  `Item.piece` is what an operation is meant to add, and
`insert_spec` says that it adds that or nothing.
-/
import CppFileServer.Cpp.Basic
import CppFileServer.Theory.Loop
import CppFileServer.Theory.Run
import CppFileServer.Theory.Splice
import CppFileServer.Theory.WholePieces

namespace CppFileServer.Utils

set_option autoImplicit false

open CppFileServer.Cpp CppFileServer.Theory

def kBufferSize : Nat := 4096

def kMaxNumSize : Nat := 48

/-! ## FixedBuffer -/

structure FixedMemory (SIZE : Nat) where
  /-- `data_`, which the constructor does not initialise. -/
  data : Bytes
  /-- `cur_ - data_`. -/
  cur : Nat
  sized : data.length = SIZE
  inside : cur ≤ SIZE

namespace FixedMemory

variable {SIZE : Nat}

def construct (data : { b : Bytes // b.length = SIZE }) : FixedMemory SIZE where
  data := data.val
  cur := 0
  sized := data.property
  inside := Nat.zero_le SIZE

def len (b : FixedMemory SIZE) : Nat := b.cur

def avail (b : FixedMemory SIZE) : Nat := SIZE - b.cur

/-- The bytes from `data()` on, `len()` of them. -/
def content (b : FixedMemory SIZE) : Bytes := b.data.take b.cur

/-- The assignment of a byte through a pointer. -/
def store (data : Bytes) (i : Nat) (byte : UInt8) : Result Bytes :=
  if i < data.length then .ok (data.set i byte) else .error .undefined

/-- `memcpy`, whose count is converted to `size_t`. -/
def copy (data : Bytes) (i : Nat) (source : Bytes) (count : Int) : Result Bytes :=
  if 0 ≤ count ∧ count ≤ source.length ∧ i + count ≤ data.length then
    .ok (splice data i (source.take count.toNat))
  else .error .undefined

/-- The buffer with this storage, and `cur_` moved on. -/
def add (b : FixedMemory SIZE) (data : Bytes) (len : Int) : Result (FixedMemory SIZE) :=
  if fits : data.length = SIZE ∧ 0 ≤ b.cur + len ∧ b.cur + len ≤ SIZE then
    .ok ⟨data, (b.cur + len).toNat, fits.1, by omega⟩
  else .error .undefined

def append (b : FixedMemory SIZE) (buf : Bytes) (len : Int) : Result (FixedMemory SIZE) :=
  if len < b.avail then do
    let data ← copy b.data b.cur buf len
    b.add data len
  else .ok b

/-! ## Integers -/

/-- `remainder + '0'`, cut to a `char`. -/
def digitChar (remainder : Int) : UInt8 := UInt8.ofNat (remainder + 48).toNat

/-- The state of the digit loop: `data_`, `now` and `value`. -/
structure Digits where
  data : Bytes
  now : Nat
  value : Int

/-- One turn of the digit loop; `%` and `/` round toward zero. -/
def digitTurn (s : Digits) : Result (Turn Digits Digits) := do
  let data ← store s.data s.now (digitChar (s.value.tmod 10))
  let s' : Digits := { data := data, now := s.now + 1, value := s.value.tdiv 10 }
  pure (if s'.value ≠ 0 then .again s' else .done s')

/-- The sign, which is written after the loop has run. -/
def minus (s : Digits) : Result Digits :=
  if s.value < 0 then do
    let data ← store s.data s.now 45
    pure { s with data := data, now := s.now + 1 }
  else .ok s

/-- `std::reverse(data_ + first, data_ + past)`. -/
def reverse (data : Bytes) (first past : Nat) : Bytes :=
  splice data first ((data.drop first).take (past - first)).reverse

def formatInteger (b : FixedMemory SIZE) (value : Int) : Result (FixedMemory SIZE) :=
  if kMaxNumSize ≤ b.avail then do
    let s ← loop digitTurn .fuel (value.natAbs + 1) { data := b.data, now := b.cur, value := value }
    let s ← minus s
    b.add (reverse s.data b.cur s.now) (s.now - b.cur)
  else .ok b

end FixedMemory

/-! ## What is inserted -/

/-- The bytes in front of the NUL. -/
abbrev CString := { b : Bytes // (0 : UInt8) ∉ b }

structure Template where
  str : Bytes
  len : Nat
  inside : len ≤ str.length
  fits : len < 2 ^ 31

/-- A number in the format that was asked for; the constructor asserts that the text is
shorter than its buffer. -/
structure Fmt where
  text : Bytes
  short : text.length < 32

/-- An argument of `operator<<` of an integer type. -/
inductive Number
  | short (num : Int16)
  | unsignedShort (num : UInt16)
  | int (num : Int32)
  | unsignedInt (num : UInt32)
  | long (num : Int64)
  | unsignedLong (num : UInt64)
  | longLong (num : Int64)
  | unsignedLongLong (num : UInt64)

def Number.value : Number → Int
  | short num => num.toInt
  | unsignedShort num => num.toNat
  | int num => num.toInt
  | unsignedInt num => num.toNat
  | long num => num.toInt
  | unsignedLong num => num.toNat
  | longLong num => num.toInt
  | unsignedLongLong num => num.toNat

/-- An argument of `operator<<`. -/
inductive Item
  | bool (v : Bool)
  | char (v : UInt8)
  | number (v : Number)
  | cString (str : Option CString)
  | string (v : Bytes)
  | template (v : Template)
  | fmt (v : Fmt)
  /-- A `float` or a `double`, as `snprintf` writes it into a buffer of 32 bytes. -/
  | real (v : Fmt)

abbrev LogStream := FixedMemory kBufferSize

namespace LogStream

/-- `operator<<` of an integer; a short one is converted first. -/
def insertNumber (s : LogStream) : Number → Result LogStream
  | .short num => s.formatInteger num.toInt32.toInt
  | .unsignedShort num => s.formatInteger num.toUInt32.toNat
  | .int num => s.formatInteger num.toInt
  | .unsignedInt num => s.formatInteger num.toNat
  | .long num => s.formatInteger num.toInt
  | .unsignedLong num => s.formatInteger num.toNat
  | .longLong num => s.formatInteger num.toInt
  | .unsignedLongLong num => s.formatInteger num.toNat

/-- `operator<<`. -/
def insert (s : LogStream) : Item → Result LogStream
  | .bool v => s.append (if v then ascii "1" else ascii "0") 1
  | .char v => s.append [v] 1
  | .number v => insertNumber s v
  | .cString (some str) => s.append str.val (toInt str.val.length)
  | .cString none => s.append (ascii "(null)") 6
  | .string v => s.append v (toInt v.length)
  | .template v => s.append v.str v.len
  | .fmt v => s.append v.text v.text.length
  | .real v => s.append v.text v.text.length

end LogStream

/-! ## What an operation adds -/

/-- The digits of a number from the last to the first, as the loop writes them. -/
def lastDigits : Nat → Int → Bytes
  | 0, _ => []
  | count + 1, value =>
      FixedMemory.digitChar (value.tmod 10) ::
        if value.tdiv 10 ≠ 0 then lastDigits count (value.tdiv 10) else []

/-- The text `formatInteger` makes of a number. -/
def digitText (value : Int) : Bytes := (lastDigits (value.natAbs + 1) value).reverse

/-- A text that `append` copies. -/
def copied (buf : Bytes) (len : Nat) : Piece UInt8 := ⟨buf.take len, len + 1⟩

def Item.piece : Item → Piece UInt8
  | bool v => copied (if v then ascii "1" else ascii "0") 1
  | char v => copied [v] 1
  | number v => ⟨digitText v.value, kMaxNumSize⟩
  | cString (some str) => copied str.val (toInt str.val.length).toNat
  | cString none => copied (ascii "(null)") 6
  | string v => copied v (toInt v.length).toNat
  | template v => copied v.str v.len
  | fmt v => copied v.text v.text.length
  | real v => copied v.text v.text.length

/-- The length of a string is not negative as an `int`. -/
def Item.Countable : Item → Prop
  | cString (some str) => 0 ≤ toInt str.val.length
  | string v => 0 ≤ toInt v.length
  | _ => True

instance (item : Item) : Decidable item.Countable := by
  cases item with
  | cString str => cases str <;> (unfold Item.Countable; infer_instance)
  | _ => unfold Item.Countable; infer_instance

/-- The length of a string is an `int`. -/
def Item.Short : Item → Prop
  | cString (some str) => str.val.length < 2 ^ 31
  | string v => v.length < 2 ^ 31
  | _ => True

/-! ## Each operation appends its whole text or nothing -/

namespace FixedMemory

variable {SIZE : Nat} {b : FixedMemory SIZE}

@[simp] theorem content_length (b : FixedMemory SIZE) : b.content.length = b.cur := by
  rw [content, List.length_take, b.sized]
  exact Nat.min_eq_left b.inside

theorem add_eq {data : Bytes} (sized : data.length = SIZE) {n : Nat} (fits : b.cur + n ≤ SIZE) :
    b.add data n = .ok ⟨data, b.cur + n, sized, fits⟩ := by
  rw [add, dif_pos ⟨sized, by omega, by omega⟩]
  congr 2

/-- What is copied behind the content is appended to it. -/
theorem add_splice {text : Bytes} (fits : b.cur + text.length ≤ SIZE) :
    ∃ t, b.add (splice b.data b.cur text) text.length = .ok t ∧ t.content = b.content ++ text := by
  have sized : (splice b.data b.cur text).length = SIZE := by
    rw [length_splice (by rw [b.sized]; exact fits), b.sized]
  refine ⟨_, add_eq sized fits, ?_⟩
  exact take_splice_written (by rw [b.sized]; exact b.inside) text

theorem append_spec {buf : Bytes} {len : Nat} (readable : len ≤ buf.length) :
    ∃ t, b.append buf len = .ok t ∧ t.content = Piece.put SIZE b.content (copied buf len) ∧
      (t = b ∨ t.content = b.content ++ (copied buf len).text) := by
  have inside := b.inside
  have taken : (buf.take len).length = len := List.length_take_of_le readable
  unfold append
  by_cases room : len < b.avail
  · rw [if_pos (by omega)]
    unfold avail at room
    have fits : b.cur + (buf.take len).length ≤ SIZE := by omega
    obtain ⟨t, added, content⟩ := add_splice fits
    have copies : copy b.data b.cur buf len = .ok (splice b.data b.cur (buf.take len)) := by
      rw [copy, if_pos ⟨by omega, by omega, by rw [b.sized]; omega⟩, Int.toNat_natCast]
    rw [copies, ok_bind]
    rw [taken] at added
    refine ⟨t, added, ?_, Or.inr content⟩
    have put : b.content.length + (copied buf len).room ≤ SIZE := by
      rw [content_length]
      show b.cur + (len + 1) ≤ SIZE
      omega
    rw [content, Piece.put_of_room put, copied]
  · rw [if_neg (by omega)]
    unfold avail at room
    refine ⟨b, rfl, ?_, Or.inl rfl⟩
    have full : SIZE < b.content.length + (copied buf len).room := by
      rw [content_length]
      show SIZE < b.cur + (len + 1)
      omega
    rw [Piece.put_of_full full]

/-- A negative length is a huge one for `memcpy`. -/
theorem append_negative (buf : Bytes) {len : Int} (negative : len < 0) :
    b.append buf len = .error .undefined := by
  rw [append, if_pos (by omega), copy, if_neg (by omega), error_bind]

/-! ### Integers -/

theorem tdiv_lt {value : Int} (more : value.tdiv 10 ≠ 0) :
    (value.tdiv 10).natAbs < value.natAbs := by
  have quotient : (value.tdiv 10).natAbs = value.natAbs / 10 := Int.natAbs_tdiv value 10
  have positive := Int.natAbs_pos.mpr more
  omega

/-- A number of at most `k` digits. -/
theorem lastDigits_length {count k : Nat} {value : Int} (small : value.natAbs < 10 ^ (k + 1)) :
    (lastDigits count value).length ≤ k + 1 := by
  induction count generalizing k value with
  | zero => exact Nat.zero_le _
  | succ count ih =>
      rw [lastDigits, List.length_cons]
      split_ifs with more
      · have quotient : (value.tdiv 10).natAbs = value.natAbs / 10 := Int.natAbs_tdiv value 10
        have positive := Int.natAbs_pos.mpr more
        cases k with
        | zero =>
            rw [Nat.zero_add, Nat.pow_one] at small
            omega
        | succ k =>
            have smaller : (value.tdiv 10).natAbs < 10 ^ (k + 1) := by
              rw [quotient]
              apply Nat.div_lt_of_lt_mul
              rwa [Nat.mul_comm, ← Nat.pow_succ]
            have rest := ih smaller
            omega
      · exact Nat.succ_le_succ (Nat.zero_le k)

/-- **The digit loop** writes the digits one behind the other, and ends with zero. -/
theorem loop_digits {fuel : Nat} {data : Bytes} {now : Nat} {value : Int}
    (enough : value.natAbs < fuel) (fits : now + (lastDigits fuel value).length ≤ data.length) :
    loop digitTurn .fuel fuel { data := data, now := now, value := value } =
      .ok { data := splice data now (lastDigits fuel value)
            now := now + (lastDigits fuel value).length
            value := 0 } := by
  induction fuel generalizing data now value with
  | zero => exact absurd enough (Nat.not_lt_zero _)
  | succ fuel ih =>
      rw [lastDigits, List.length_cons] at fits
      have inside : now < data.length := by omega
      have turned : digitTurn { data := data, now := now, value := value } =
          .ok (if value.tdiv 10 ≠ 0
            then .again ⟨splice data now [digitChar (value.tmod 10)], now + 1, value.tdiv 10⟩
            else .done ⟨splice data now [digitChar (value.tmod 10)], now + 1, value.tdiv 10⟩) := by
        rw [digitTurn, store, if_pos inside, set_eq_splice inside]
        rfl
      rw [loop, turned, lastDigits]
      by_cases more : value.tdiv 10 ≠ 0
      · rw [if_pos more] at fits ⊢
        have lighter := tdiv_lt more
        have roomLeft : now + 1 + (lastDigits fuel (value.tdiv 10)).length ≤
            (splice data now [digitChar (value.tmod 10)]).length := by
          rw [length_splice (by rw [List.length_singleton]; omega)]
          omega
        have written := ih (by omega) roomLeft
        have sideBySide : splice (splice data now [digitChar (value.tmod 10)]) (now + 1)
            (lastDigits fuel (value.tdiv 10)) =
            splice data now (digitChar (value.tmod 10) :: lastDigits fuel (value.tdiv 10)) :=
          splice_splice (Nat.le_of_lt inside) [digitChar (value.tmod 10)] _
        simp only [if_pos more]
        rw [written, sideBySide, List.length_cons]
        congr 2
        omega
      · simp only [if_neg more]
        rw [not_not.mp more]
        rfl

theorem digitText_length {value : Int} (small : value.natAbs < 2 ^ 64) :
    (digitText value).length ≤ 20 := by
  rw [digitText, List.length_reverse]
  exact lastDigits_length (Nat.lt_of_lt_of_le small (by decide))

theorem formatInteger_spec {value : Int} (small : value.natAbs < 2 ^ 64) :
    ∃ t, b.formatInteger value = .ok t ∧
      t.content = Piece.put SIZE b.content ⟨digitText value, kMaxNumSize⟩ ∧
      (t = b ∨ t.content = b.content ++ digitText value) := by
  have inside := b.inside
  have length := digitText_length small
  unfold formatInteger
  by_cases room : kMaxNumSize ≤ b.avail
  · rw [if_pos room]
    unfold avail at room
    have limit : kMaxNumSize = 48 := rfl
    have digits : (lastDigits (value.natAbs + 1) value).length = (digitText value).length :=
      (List.length_reverse ..).symm
    have fits : b.cur + (digitText value).length ≤ SIZE := by omega
    have inData : b.cur + (lastDigits (value.natAbs + 1) value).length ≤ b.data.length := by
      rw [b.sized]
      omega
    obtain ⟨t, added, content⟩ := add_splice fits
    have reversed : reverse (splice b.data b.cur (lastDigits (value.natAbs + 1) value)) b.cur
        (b.cur + (lastDigits (value.natAbs + 1) value).length) =
        splice b.data b.cur (digitText value) := by
      rw [reverse, Nat.add_sub_cancel_left]
      exact splice_reverse inData
    have moved : ((b.cur + (lastDigits (value.natAbs + 1) value).length : Nat) : Int) - b.cur =
        (digitText value).length := by omega
    -- The loop ends with zero, so the sign is never written.
    have unsigned (data : Bytes) (now : Nat) : minus ⟨data, now, 0⟩ = .ok ⟨data, now, 0⟩ := by
      rw [minus, if_neg (Int.lt_irrefl 0)]
    rw [loop_digits (Nat.lt_succ_self _) inData, ok_bind, unsigned, ok_bind, reversed, moved]
    refine ⟨t, added, ?_, Or.inr content⟩
    rw [content, Piece.put_of_room (by rw [content_length]; show b.cur + kMaxNumSize ≤ SIZE; omega)]
  · rw [if_neg room]
    unfold avail at room
    refine ⟨b, rfl, ?_, Or.inl rfl⟩
    rw [Piece.put_of_full (by rw [content_length]; show SIZE < b.cur + kMaxNumSize; omega)]

end FixedMemory

theorem Number.small (n : Number) : n.value.natAbs < 2 ^ 64 := by
  cases n with
  | short num =>
      have low := num.le_toInt
      have high := num.toInt_lt
      simp only [value]
      omega
  | unsignedShort num =>
      have high := num.toNat_lt
      simp only [value]
      omega
  | int num =>
      have low := num.le_toInt
      have high := num.toInt_lt
      simp only [value]
      omega
  | unsignedInt num =>
      have high := num.toNat_lt
      simp only [value]
      omega
  | long num =>
      have low := num.le_toInt
      have high := num.toInt_lt
      simp only [value]
      omega
  | unsignedLong num =>
      have high := num.toNat_lt
      simp only [value]
      omega
  | longLong num =>
      have low := num.le_toInt
      have high := num.toInt_lt
      simp only [value]
      omega
  | unsignedLongLong num =>
      have high := num.toNat_lt
      simp only [value]
      omega

/-! ## Sequences of operations -/

/-- The text an operation is asked to add. -/
def Item.rendering : Item → Bytes
  | bool v => if v then ascii "1" else ascii "0"
  | char v => [v]
  | number v => digitText v.value
  | cString (some str) => str.val
  | cString none => ascii "(null)"
  | string v => v
  | template v => v.str.take v.len
  | fmt v => v.text
  | real v => v.text

theorem copied_short {v : Bytes} (short : v.length < 2 ^ 31) :
    copied v (toInt v.length).toNat = copied v v.length := by
  rw [toInt_of_fits (by omega) (by omega), Int.toNat_natCast]

namespace Item

variable {item : Item}

theorem countable_of_short (short : item.Short) : item.Countable := by
  have natural {n : Nat} (fits : n < 2 ^ 31) : 0 ≤ toInt n := by
    rw [toInt_of_fits (by omega) (by omega)]
    exact Int.natCast_nonneg n
  cases item with
  | cString str =>
      cases str with
      | some str => exact natural short
      | none => trivial
  | string v => exact natural short
  | _ => trivial

/-- The text of a short string is the string. -/
theorem text_of_short (short : item.Short) : item.piece.text = item.rendering := by
  have whole {v : Bytes} (fits : v.length < 2 ^ 31) :
      (copied v (toInt v.length).toNat).text = v := by
    rw [copied_short fits]
    exact List.take_length
  cases item with
  | bool v => cases v <;> rfl
  | char v => rfl
  | number v => rfl
  | cString str =>
      cases str with
      | some str => exact whole short
      | none => rfl
  | string v => exact whole short
  | template v => rfl
  | fmt v => exact List.take_length
  | real v => exact List.take_length

theorem roomy (item : Item) : item.piece.Roomy := by
  have copies (buf : Bytes) (len : Nat) : (copied buf len).Roomy :=
    Nat.lt_succ_of_le (List.length_take_le len buf)
  cases item with
  | number v =>
      have enough : 20 < kMaxNumSize := by decide
      exact Nat.lt_of_le_of_lt (FixedMemory.digitText_length v.small) enough
  | cString str => cases str <;> exact copies _ _
  | _ => exact copies _ _

end Item

namespace LogStream

variable {s t : LogStream} {item : Item}

theorem insertNumber_eq (s : LogStream) (n : Number) :
    s.insertNumber n = s.formatInteger n.value := by
  cases n with
  | short num => rw [insertNumber, Number.value, Int16.toInt_toInt32]
  | unsignedShort num => rw [insertNumber, Number.value, UInt16.toNat_toUInt32]
  | _ => rfl

/-- **What `<<` does**: it appends its whole piece, or nothing when there is no room. -/
theorem insert_spec (countable : item.Countable) :
    ∃ t, s.insert item = .ok t ∧ t.content = Piece.put kBufferSize s.content item.piece ∧
      (t = s ∨ t.content = s.content ++ item.piece.text) := by
  have string {v : Bytes} (natural : 0 ≤ toInt v.length) :
      ∃ t, s.append v (toInt v.length) = .ok t ∧
        t.content = Piece.put kBufferSize s.content (copied v (toInt v.length).toNat) ∧
        (t = s ∨ t.content = s.content ++ (copied v (toInt v.length).toNat).text) := by
    have readable : (toInt v.length).toNat ≤ v.length := by
      have cut := toInt_le v.length
      omega
    have appended := FixedMemory.append_spec (b := s) readable
    rwa [Int.toNat_of_nonneg natural] at appended
  cases item with
  | bool v =>
      have readable : 1 ≤ (if v then ascii "1" else ascii "0").length := by cases v <;> decide
      exact FixedMemory.append_spec readable
  | char v => exact FixedMemory.append_spec (Nat.le_refl 1)
  | number v =>
      rw [insert, insertNumber_eq]
      exact FixedMemory.formatInteger_spec v.small
  | cString str =>
      cases str with
      | some str => exact string countable
      | none =>
          have readable : 6 ≤ (ascii "(null)").length := by decide
          exact FixedMemory.append_spec readable
  | string v => exact string countable
  | template v => exact FixedMemory.append_spec v.inside
  | fmt v => exact FixedMemory.append_spec (Nat.le_refl _)
  | real v => exact FixedMemory.append_spec (Nat.le_refl _)

/-- The length of a string that is negative as an `int` is a huge one for `memcpy`. -/
theorem insert_uncountable (uncountable : ¬ item.Countable) :
    s.insert item = .error .undefined := by
  cases item with
  | cString str =>
      cases str with
      | some str => exact FixedMemory.append_negative _ (Int.not_le.mp uncountable)
      | none => exact absurd trivial uncountable
  | string v => exact FixedMemory.append_negative _ (Int.not_le.mp uncountable)
  | _ => exact absurd trivial uncountable

theorem insert_eq_ok (inserted : s.insert item = .ok t) :
    item.Countable ∧ t.content = Piece.put kBufferSize s.content item.piece := by
  by_cases countable : item.Countable
  · obtain ⟨u, same, content, -⟩ := insert_spec (s := s) countable
    rw [inserted] at same
    cases same
    exact ⟨countable, content⟩
  · rw [insert_uncountable countable] at inserted
    cases inserted

/-- **Run lemma**: operations on countable strings return, and put their pieces one by one. -/
theorem run_insert {items : List Item} (countable : ∀ item ∈ items, item.Countable)
    (s : LogStream) : ∃ t, run insert s items = .ok t ∧
      t.content = Piece.putAll kBufferSize s.content (items.map Item.piece) := by
  induction items generalizing s with
  | nil => exact ⟨s, rfl, rfl⟩
  | cons item items ih =>
      obtain ⟨t, inserted, content, -⟩ := insert_spec (s := s) (countable item List.mem_cons_self)
      obtain ⟨u, ran, final⟩ := ih (fun i inside => countable i (List.mem_cons_of_mem _ inside)) t
      refine ⟨u, by rw [run_cons_of_ok inserted, ran], ?_⟩
      rw [final, content]
      rfl

theorem run_insert_eq_ok {items : List Item} (ran : run insert s items = .ok t) :
    ∀ item ∈ items, item.Countable := by
  induction items generalizing s with
  | nil => exact fun item inside => absurd inside List.not_mem_nil
  | cons item items ih =>
      obtain ⟨u, inserted, ran⟩ := run_cons_eq_ok ran
      exact List.forall_mem_cons.mpr ⟨(insert_eq_ok inserted).1, ih ran⟩

/-- **The stream stays in its buffer**: after any operations on strings of fewer than 2^31
bytes, `len()` is below the size of the buffer, and one more operation appends its whole
text or changes nothing. -/
theorem stays_inside (data : { b : Bytes // b.length = kBufferSize }) (items : List Item)
    (short : ∀ item ∈ items, item.Short) :
    ∃ s : LogStream, run insert (FixedMemory.construct data) items = .ok s ∧
      s.len ≤ kBufferSize - 1 ∧
      ∀ item : Item, item.Short → ∃ t, s.insert item = .ok t ∧ s.content <+: t.content ∧
        (t = s ∨ t.content = s.content ++ item.rendering) := by
  have countable : ∀ item ∈ items, item.Countable :=
    fun item inside => Item.countable_of_short (short item inside)
  obtain ⟨s, ran, content⟩ := run_insert countable (FixedMemory.construct data)
  refine ⟨s, ran, ?_, ?_⟩
  · have roomy : ∀ piece ∈ items.map Item.piece, piece.Roomy :=
      List.forall_mem_map.mpr fun item _ => item.roomy
    have empty : (FixedMemory.construct data).content.length < kBufferSize := by
      rw [FixedMemory.content_length]
      exact (by decide : 0 < kBufferSize)
    have below := Piece.putAll_length roomy empty
    rw [← content, FixedMemory.content_length] at below
    exact Nat.le_sub_one_of_lt below
  · intro item short
    obtain ⟨t, inserted, put, whole⟩ := insert_spec (s := s) (Item.countable_of_short short)
    refine ⟨t, inserted, ?_, ?_⟩
    · rw [put]
      exact Piece.prefix_put _ _ _
    · rwa [Item.text_of_short short] at whole

/-- A null pointer, the least `long long` and an empty string. -/
theorem stays_inside_example : ∃ s : LogStream,
    run insert (FixedMemory.construct ⟨List.replicate kBufferSize 0, List.length_replicate⟩)
      [.cString none, .number (.longLong (-9223372036854775808)), .string []] = .ok s ∧
      s.len ≤ kBufferSize - 1 ∧
      ∀ item : Item, item.Short → ∃ t, s.insert item = .ok t ∧ s.content <+: t.content ∧
        (t = s ∨ t.content = s.content ++ item.rendering) :=
  stays_inside _ _ (by simp [Item.Short])

end LogStream

end CppFileServer.Utils
