/-
# Utils.LogNumerals -- integers in the log

The digit loop of `formatInteger` takes remainders of the number itself, and `%` rounds
toward zero, so that of a number below zero every remainder is negative and every byte
is a `'0'` with a digit taken off.  The sign is tested after the loop, which ends with
zero, so it is never written.  A number that is not negative becomes its numeral
(`digitText_natCast`); of any other the digits come out mirrored at `'0'`
(`digitText_neg`), -5 as `+`.
-/
import CppFileServer.Cpp.Decimal
import CppFileServer.Utils.LogStream

namespace CppFileServer.Utils

set_option autoImplicit false

open CppFileServer.Cpp CppFileServer.Theory

/-! ## Numerals -/

/-- The canonical decimal numeral of a number. -/
structure IsNumeral (text : Bytes) (value : Int) (digits : Bytes) : Prop where
  signed : text = if value < 0 then 45 :: digits else digits
  nonempty : digits ≠ []
  decimal : ∀ b ∈ digits, isDigit 10 b = true
  noLeadingZero : digits.head? = some 48 → digits = [48]
  stands : numeral 10 digits = value.natAbs

/-- The number that is read back. -/
def readNumeral (text : Bytes) : Int :=
  let scanned := scanNumeral 10 text
  if scanned.1 then -numeral 10 scanned.2 else numeral 10 scanned.2

theorem decimal_cases {b : UInt8} (digit : isDigit 10 b = true) :
    ∃ d < 10, b = UInt8.ofNat (48 + d) := by
  unfold isDigit at digit
  split at digit
  · rename_i v valued
    rw [decide_eq_true_eq] at digit
    unfold digitValue at valued
    have code : b.toNat = 48 + v := by
      split_ifs at valued with low small large
      · have floor := UInt8.le_iff_toNat_le.mp low.1
        rw [Option.some.injEq] at valued
        simp at floor
        omega
      · have floor := UInt8.le_iff_toNat_le.mp small.1
        rw [Option.some.injEq] at valued
        simp at floor
        omega
      · have floor := UInt8.le_iff_toNat_le.mp large.1
        rw [Option.some.injEq] at valued
        simp at floor
        omega
    exact ⟨v, digit, by rw [← code, UInt8.ofNat_toNat]⟩
  · cases digit

theorem IsNumeral.read {text digits : Bytes} {value : Int} (isNumeral : IsNumeral text value digits) :
    readNumeral text = value := by
  have stops : ∀ b more, ([] : Bytes) = b :: more → isDigit 10 b = false ∧ b ≠ 120 ∧ b ≠ 88 :=
    fun b more impossible => absurd impossible (List.cons_ne_nil b more).symm
  have scanned : scanNumeral 10 text = (decide (value < 0), digits) := by
    rw [isNumeral.signed]
    split_ifs with negative
    · have taken : digits.takeWhile (isDigit 10) = digits := by
        have whole := takeWhile_digits isNumeral.decimal fun b more same => (stops b more same).1
        rwa [List.append_nil] at whole
      rw [decide_eq_true negative]
      show (true, digits.takeWhile (isDigit 10)) = _
      rw [taken]
    · rw [decide_eq_false negative]
      have plain := scanNumeral_digits isNumeral.decimal isNumeral.nonempty stops
      rwa [List.append_nil] at plain
  rw [readNumeral, scanned]
  simp only [decide_eq_true_eq, isNumeral.stands]
  split_ifs with negative <;> omega

/-- A decimal numeral starts with a zero only when it is one. -/
theorem decimalDigits_head {count n : Nat} (enough : n < count) :
    (decimalDigits count n).head? = some 48 → n = 0 := by
  induction count generalizing n with
  | zero => exact absurd enough (Nat.not_lt_zero n)
  | succ count ih =>
      rw [decimalDigits]
      split_ifs with single
      · intro zero
        have code : UInt8.ofNat (48 + n) = 48 := Option.some.inj zero
        have all : ∀ d < 10, UInt8.ofNat (48 + d) = 48 → d = 0 := by decide
        exact all n single code
      · intro zero
        have smaller : n / 10 < count := by omega
        have front := (decimalDigits_spec smaller).2.1
        rw [List.head?_append_of_ne_nil _ front] at zero
        have isZero := ih smaller zero
        omega

theorem toDecimal_isNumeral (n : Nat) : IsNumeral (toDecimal n) n (toDecimal n) where
  signed := by rw [if_neg (by omega)]
  nonempty := toDecimal_ne_nil n
  decimal := fun _ inside => toDecimal_isDigit inside
  noLeadingZero := by
    intro zero
    rw [decimalDigits_head (Nat.lt_succ_self n) zero]
    rfl
  stands := by rw [numeral_toDecimal, Int.natAbs_natCast]

/-- A numeral of zeros only. -/
theorem numeral_zeros {digits : Bytes} (zeros : ∀ b ∈ digits, b = 48) :
    numeral 10 digits = 0 := by
  rw [List.eq_replicate_of_mem zeros]
  induction digits.length with
  | zero => rfl
  | succ count ih =>
      rw [List.replicate_succ', numeral_concat, ih]
      rfl

/-! ## What the digit loop writes -/

/-- The byte as far below `'0'` as this one is above. -/
def mirrored (b : UInt8) : UInt8 := 96 - b

theorem lastDigits_signed {unit : Int} {write : UInt8 → UInt8} (isUnit : unit = 1 ∨ unit = -1)
    (writes : ∀ d : Nat, d < 10 →
      FixedMemory.digitChar (unit * d) = write (UInt8.ofNat (48 + d)))
    {count n : Nat} (enough : n < count) :
    (lastDigits count (unit * n)).reverse = (decimalDigits count n).map write := by
  have remainder (m : Nat) : (unit * m).tmod 10 = unit * (m % 10 : Nat) := by
    rcases isUnit with rfl | rfl
    · rw [Int.one_mul, Int.one_mul, Int.tmod_eq_emod_of_nonneg (by omega)]
      omega
    · rw [Int.neg_one_mul, Int.neg_one_mul, Int.neg_tmod, Int.tmod_eq_emod_of_nonneg (by omega)]
      omega
  have quotient (m : Nat) : (unit * m).tdiv 10 = unit * (m / 10 : Nat) := by
    rcases isUnit with rfl | rfl
    · rw [Int.one_mul, Int.one_mul, Int.tdiv_eq_ediv_of_nonneg (by omega)]
      omega
    · rw [Int.neg_one_mul, Int.neg_one_mul, Int.neg_tdiv, Int.tdiv_eq_ediv_of_nonneg (by omega)]
      omega
  induction count generalizing n with
  | zero => exact absurd enough (Nat.not_lt_zero n)
  | succ count ih =>
      have more : unit * (n / 10 : Nat) ≠ 0 ↔ ¬ n < 10 := by
        rcases isUnit with rfl | rfl <;> omega
      rw [lastDigits, decimalDigits, remainder, quotient]
      by_cases single : n < 10
      · rw [if_neg (fun nonzero => more.mp nonzero single), if_pos single, Nat.mod_eq_of_lt single,
          writes n single]
        rfl
      · rw [if_pos (more.mpr single), if_neg single, List.reverse_cons, ih (by omega),
          writes _ (Nat.mod_lt n (by decide)), List.map_append]
        rfl

/-- A number that is not negative. -/
theorem digitText_natCast (n : Nat) : digitText n = toDecimal n := by
  have writes : ∀ d : Nat, d < 10 → FixedMemory.digitChar (1 * d) = id (UInt8.ofNat (48 + d)) := by
    decide
  have digits := lastDigits_signed (Or.inl rfl) writes (Nat.lt_succ_self n)
  rwa [Int.one_mul, List.map_id] at digits

/-- A number that is not positive. -/
theorem digitText_neg (n : Nat) : digitText (-n) = (toDecimal n).map mirrored := by
  have writes : ∀ d : Nat, d < 10 →
      FixedMemory.digitChar (-1 * d) = mirrored (UInt8.ofNat (48 + d)) := by
    decide
  have digits := lastDigits_signed (Or.inr rfl) writes (Nat.lt_succ_self n)
  rw [Int.neg_one_mul] at digits
  rw [digitText, Int.natAbs_neg, Int.natAbs_natCast]
  exact digits

theorem mirrored_injective : Function.Injective mirrored :=
  fun _ _ same => (UInt8.sub_right_inj 96).mp same

/-- Of the mirrored digits only a zero is a digit. -/
theorem mirrored_digit {b : UInt8} (digit : isDigit 10 b = true)
    (mirroredDigit : isDigit 10 (mirrored b) = true) : mirrored b = 48 ∧ b = 48 := by
  obtain ⟨d, single, rfl⟩ := decimal_cases digit
  have all : ∀ d < 10, isDigit 10 (mirrored (UInt8.ofNat (48 + d))) = true →
      mirrored (UInt8.ofNat (48 + d)) = 48 ∧ UInt8.ofNat (48 + d) = 48 := by decide
  exact all d single mirroredDigit

/-- Numbers with one text are one number. -/
theorem digitText_injective : Function.Injective digitText := by
  have apart {m n : Nat} (same : digitText m = digitText (-n)) : (m : Int) = -n := by
    rw [digitText_natCast, digitText_neg] at same
    have zeros : ∀ b ∈ toDecimal n, b = 48 := by
      intro b inside
      have digit : isDigit 10 (mirrored b) = true :=
        toDecimal_isDigit (same ▸ List.mem_map_of_mem inside)
      exact (mirrored_digit (toDecimal_isDigit inside) digit).2
    have isZero : n = 0 := by rw [← numeral_toDecimal n, numeral_zeros zeros]
    subst isZero
    have zero : (toDecimal 0).map mirrored = toDecimal 0 := by decide
    rw [toDecimal_injective (same.trans zero)]
    rfl
  intro v w same
  obtain ⟨m, rfl | rfl⟩ := Int.eq_nat_or_neg v <;> obtain ⟨n, rfl | rfl⟩ := Int.eq_nat_or_neg w
  · rw [digitText_natCast, digitText_natCast] at same
    rw [toDecimal_injective same]
  · exact apart same
  · exact (apart same.symm).symm
  · rw [digitText_neg, digitText_neg] at same
    rw [toDecimal_injective (List.map_injective_iff.mpr mirrored_injective same)]

/-- The digit loop makes a numeral exactly of a number that is not negative. -/
theorem digitText_isNumeral {value : Int} :
    (∃ digits, IsNumeral (digitText value) value digits) ↔ 0 ≤ value := by
  constructor
  · rintro ⟨digits, isNumeral⟩
    by_contra negative
    obtain ⟨n, rfl⟩ : ∃ n : Nat, value = -n := ⟨value.natAbs, by omega⟩
    have signed := isNumeral.signed
    rw [if_pos (by omega), digitText_neg] at signed
    have zeros : ∀ b ∈ digits, b = 48 := by
      intro b inside
      have written : b ∈ (toDecimal n).map mirrored := by
        rw [signed]
        exact List.mem_cons_of_mem _ inside
      obtain ⟨c, digit, rfl⟩ := List.mem_map.mp written
      exact (mirrored_digit (toDecimal_isDigit digit) (isNumeral.decimal _ inside)).1
    have stands := isNumeral.stands
    rw [numeral_zeros zeros] at stands
    omega
  · intro natural
    obtain ⟨n, rfl⟩ := Int.eq_ofNat_of_zero_le natural
    exact ⟨toDecimal n, digitText_natCast n ▸ toDecimal_isNumeral n⟩

/-! ## Integers in a stream -/

/-- An integer is logged as its numeral: the bytes it appends are the canonical one, they
read back as the value, and no other value appends them. -/
def LogsNumeral (s : LogStream) (n : Number) : Prop :=
  ∃ t text digits, s.insert (.number n) = .ok t ∧ t.content = s.content ++ text ∧
    IsNumeral text n.value digits ∧ readNumeral text = n.value ∧
    ∀ m u, s.insert (.number m) = .ok u → u.content = s.content ++ text → m.value = n.value

namespace LogStream

variable {s : LogStream}

/-- With room for a number, its digits are appended. -/
theorem insert_number (room : kMaxNumSize ≤ s.avail) (n : Number) :
    ∃ t, s.insert (.number n) = .ok t ∧ t.content = s.content ++ digitText n.value := by
  have countable : (Item.number n).Countable := trivial
  obtain ⟨t, inserted, put, -⟩ := insert_spec (s := s) countable
  refine ⟨t, inserted, ?_⟩
  have inside := s.inside
  have fits : s.content.length + kMaxNumSize ≤ kBufferSize := by
    rw [FixedMemory.content_length]
    unfold FixedMemory.avail at room
    have limit : kMaxNumSize = 48 := rfl
    omega
  rw [put, Piece.put_of_room fits]
  rfl

theorem natural_of_logsNumeral (room : kMaxNumSize ≤ s.avail) {n : Number}
    (logs : LogsNumeral s n) : 0 ≤ n.value := by
  obtain ⟨t, text, digits, inserted, appended, isNumeral, -, -⟩ := logs
  obtain ⟨t', inserted', appended'⟩ := insert_number room n
  rw [inserted] at inserted'
  cases inserted'
  rw [List.append_cancel_left (appended.symm.trans appended')] at isNumeral
  exact digitText_isNumeral.mp ⟨digits, isNumeral⟩

/-- **Numerals**: with room for a number, it is logged as its numeral exactly when it is not
negative. -/
theorem logsNumeral_iff (s : LogStream) (room : kMaxNumSize ≤ s.avail) (n : Number) :
    LogsNumeral s n ↔ 0 ≤ n.value := by
  constructor
  · exact natural_of_logsNumeral room
  · intro natural
    obtain ⟨t, inserted, appended⟩ := insert_number room n
    obtain ⟨digits, isNumeral⟩ := digitText_isNumeral.mpr natural
    refine ⟨t, digitText n.value, digits, inserted, appended, isNumeral, isNumeral.read, ?_⟩
    intro m u insertedM appendedM
    obtain ⟨u', insertedM', appendedM'⟩ := insert_number room m
    rw [insertedM] at insertedM'
    cases insertedM'
    exact digitText_injective (List.append_cancel_left (appendedM'.symm.trans appendedM))

/-- An empty stream logs 11 as its numeral. -/
theorem logsNumeral_iff_eleven :
    LogsNumeral (FixedMemory.construct ⟨List.replicate kBufferSize 0, List.length_replicate⟩)
      (.int 11) ↔ 0 ≤ (Number.int 11).value :=
  logsNumeral_iff _ (by decide) _

/-- An empty stream appends a plus for -5. -/
theorem minus_five_logged : ∃ s t : LogStream, kMaxNumSize ≤ s.avail ∧
    s.insert (.number (.int (-5))) = .ok t ∧ t.content = s.content ++ ascii "+" ∧
    ¬ LogsNumeral s (.int (-5)) := by
  let s : LogStream := FixedMemory.construct ⟨List.replicate kBufferSize 0, List.length_replicate⟩
  have room : kMaxNumSize ≤ s.avail := by decide
  obtain ⟨t, inserted, appended⟩ := insert_number room (.int (-5))
  have plus : digitText (Number.int (-5)).value = ascii "+" := by decide
  refine ⟨s, t, room, inserted, appended.trans (by rw [plus]), ?_⟩
  intro logs
  exact absurd (natural_of_logsNumeral room logs) (by decide)

end LogStream

end CppFileServer.Utils
