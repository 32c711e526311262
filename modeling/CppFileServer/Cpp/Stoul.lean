/-
# Cpp.Stoul -- `std::stoul`

`std::stoul` is lenient: it skips white space, takes one sign, for base 16 an
`0x`, then as many digits as there are, and ignores what follows.  A minus sign
negates modulo the width of `unsigned long`.  It throws `std::invalid_argument`
when no digit was read and `std::out_of_range` when the digits do not fit.
-/
import CppFileServer.Cpp.Basic

namespace CppFileServer.Cpp

set_option autoImplicit false

/-- `isspace` in the C locale. -/
def isspace (b : UInt8) : Bool := b == 32 || (9 ≤ b && b ≤ 13)

/-- The value of a digit, of any base up to 16. -/
def digitValue (b : UInt8) : Option Nat :=
  if 48 ≤ b ∧ b ≤ 57 then some (b.toNat - 48)
  else if 97 ≤ b ∧ b ≤ 102 then some (b.toNat - 87)
  else if 65 ≤ b ∧ b ≤ 70 then some (b.toNat - 55)
  else none

def isDigit (base : Nat) (b : UInt8) : Bool :=
  match digitValue b with
  | some v => v < base
  | none => false

/-- The number a digit string stands for. -/
def numeral (base : Nat) (digits : Bytes) : Nat :=
  digits.foldl (fun n b => n * base + (digitValue b).getD 0) 0

/-- The optional sign: whether it is a minus, and what follows. -/
def takeSign : Bytes → Bool × Bytes
  | 45 :: rest => (true, rest)
  | 43 :: rest => (false, rest)
  | s => (false, s)

/-- The optional `0x` of base 16, taken only before a digit. -/
def dropHexPrefix : Bytes → Bytes
  | 48 :: x :: b :: rest =>
      if (x = 120 ∨ x = 88) ∧ isDigit 16 b = true then b :: rest else 48 :: x :: b :: rest
  | s => s

/-- What `strtoul` reads of `s`: whether there is a minus sign, and the digits. -/
def scanNumeral (base : Nat) (s : Bytes) : Bool × Bytes :=
  let signed := takeSign (s.dropWhile isspace)
  let unsigned := if base = 16 then dropHexPrefix signed.2 else signed.2
  (signed.1, unsigned.takeWhile (isDigit base))

/-- `std::stoul(s, nullptr, base)`. -/
def stoul (base : Nat) (s : Bytes) : Result Nat :=
  let scanned := scanNumeral base s
  if scanned.2 = [] then .error .invalidArgument
  else if sizeModulus ≤ numeral base scanned.2 then .error .outOfRange
  else if scanned.1 then .ok (sizeT (sizeModulus - numeral base scanned.2))
  else .ok (numeral base scanned.2)

example : stoul 16 (ascii "1aF;name=value") = .ok 0x1af := by decide
example : stoul 16 (ascii " -2") = .ok (2 ^ 64 - 2) := by decide
example : stoul 10 (ascii "") = .error .invalidArgument := by decide

/-- A digit is neither white space nor a sign. -/
theorem isDigit_plain {base : Nat} {b : UInt8} (digit : isDigit base b = true) :
    isspace b = false ∧ b ≠ 45 ∧ b ≠ 43 := by
  have valued : digitValue b ≠ none := by
    intro noValue
    simp [isDigit, noValue] at digit
  have inRange : (48 ≤ b ∧ b ≤ 57) ∨ (97 ≤ b ∧ b ≤ 102) ∨ (65 ≤ b ∧ b ≤ 70) := by
    by_contra outside
    push Not at outside
    apply valued
    simp only [digitValue]
    split_ifs <;> simp_all
  simp only [UInt8.le_iff_toNat_le] at inRange
  refine ⟨?_, ?_, ?_⟩
  · simp only [isspace, Bool.or_eq_false_iff, beq_eq_false_iff_ne, Bool.and_eq_false_imp,
      decide_eq_true_eq, decide_eq_false_iff_not, UInt8.le_iff_toNat_le]
    refine ⟨?_, fun _ => ?_⟩
    · rintro rfl
      simp at inRange
    · simp at inRange ⊢
      omega
  · rintro rfl
    simp at inRange
  · rintro rfl
    simp at inRange

/-- The digits in front of a byte that is none. -/
theorem takeWhile_digits {base : Nat} {digits rest : Bytes}
    (all : ∀ b ∈ digits, isDigit base b = true)
    (stops : ∀ b more, rest = b :: more → isDigit base b = false) :
    (digits ++ rest).takeWhile (isDigit base) = digits := by
  rw [List.takeWhile_append_of_pos all]
  cases rest with
  | nil => simp
  | cons b more => simp [stops b more rfl]

/-- A hexadecimal numeral is not mistaken for an `0x`. -/
theorem dropHexPrefix_digits {digits rest : Bytes}
    (all : ∀ b ∈ digits, isDigit 16 b = true) (nonempty : digits ≠ [])
    (stops : ∀ b more, rest = b :: more → b ≠ 120 ∧ b ≠ 88) :
    dropHexPrefix (digits ++ rest) = digits ++ rest := by
  unfold dropHexPrefix
  split
  · rename_i x b more heq
    have notX : ¬ ((x = 120 ∨ x = 88) ∧ isDigit 16 b = true) := by
      rintro ⟨isX, -⟩
      cases digits with
      | nil => exact nonempty rfl
      | cons d ds =>
          rw [List.cons_append, List.cons.injEq] at heq
          cases ds with
          | nil =>
              have := stops x _ heq.2
              rcases isX with rfl | rfl <;> simp_all
          | cons e es =>
              rw [List.cons_append, List.cons.injEq] at heq
              have digit := all e (by simp)
              rw [heq.2.1] at digit
              rcases isX with rfl | rfl <;> exact absurd digit (by decide)
    rw [if_neg notX, heq]
  · rfl

/-- What is scanned of a numeral with a non-digit behind it. -/
theorem scanNumeral_digits {base : Nat} {digits rest : Bytes}
    (all : ∀ b ∈ digits, isDigit base b = true) (nonempty : digits ≠ [])
    (stops : ∀ b more, rest = b :: more → isDigit base b = false ∧ b ≠ 120 ∧ b ≠ 88) :
    scanNumeral base (digits ++ rest) = (false, digits) := by
  obtain ⟨d, ds, rfl⟩ := List.exists_cons_of_ne_nil nonempty
  obtain ⟨notSpace, notMinus, notPlus⟩ := isDigit_plain (all d (by simp))
  have noSpace : (d :: ds ++ rest).dropWhile isspace = d :: ds ++ rest := by
    simp [notSpace]
  have noSign : takeSign (d :: ds ++ rest) = (false, d :: ds ++ rest) := by
    unfold takeSign
    split <;> simp_all
  have taken : (d :: ds ++ rest).takeWhile (isDigit base) = d :: ds :=
    takeWhile_digits all (fun b more heq => (stops b more heq).1)
  have unprefixed : (if base = 16 then dropHexPrefix (d :: ds ++ rest) else d :: ds ++ rest) =
      d :: ds ++ rest := by
    split_ifs with hex
    · subst hex
      exact dropHexPrefix_digits all nonempty (fun b more heq => (stops b more heq).2)
    · rfl
  simp only [scanNumeral, noSpace, noSign, unprefixed, taken]

/-- **A plain numeral is read exactly**, whatever non-digit follows it. -/
theorem stoul_numeral {base : Nat} {digits rest : Bytes}
    (all : ∀ b ∈ digits, isDigit base b = true) (nonempty : digits ≠ [])
    (fits : numeral base digits < sizeModulus)
    (stops : ∀ b more, rest = b :: more → isDigit base b = false ∧ b ≠ 120 ∧ b ≠ 88) :
    stoul base (digits ++ rest) = .ok (numeral base digits) := by
  simp only [stoul, scanNumeral_digits all nonempty stops]
  simp [nonempty, not_le.mpr fits]

end CppFileServer.Cpp
