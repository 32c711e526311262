/-
# Cpp.Decimal -- `std::stoi`, `std::to_string` and parts of strings

`std::stoi` scans like `std::stoul` and throws `std::out_of_range` when the number
is no `int`.  `std::to_string` writes the digits without a leading zero, so that
the one reads back what the other wrote.  The positions that `find` returns are
numbers here, `npos` among them, because callers add to them before they look.
-/
import CppFileServer.Cpp.Stoul

namespace CppFileServer.Cpp

set_option autoImplicit false

/-! ## Parts of strings -/

def npos : Nat := sizeModulus - 1

/-- The position that `find` returns. -/
def position (found : Option Nat) : Nat := found.getD npos

/-- A difference of `size_t`. -/
def sizeSub (m n : Nat) : Nat := (m + (sizeModulus - n)) % sizeModulus

theorem sizeSub_of_le {m n : Nat} (ordered : n ≤ m) (fits : m < sizeModulus) :
    sizeSub m n = m - n := by
  have wrapped : m + (sizeModulus - n) = m - n + sizeModulus := by omega
  rw [sizeSub, wrapped, Nat.add_mod_right, Nat.mod_eq_of_lt (by omega)]

/-- `s.substr(pos, count)`. -/
def substrCount (s : Bytes) (pos count : Nat) : Result Bytes := do
  let rest ← substr s pos
  pure (rest.take count)

/-- `s.erase(pos, count)`. -/
def erase (s : Bytes) (pos count : Nat) : Result Bytes :=
  if pos ≤ s.length then .ok (s.take pos ++ s.drop (pos + count)) else .error .outOfRange

/-- `s.substr(s.find_last_of(b) + 1)`, all of `s` when there is no `b`. -/
def afterLast (b : UInt8) (s : Bytes) : Bytes := (s.reverse.takeWhile (· != b)).reverse

theorem afterLast_suffix (b : UInt8) (s : Bytes) : afterLast b s <:+ s := by
  unfold afterLast
  rw [← List.reverse_prefix, List.reverse_reverse]
  exact List.takeWhile_prefix _

theorem afterLast_absent (b : UInt8) (s : Bytes) : b ∉ afterLast b s := by
  intro inside
  rw [afterLast, List.mem_reverse] at inside
  have passes := List.all_eq_true.mp List.all_takeWhile b inside
  simp at passes

/-- A text without the byte goes to the end of what stands behind the last one. -/
theorem afterLast_append {b : UInt8} {name : Bytes} (absent : b ∉ name) (s : Bytes) :
    afterLast b (s ++ name) = afterLast b s ++ name := by
  have all : ∀ x ∈ name.reverse, (x != b) = true := by
    intro x inside
    rw [bne_iff_ne]
    rintro rfl
    exact absent (List.mem_reverse.mp inside)
  rw [afterLast, List.reverse_append, List.takeWhile_append_of_pos all, List.reverse_append,
    List.reverse_reverse, afterLast]

/-- What stands before a text does not matter when it ends with the byte. -/
theorem afterLast_append_of_nil {b : UInt8} {front : Bytes} (ends : afterLast b front = [])
    (s : Bytes) : afterLast b (front ++ s) = afterLast b s := by
  have nothing : front.reverse.takeWhile (· != b) = [] := List.reverse_eq_nil_iff.mp ends
  rw [afterLast, List.reverse_append, List.takeWhile_append, nothing, List.append_nil, afterLast]
  split_ifs with whole
  · rw [(List.takeWhile_prefix _).eq_of_length whole]
  · rfl

/-! ## Numbers -/

def stoi (s : Bytes) : Result Int :=
  let scanned := scanNumeral 10 s
  if scanned.2 = [] then .error .invalidArgument
  else
    let value : Int := if scanned.1 then -numeral 10 scanned.2 else numeral 10 scanned.2
    if -2 ^ 31 ≤ value ∧ value < 2 ^ 31 then .ok value else .error .outOfRange

/-- The last digits of a number, without a leading zero. -/
def decimalDigits : Nat → Nat → Bytes
  | 0, _ => []
  | count + 1, n =>
      if n < 10 then [UInt8.ofNat (48 + n)]
      else decimalDigits count (n / 10) ++ [UInt8.ofNat (48 + n % 10)]

/-- `std::to_string` of an unsigned number. -/
def toDecimal (n : Nat) : Bytes := decimalDigits (n + 1) n

/-- `std::to_string` of an `int`. -/
def intToDecimal (n : Int) : Bytes := if n < 0 then 45 :: toDecimal n.natAbs else toDecimal n.natAbs

example : toDecimal 4096000 = ascii "4096000" := by decide +kernel
example : intToDecimal (-20) = ascii "-20" := by decide +kernel
example : stoi (ascii " -500/7") = .ok (-500) := by decide +kernel

theorem decimal_digit {d : Nat} (single : d < 10) :
    isDigit 10 (UInt8.ofNat (48 + d)) = true ∧ digitValue (UInt8.ofNat (48 + d)) = some d := by
  have all : ∀ d < 10, isDigit 10 (UInt8.ofNat (48 + d)) = true ∧
      digitValue (UInt8.ofNat (48 + d)) = some d := by decide
  exact all d single

theorem numeral_concat (base : Nat) (digits : Bytes) (b : UInt8) :
    numeral base (digits ++ [b]) = numeral base digits * base + (digitValue b).getD 0 := by
  simp [numeral, List.foldl_append]

theorem decimalDigits_spec {count n : Nat} (enough : n < count) :
    (∀ b ∈ decimalDigits count n, isDigit 10 b = true) ∧ decimalDigits count n ≠ [] ∧
      numeral 10 (decimalDigits count n) = n := by
  induction count generalizing n with
  | zero => exact absurd enough (Nat.not_lt_zero n)
  | succ count ih =>
      rw [decimalDigits]
      split_ifs with single
      · obtain ⟨digit, value⟩ := decimal_digit single
        refine ⟨?_, List.cons_ne_nil _ _, ?_⟩
        · intro b inside
          rw [List.mem_singleton] at inside
          exact inside ▸ digit
        · show 0 * 10 + (digitValue (UInt8.ofNat (48 + n))).getD 0 = n
          rw [value, Option.getD_some, Nat.zero_mul, Nat.zero_add]
      · obtain ⟨digits, -, front⟩ := ih (n := n / 10) (by omega)
        obtain ⟨digit, value⟩ := decimal_digit (Nat.mod_lt n (by decide : 0 < 10))
        refine ⟨?_, List.concat_ne_nil _ _, ?_⟩
        · intro b inside
          rcases List.mem_append.mp inside with before | last
          · exact digits b before
          · rw [List.mem_singleton] at last
            exact last ▸ digit
        · rw [numeral_concat, front, value, Option.getD_some]
          omega

theorem toDecimal_isDigit {n : Nat} {b : UInt8} (inside : b ∈ toDecimal n) : isDigit 10 b = true :=
  (decimalDigits_spec (Nat.lt_succ_self n)).1 b inside

theorem toDecimal_ne_nil (n : Nat) : toDecimal n ≠ [] :=
  (decimalDigits_spec (Nat.lt_succ_self n)).2.1

/-- A coarse bound, enough for a sum of positions that does not wrap. -/
theorem toDecimal_length_le (n : Nat) : (toDecimal n).length ≤ n + 1 := by
  have bound : ∀ count m, (decimalDigits count m).length ≤ count := by
    intro count
    induction count with
    | zero => exact fun _ => Nat.le_refl 0
    | succ count ih =>
        intro m
        rw [decimalDigits]
        split_ifs
        · exact Nat.succ_le_succ (Nat.zero_le count)
        · rw [List.length_append]
          exact Nat.succ_le_succ (ih (m / 10))
  exact bound (n + 1) n

@[simp] theorem numeral_toDecimal (n : Nat) : numeral 10 (toDecimal n) = n :=
  (decimalDigits_spec (Nat.lt_succ_self n)).2.2

theorem toDecimal_injective : Function.Injective toDecimal := by
  intro m n same
  rw [← numeral_toDecimal m, same, numeral_toDecimal]

/-- What `std::to_string` wrote, `std::stoi` reads, up to a byte that is no digit. -/
theorem stoi_toDecimal {n : Nat} (fits : n < 2 ^ 31) {rest : Bytes}
    (stops : ∀ b more, rest = b :: more → isDigit 10 b = false ∧ b ≠ 120 ∧ b ≠ 88) :
    stoi (toDecimal n ++ rest) = .ok n := by
  have scanned : scanNumeral 10 (toDecimal n ++ rest) = (false, toDecimal n) :=
    scanNumeral_digits (fun _ inside => toDecimal_isDigit inside) (toDecimal_ne_nil n) stops
  have inside : -2 ^ 31 ≤ (n : Int) ∧ (n : Int) < 2 ^ 31 := by omega
  simp only [stoi, scanned, toDecimal_ne_nil, if_false, Bool.false_eq_true, numeral_toDecimal]
  rw [if_pos inside]

end CppFileServer.Cpp
