/-
# Cpp.Basic -- the C++ values the sources compute with

Byte strings, the two integer widths that matter (`size_t` of 64 bits, `int` of
32), and the ways a call can fail to return: a standard exception, an assertion,
or behaviour the language leaves undefined.  A `std::string` is the list of its
bytes; positions and sizes of strings are exact, and only sums with a number
that was read from the input are reduced modulo the width of `size_t`.
-/
import CppFileServer.Theory.Search
import Mathlib.Algebra.Ring.Int.Defs
import Mathlib.Algebra.Ring.Nat

namespace CppFileServer.Cpp

set_option autoImplicit false

open CppFileServer.Theory

abbrev Bytes := List UInt8

/-- The bytes of an ASCII literal. -/
def ascii (s : String) : Bytes := s.toList.map fun c => UInt8.ofNat c.toNat

/-- Why a call does not return. -/
inductive Fault
  | outOfRange
  | invalidArgument
  | lengthError
  /-- A signed overflow, or a copy outside its buffer. -/
  | undefined
  | assertion
  /-- A loop model ran out of its fuel; each loop has a theorem that it never does. -/
  | fuel
  deriving DecidableEq, Repr

abbrev Result := Except Fault

@[simp] theorem ok_bind {α β : Type} (a : α) (f : α → Result β) :
    (Except.ok a >>= f : Result β) = f a := by
  simp only [bind, Except.bind]

@[simp] theorem error_bind {α β : Type} (e : Fault) (f : α → Result β) :
    (Except.error e >>= f : Result β) = .error e := by
  simp only [bind, Except.bind]

/-- A sequence that returns has returned from its first part. -/
theorem bind_eq_ok {α β : Type} {x : Result α} {f : α → Result β} {b : β}
    (returned : (x >>= f) = .ok b) : ∃ a, x = .ok a ∧ f a = .ok b := by
  cases x with
  | error e =>
      rw [error_bind] at returned
      cases returned
  | ok a => exact ⟨a, rfl, by rwa [ok_bind] at returned⟩

/-- What a closed run returns, read off by evaluation. -/
theorem eq_ok_of_map {ε α β : Type} {x : Except ε α} {f : α → β} {b : β}
    (evaluated : x.toOption.map f = some b) : ∃ a, x = .ok a ∧ f a = b := by
  cases x with
  | error e => cases evaluated
  | ok a => exact ⟨a, rfl, Option.some.inj evaluated⟩

@[simp] theorem pure_eq_ok {α : Type} (a : α) : (pure a : Result α) = .ok a := rfl

/-! ## Integers -/

/-- The modulus of `size_t`. -/
def sizeModulus : Nat := 2 ^ 64

/-- A `size_t` sum. -/
def sizeT (n : Nat) : Nat := n % sizeModulus

/-- `static_cast<int>`: the low 32 bits, read as two's complement. -/
def toInt (n : Int) : Int := Int.bmod n (2 ^ 32)

/-- The result of an `int` operation; overflow is undefined. -/
def checkedInt (n : Int) : Result Int :=
  if -2 ^ 31 ≤ n ∧ n < 2 ^ 31 then .ok n else .error .undefined

theorem sizeT_of_lt {n : Nat} (fits : n < sizeModulus) : sizeT n = n :=
  Nat.mod_eq_of_lt fits

theorem toInt_of_fits {n : Int} (low : -2 ^ 31 ≤ n) (high : n < 2 ^ 31) : toInt n = n := by
  unfold toInt
  exact Int.bmod_eq_of_le (by omega) (by omega)

theorem toInt_lt (n : Int) : toInt n < 2 ^ 31 := by
  have := Int.bmod_lt (x := n) (m := 2 ^ 32) (by decide)
  unfold toInt
  omega

/-- A cast makes no size greater. -/
theorem toInt_le (n : Nat) : toInt n ≤ n := by
  have cut : n % 2 ^ 32 ≤ n := Nat.mod_le n _
  rw [toInt, Int.bmod_def, ← Int.natCast_mod]
  split_ifs <;> omega

/-- A cast is never off by one. -/
theorem toInt_ne_pred (n : Int) : toInt n ≠ n - 1 := by
  intro cast
  have residue := Int.bmod_emod (x := n) (m := 2 ^ 32)
  unfold toInt at cast
  rw [cast] at residue
  omega

theorem checkedInt_of_fits {n : Int} (low : -2 ^ 31 ≤ n) (high : n < 2 ^ 31) :
    checkedInt n = .ok n := by
  rw [checkedInt, if_pos ⟨low, high⟩]

theorem checkedInt_of_overflow {n : Int} (overflow : 2 ^ 31 ≤ n) :
    checkedInt n = .error .undefined := by
  rw [checkedInt, if_neg (by omega)]

theorem checkedInt_eq_ok {n m : Int} :
    checkedInt n = .ok m ↔ (-2 ^ 31 ≤ n ∧ n < 2 ^ 31) ∧ n = m := by
  unfold checkedInt
  split
  · rename_i fits
    exact ⟨fun e => ⟨fits, Except.ok.inj e⟩, fun h => by rw [h.2]⟩
  · rename_i overflow
    exact ⟨fun impossible => by simp at impossible, fun h => absurd h.1 overflow⟩

/-! ## Strings -/

def crlf : Bytes := ascii "\r\n"

def crlfcrlf : Bytes := ascii "\r\n\r\n"

theorem crlf_eq : crlf = [13, 10] := rfl

theorem crlfcrlf_eq : crlfcrlf = [13, 10, 13, 10] := rfl

@[simp] theorem crlf_length : crlf.length = 2 := rfl

@[simp] theorem crlfcrlf_length : crlfcrlf.length = 4 := rfl

/-- `s.find(pat, pos)`, `none` for `npos`. -/
def findFrom (pat s : Bytes) (pos : Nat) : Option Nat :=
  (Search.find pat (s.drop pos)).map (· + pos)

/-- `s.find(pat)`. -/
abbrev find (pat s : Bytes) : Option Nat := Search.find pat s

/-- A line that holds no CRLF ends at the first one. -/
theorem find_crlf_unbroken {line : Bytes} (unbroken : ¬ crlf <:+: line) (rest : Bytes) :
    find crlf (line ++ crlf ++ rest) = some line.length := by
  induction line with
  | nil => exact Search.find_head (List.prefix_append crlf rest)
  | cons b line ih =>
      have tail : ¬ crlf <:+: line := fun inside => unbroken (List.infix_cons inside)
      have notHere : ¬ crlf <+: b :: (line ++ crlf ++ rest) := by
        rw [crlf_eq, List.cons_prefix_cons]
        rintro ⟨isCr, startsLf⟩
        cases line with
        | nil =>
            rw [List.nil_append, List.cons_append, List.cons_prefix_cons] at startsLf
            exact absurd startsLf.1 (by decide)
        | cons d line =>
            rw [List.cons_append, List.cons_append, List.cons_prefix_cons] at startsLf
            apply unbroken
            rw [crlf_eq, ← isCr, ← startsLf.1]
            exact (List.prefix_append [13, 10] line).isInfix
      rw [List.cons_append, List.cons_append]
      show Search.find crlf _ = _
      rw [Search.find_cons_skip notHere, show Search.find crlf (line ++ crlf ++ rest) = _ from
        ih tail]
      rfl

/-- `s.substr(pos)`, which throws beyond the end. -/
def substr (s : Bytes) (pos : Nat) : Result Bytes :=
  if pos ≤ s.length then .ok (s.drop pos) else .error .outOfRange

theorem substr_of_le {s : Bytes} {pos : Nat} (inside : pos ≤ s.length) :
    substr s pos = .ok (s.drop pos) := by
  rw [substr, if_pos inside]

theorem substr_of_gt {s : Bytes} {pos : Nat} (outside : s.length < pos) :
    substr s pos = .error .outOfRange := by
  rw [substr, if_neg (by omega)]

end CppFileServer.Cpp
