/-
# Theory.Splice -- writing into a list

`splice s i xs` is `s` with `xs` written over it from place `i` on, as a copy into a
block of memory does.  Writes side by side are one write, and a write leaves what
stands in front of it alone.
-/
import Mathlib.Data.List.Basic

namespace CppFileServer.Theory

set_option autoImplicit false

universe u

variable {α : Type u}

def splice (s : List α) (i : Nat) (xs : List α) : List α := s.take i ++ xs ++ s.drop (i + xs.length)

theorem length_splice {s xs : List α} {i : Nat} (inside : i + xs.length ≤ s.length) :
    (splice s i xs).length = s.length := by
  rw [splice, List.length_append, List.length_append, List.length_take, List.length_drop]
  omega

theorem take_splice {s : List α} {i : Nat} (inside : i ≤ s.length) (xs : List α) :
    (splice s i xs).take i = s.take i := by
  rw [splice, List.append_assoc]
  exact List.take_left' (List.length_take_of_le inside)

/-- What was in front and what was written. -/
theorem take_splice_written {s : List α} {i : Nat} (inside : i ≤ s.length) (xs : List α) :
    (splice s i xs).take (i + xs.length) = s.take i ++ xs := by
  rw [splice]
  apply List.take_left'
  rw [List.length_append, List.length_take_of_le inside]

theorem drop_splice {s : List α} {i : Nat} (inside : i ≤ s.length) (xs : List α) :
    (splice s i xs).drop (i + xs.length) = s.drop (i + xs.length) := by
  rw [splice]
  apply List.drop_left'
  rw [List.length_append, List.length_take_of_le inside]

/-- Two writes side by side. -/
theorem splice_splice {s : List α} {i : Nat} (inside : i ≤ s.length) (xs ys : List α) :
    splice (splice s i xs) (i + xs.length) ys = splice s i (xs ++ ys) := by
  have behind : (splice s i xs).drop (i + xs.length + ys.length) =
      s.drop (i + (xs ++ ys).length) := by
    rw [← List.drop_drop, drop_splice inside, List.drop_drop, List.length_append, Nat.add_assoc]
  rw [splice, take_splice_written inside, behind, splice, ← List.append_assoc (s.take i)]

/-- What was written, written once more from its last to its first. -/
theorem splice_reverse {s : List α} {i : Nat} {xs : List α} (inside : i + xs.length ≤ s.length) :
    splice (splice s i xs) i (((splice s i xs).drop i).take xs.length).reverse =
      splice s i xs.reverse := by
  have front : i ≤ s.length := Nat.le_trans (Nat.le_add_right _ _) inside
  have written : ((splice s i xs).drop i).take xs.length = xs := by
    rw [splice, List.append_assoc, List.drop_left' (List.length_take_of_le front)]
    exact List.take_left' rfl
  have behind : (splice s i xs).drop (i + xs.reverse.length) = s.drop (i + xs.length) := by
    rw [List.length_reverse]
    exact drop_splice front xs
  rw [written, splice, take_splice front, behind, splice, List.length_reverse]

theorem set_eq_splice {s : List α} {i : Nat} (inside : i < s.length) (x : α) :
    s.set i x = splice s i [x] := by
  rw [List.set_eq_take_append_cons_drop, if_pos inside, splice, List.append_assoc]
  rfl

end CppFileServer.Theory
