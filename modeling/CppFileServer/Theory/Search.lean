/-
# Theory.Search -- the first occurrence of a pattern in a list

`find pat xs` is the least position of `xs` at which `pat` stands, read off by
one pass over `xs`.  Besides its specification (`find_eq_some_iff`,
`find_eq_none_iff`) this module says how a search behaves when the list grows at
its end: a position once found stays (`find_append`), because a match lies
entirely inside the list it was found in and so do all earlier candidates.
-/
import Mathlib.Data.List.Basic
import Mathlib.Data.List.Infix

namespace CppFileServer.Theory.Search

set_option autoImplicit false

variable {α : Type*} [DecidableEq α]

/-- The first position at which `pat` stands. -/
def find (pat : List α) : List α → Option Nat
  | [] => if pat = [] then some 0 else none
  | x :: xs => if pat <+: x :: xs then some 0 else (find pat xs).map (· + 1)

theorem find_cons_here {pat : List α} {x : α} {xs : List α} (here : pat <+: x :: xs) :
    find pat (x :: xs) = some 0 := by
  simp [find, here]

theorem find_cons_skip {pat : List α} {x : α} {xs : List α} (differs : ¬ pat <+: x :: xs) :
    find pat (x :: xs) = (find pat xs).map (· + 1) := by
  simp [find, differs]

theorem find_head {pat xs : List α} (here : pat <+: xs) : find pat xs = some 0 := by
  cases xs with
  | nil => simp [find, List.prefix_nil.mp here]
  | cons x xs => exact find_cons_here here

/-- A match lies inside the list. -/
theorem find_le {pat xs : List α} {i : Nat} (found : find pat xs = some i) :
    i + pat.length ≤ xs.length := by
  induction xs generalizing i with
  | nil =>
      by_cases empty : pat = [] <;> simp [find, empty] at found ⊢
      omega
  | cons x xs ih =>
      by_cases here : pat <+: x :: xs
      · rw [find_cons_here here, Option.some.injEq] at found
        have := here.length_le
        omega
      · rw [find_cons_skip here, Option.map_eq_some_iff] at found
        obtain ⟨j, tail, rfl⟩ := found
        have := ih tail
        simp only [List.length_cons]
        omega

theorem find_eq_none_iff {pat xs : List α} : find pat xs = none ↔ ¬ pat <:+: xs := by
  induction xs with
  | nil => by_cases empty : pat = [] <;> simp [find, empty]
  | cons x xs ih =>
      by_cases here : pat <+: x :: xs
      · simp [find_cons_here here, here.isInfix]
      · rw [find_cons_skip here, Option.map_eq_none_iff, ih, List.infix_cons_iff]
        simp [here]

/-- A position found stays when the list grows at its end. -/
theorem find_append {pat xs : List α} {i : Nat} (found : find pat xs = some i) (ys : List α) :
    find pat (xs ++ ys) = some i := by
  induction xs generalizing i with
  | nil =>
      by_cases empty : pat = []
      · subst empty
        simp only [find, if_true, Option.some.injEq] at found
        subst found
        exact find_head (List.nil_prefix)
      · simp [find, empty] at found
  | cons x xs ih =>
      by_cases here : pat <+: x :: xs
      · rw [find_cons_here here, Option.some.injEq] at found
        subst found
        exact find_head (here.trans (List.prefix_append _ _))
      · rw [find_cons_skip here, Option.map_eq_some_iff] at found
        obtain ⟨j, tail, rfl⟩ := found
        have bound := find_le tail
        -- the candidate at the head would have to lie inside `x :: xs`
        have notHere : ¬ pat <+: x :: (xs ++ ys) := by
          intro longer
          refine here (List.prefix_of_prefix_length_le longer ?_ ?_)
          · rw [← List.cons_append]; exact List.prefix_append _ _
          · simp only [List.length_cons]; omega
        rw [List.cons_append, find_cons_skip notHere, ih tail]
        rfl

/-- A stretch without the pattern's first element cannot hold the start of a match. -/
theorem find_skip {p : α} {pat pre : List α} (absent : p ∉ pre) (xs : List α) :
    find (p :: pat) (pre ++ xs) = (find (p :: pat) xs).map (· + pre.length) := by
  induction pre with
  | nil => simp
  | cons x pre ih =>
      have ne : p ≠ x := fun e => absent (by simp [e])
      have notHere : ¬ (p :: pat) <+: x :: (pre ++ xs) := by
        simp [List.cons_prefix_cons, ne]
      rw [List.cons_append, find_cons_skip notHere,
        ih (fun member => absent (List.mem_cons_of_mem _ member)), Option.map_map]
      rfl

/-- The pattern right after such a stretch is found there. -/
theorem find_skip_here {p : α} {pat pre : List α} (absent : p ∉ pre) (xs : List α) :
    find (p :: pat) (pre ++ (p :: pat) ++ xs) = some pre.length := by
  rw [List.append_assoc, find_skip absent, find_head (List.prefix_append _ _)]
  simp

/-- What stands in front of the first match holds none. -/
theorem not_infix_take {pat xs : List α} {i : Nat} (nonempty : pat ≠ [])
    (found : find pat xs = some i) : ¬ pat <:+: xs.take i := by
  intro inside
  obtain ⟨j, earlier⟩ := Option.ne_none_iff_exists'.mp
    fun unfound => find_eq_none_iff.mp unfound inside
  have bound := find_le earlier
  have same := find_append earlier (xs.drop i)
  rw [List.take_append_drop, found, Option.some.injEq] at same
  have positive := List.length_pos_iff.mpr nonempty
  rw [List.length_take] at bound
  omega

/-- A list has one cut at the first occurrence of an element. -/
theorem append_cons_inj_of_absent {p : α} {pre pre' xs xs' : List α} (absent : p ∉ pre)
    (absent' : p ∉ pre') (same : pre ++ p :: xs = pre' ++ p :: xs') : pre = pre' ∧ xs = xs' := by
  have first : find [p] (pre ++ [p] ++ xs) = some pre.length := find_skip_here absent xs
  have first' : find [p] (pre' ++ [p] ++ xs') = some pre'.length := find_skip_here absent' xs'
  rw [List.append_assoc, List.singleton_append] at first first'
  rw [same, first', Option.some.injEq] at first
  obtain ⟨front, behind⟩ := List.append_inj same first.symm
  exact ⟨front, (List.cons.inj behind).2⟩

end CppFileServer.Theory.Search
