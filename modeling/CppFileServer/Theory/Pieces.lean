/-
# Theory.Pieces -- a list cut into consecutive slices

`slice l a b` has the elements from `a` to `b`, both included.  Intervals that
follow one another over the whole list give its slices back as the list; slices
that each lack their last element give a shorter one.
-/
import Mathlib.Data.List.Basic

namespace CppFileServer.Theory

set_option autoImplicit false

variable {α : Type*}

def slice (l : List α) (a b : Nat) : List α := (l.drop a).take (b + 1 - a)

/-- The intervals follow one another from `low` to before `high`. -/
def Tiles : Nat → Nat → List (Nat × Nat) → Prop
  | low, high, [] => low = high
  | low, high, (a, b) :: rest => a = low ∧ a ≤ b ∧ Tiles (b + 1) high rest

theorem slice_length {l : List α} {a b : Nat} (ordered : a ≤ b) (inside : b < l.length) :
    (slice l a b).length = b - a + 1 := by
  rw [slice, List.length_take, List.length_drop]
  omega

theorem slice_dropLast {l : List α} {a b : Nat} (ordered : a ≤ b) (inside : b < l.length) :
    (slice l a b).dropLast = (l.drop a).take (b - a) := by
  rw [List.dropLast_eq_take, slice_length ordered inside, slice, List.take_take]
  congr 1
  omega

theorem Tiles.le {low high : Nat} {ranges : List (Nat × Nat)} (tiles : Tiles low high ranges) :
    low ≤ high ∧ ∀ p ∈ ranges, p.1 ≤ p.2 ∧ p.2 < high := by
  induction ranges generalizing low with
  | nil => exact ⟨Nat.le_of_eq tiles, fun _ impossible => by cases impossible⟩
  | cons range ranges ih =>
      obtain ⟨a, b⟩ := range
      obtain ⟨rfl, ordered, rest⟩ := tiles
      obtain ⟨below, later⟩ := ih rest
      refine ⟨by omega, ?_⟩
      intro p among
      rcases List.mem_cons.mp among with rfl | among
      · exact ⟨ordered, below⟩
      · exact later p among

/-- **The slices of consecutive intervals are the list.** -/
theorem flatten_slices {l : List α} {low : Nat} {ranges : List (Nat × Nat)}
    (tiles : Tiles low l.length ranges) :
    (ranges.map fun p => slice l p.1 p.2).flatten = l.drop low := by
  induction ranges generalizing low with
  | nil =>
      have ended : low = l.length := tiles
      rw [ended, List.drop_length]
      rfl
  | cons range ranges ih =>
      obtain ⟨a, b⟩ := range
      obtain ⟨rfl, ordered, rest⟩ := tiles
      have behind : l.drop (b + 1) = (l.drop a).drop (b + 1 - a) := by
        rw [List.drop_drop]
        congr 1
        omega
      rw [List.map_cons, List.flatten_cons, ih rest, behind]
      exact List.take_append_drop _ _

/-- Pieces without their last elements are shorter by one each. -/
theorem length_flatten_dropLast {pieces : List (List α)} (nonempty : ∀ piece ∈ pieces, piece ≠ []) :
    (pieces.map List.dropLast).flatten.length + pieces.length = pieces.flatten.length := by
  induction pieces with
  | nil => rfl
  | cons piece pieces ih =>
      have positive := List.length_pos_iff.mpr (nonempty piece List.mem_cons_self)
      have rest := ih fun p among => nonempty p (List.mem_cons_of_mem _ among)
      simp only [List.map_cons, List.flatten_cons, List.length_append, List.length_dropLast,
        List.length_cons]
      omega

/-- **Slices without their last elements are the list only when it is empty.** -/
theorem flatten_dropLast_slices_iff {l : List α} {ranges : List (Nat × Nat)}
    (tiles : Tiles 0 l.length ranges) :
    (ranges.map fun p => (slice l p.1 p.2).dropLast).flatten = l ↔ l = [] := by
  have whole := flatten_slices tiles
  rw [List.drop_zero] at whole
  have nonempty : ∀ piece ∈ ranges.map fun p => slice l p.1 p.2, piece ≠ [] := by
    intro piece among empty
    obtain ⟨p, range, rfl⟩ := List.mem_map.mp among
    obtain ⟨ordered, inside⟩ := tiles.le.2 p range
    have length := slice_length ordered inside
    rw [empty] at length
    cases length
  have lengths := length_flatten_dropLast nonempty
  rw [whole, List.map_map, List.length_map] at lengths
  constructor
  · intro same
    have shorter : (ranges.map (List.dropLast ∘ fun p => slice l p.1 p.2)).flatten = l := same
    rw [shorter] at lengths
    have noRanges : ranges = [] := List.eq_nil_of_length_eq_zero (by omega)
    rw [noRanges] at tiles
    exact List.eq_nil_of_length_eq_zero (Eq.symm tiles)
  · rintro rfl
    exact List.eq_nil_of_length_eq_zero (by
      have shorter := lengths
      simp only [List.length_nil] at shorter
      exact (Nat.add_eq_zero_iff.mp shorter).1)

end CppFileServer.Theory
