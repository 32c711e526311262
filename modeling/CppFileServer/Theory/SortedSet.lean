/-
# Theory.SortedSet -- an ordered set as the list of its elements

The elements of an ordered container in increasing order, each once.  Inserting
puts an element in its place, and a lower bound cuts the set in two.  The lemmas
say which elements are there and which one is first, so that no proof about a
program has to look at the list.
-/
import Mathlib.Order.Lattice
import Mathlib.Data.List.Basic
import Mathlib.Data.List.Nodup

namespace CppFileServer.Theory

set_option autoImplicit false

universe u

structure SortedSet (α : Type u) [LinearOrder α] where
  elems : List α
  sorted : elems.Pairwise (· < ·)

namespace SortedSet

variable {α : Type u} [LinearOrder α]

instance : Membership α (SortedSet α) := ⟨fun s a => a ∈ s.elems⟩

def empty : SortedSet α := ⟨[], List.Pairwise.nil⟩

/-- The elements before the first one that is not less than `key`. -/
def before (key : α) (s : SortedSet α) : SortedSet α :=
  ⟨s.elems.takeWhile (· < key), s.sorted.sublist (List.takeWhile_sublist _)⟩

/-- The first element that is not less than `key` and all after it. -/
def onwards (key : α) (s : SortedSet α) : SortedSet α :=
  ⟨s.elems.dropWhile (· < key), s.sorted.sublist (List.dropWhile_sublist _)⟩

def emplace (a : α) (s : SortedSet α) : SortedSet α where
  elems := s.elems.filter (· < a) ++ a :: s.elems.filter (a < ·)
  sorted := by
    rw [List.pairwise_append, List.pairwise_cons]
    refine ⟨s.sorted.filter _, ⟨?_, s.sorted.filter _⟩, ?_⟩
    · intro b greater
      simpa using (List.mem_filter.mp greater).2
    · intro b less c inRest
      have below : b < a := by simpa using (List.mem_filter.mp less).2
      rcases List.mem_cons.mp inRest with rfl | greater
      · exact below
      · exact below.trans (by simpa using (List.mem_filter.mp greater).2)

/-- The element `begin()` points to. -/
def first? (s : SortedSet α) : Option α := s.elems.head?

theorem mem_def {s : SortedSet α} {a : α} : a ∈ s ↔ a ∈ s.elems := Iff.rfl

@[simp] theorem not_mem_empty (a : α) : a ∉ (empty : SortedSet α) := List.not_mem_nil

/-- A lower bound cuts a set into the elements less than its key and the others. -/
theorem before_onwards_elems (key : α) (s : SortedSet α) :
    (s.before key).elems = s.elems.filter (· < key) ∧
      (s.onwards key).elems = s.elems.filter (key ≤ ·) := by
  obtain ⟨elems, sorted⟩ := s
  show elems.takeWhile _ = _ ∧ elems.dropWhile _ = _
  induction elems with
  | nil => exact ⟨rfl, rfl⟩
  | cons a elems ih =>
      obtain ⟨first, later⟩ := List.pairwise_cons.mp sorted
      by_cases less : a < key
      · obtain ⟨taken, left⟩ := ih later
        simp [less, not_le.mpr less, taken, left]
      · have none_less : ∀ b ∈ elems, ¬ b < key := fun b inside below =>
          less ((first b inside).trans below)
        have noneBelow : elems.filter (· < key) = [] := by
          rw [List.filter_eq_nil_iff]
          simpa using none_less
        have all : elems.filter (key ≤ ·) = elems := by
          rw [List.filter_eq_self]
          simpa using none_less
        simp [less, not_lt.mp less, noneBelow, all]

@[simp] theorem mem_before {key : α} {s : SortedSet α} {a : α} :
    a ∈ s.before key ↔ a ∈ s ∧ a < key := by
  rw [mem_def, (before_onwards_elems key s).1, List.mem_filter, decide_eq_true_eq]
  rfl

@[simp] theorem mem_onwards {key : α} {s : SortedSet α} {a : α} :
    a ∈ s.onwards key ↔ a ∈ s ∧ key ≤ a := by
  rw [mem_def, (before_onwards_elems key s).2, List.mem_filter, decide_eq_true_eq]
  rfl

@[simp] theorem mem_emplace {s : SortedSet α} {a b : α} : b ∈ s.emplace a ↔ b = a ∨ b ∈ s := by
  simp only [mem_def, emplace, List.mem_append, List.mem_cons, List.mem_filter, decide_eq_true_eq]
  constructor
  · rintro (⟨inside, -⟩ | rfl | ⟨inside, -⟩)
    · exact Or.inr inside
    · exact Or.inl rfl
    · exact Or.inr inside
  · rintro (rfl | inside)
    · exact Or.inr (Or.inl rfl)
    · rcases lt_trichotomy b a with less | rfl | greater
      · exact Or.inl ⟨inside, less⟩
      · exact Or.inr (Or.inl rfl)
      · exact Or.inr (Or.inr ⟨inside, greater⟩)

theorem nodup (s : SortedSet α) : s.elems.Nodup := s.sorted.imp fun less => ne_of_lt less

theorem first?_eq_none {s : SortedSet α} : s.first? = none ↔ ∀ a, a ∉ s := by
  rw [first?, List.head?_eq_none_iff, List.eq_nil_iff_forall_not_mem]
  rfl

theorem first?_mem {s : SortedSet α} {a : α} (isFirst : s.first? = some a) : a ∈ s :=
  List.mem_of_mem_head? isFirst

theorem first?_le {s : SortedSet α} {a b : α} (isFirst : s.first? = some a) (inside : b ∈ s) :
    a ≤ b := by
  obtain ⟨rest, whole⟩ := List.head?_eq_some_iff.mp isFirst
  have sorted := s.sorted
  rw [whole, List.pairwise_cons] at sorted
  rw [mem_def, whole] at inside
  rcases List.mem_cons.mp inside with rfl | inRest
  · exact le_refl _
  · exact (sorted.1 b inRest).le

end SortedSet

end CppFileServer.Theory
