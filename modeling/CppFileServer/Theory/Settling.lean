/-
# Theory.Settling -- systems that come to rest when they are left alone

`next` is what a system does by itself.  If each such step lowers a rank that
cannot fall forever, and a state that is not at rest has such a step, then the
system is at rest after finitely many steps, whichever of them it takes.
-/
import Mathlib.Logic.Relation
import Mathlib.Order.WellFounded

namespace CppFileServer.Theory

set_option autoImplicit false

universe u v

variable {S : Type u} {W : Type v} [Preorder W] [WellFoundedLT W]

/-- The steps from the states of `P` lower the rank, and only a state at rest has none. -/
structure Settling (next : S → S → Prop) (P resting : S → Prop) (rank : S → W) : Prop where
  kept : ∀ s t, P s → next s t → P t
  falls : ∀ s t, P s → next s t → rank t < rank s
  goes : ∀ s, P s → ¬ resting s → ∃ t, next s t

namespace Settling

variable {next : S → S → Prop} {P resting : S → Prop} {rank : S → W}

omit [WellFoundedLT W] in
theorem reaches (settling : Settling next P resting rank) {s t : S} (initial : P s)
    (later : Relation.ReflTransGen next s t) : P t := by
  induction later with
  | refl => exact initial
  | tail _ stepped ih => exact settling.kept _ _ ih stepped

/-- **Every run ends.** -/
theorem no_endless_run (settling : Settling next P resting rank) {s : S} (initial : P s) :
    ¬ ∃ run : ℕ → S, run 0 = s ∧ ∀ n, next (run n) (run (n + 1)) := by
  rintro ⟨run, rfl, steps⟩
  have kept (n : ℕ) : P (run n) := by
    induction n with
    | zero => exact initial
    | succ n ih => exact settling.kept _ _ ih (steps n)
  obtain ⟨n, stays⟩ :=
    WellFounded.not_rel_apply_succ (r := fun a b : W => a < b) fun n => rank (run n)
  exact stays (settling.falls _ _ (kept n) (steps n))

/-- **Every run can be ended, and only at rest.** -/
theorem rests (settling : Settling next P resting rank) {s : S} (initial : P s) :
    ∃ t, Relation.ReflTransGen next s t ∧ resting t := by
  -- by induction on the rank
  generalize same : rank s = w
  induction w using WellFoundedLT.induction generalizing s with
  | ind w ih =>
      by_cases atRest : resting s
      · exact ⟨s, .refl, atRest⟩
      · obtain ⟨t, stepped⟩ := settling.goes s initial atRest
        have lower := settling.falls s t initial stepped
        obtain ⟨u, later, rested⟩ := ih (rank t) (same ▸ lower) (settling.kept s t initial stepped) rfl
        exact ⟨u, .head stepped later, rested⟩

end Settling

end CppFileServer.Theory
