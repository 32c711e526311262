/-
# Theory.Refinement -- a component that answers as an abstract one does

A component answers each input with an output and a next state, or faults.  Its
specification is total: an abstract state and the same inputs and outputs.  The
one rule here is forward simulation: when related states answer alike under the
component's precondition, so do whole runs whose steps all meet it.
-/
import Mathlib.Algebra.GroupWithZero.Nat
import Mathlib.Data.List.Basic

namespace CppFileServer.Theory

set_option autoImplicit false

universe u v w x y

variable {S : Type u} {I : Type v} {O : Type w} {E : Type x} {A : Type y}

/-- The answers of a run and the state it ends in, or the first fault. -/
def answers (step : S → I → Except E (O × S)) (s : S) : List I → Except E (List O × S)
  | [] => .ok ([], s)
  | i :: is =>
      match step s i with
      | .ok (o, t) =>
          match answers step t is with
          | .ok (os, u) => .ok (o :: os, u)
          | .error e => .error e
      | .error e => .error e

/-- The answers of the specification. -/
def expected (spec : A → I → O × A) (a : A) : List I → List O × A
  | [] => ([], a)
  | i :: is => ((spec a i).1 :: (expected spec (spec a i).2 is).1, (expected spec (spec a i).2 is).2)

/-- Every step of the run meets its precondition. -/
def Permitted (step : S → I → Except E (O × S)) (pre : S → I → Prop) (s : S) : List I → Prop
  | [] => True
  | i :: is => pre s i ∧ ∀ o t, step s i = .ok (o, t) → Permitted step pre t is

theorem permitted_cons_of_ok {step : S → I → Except E (O × S)} {pre : S → I → Prop} {s t : S}
    {i : I} {o : O} (stepped : step s i = .ok (o, t)) (is : List I) :
    Permitted step pre s (i :: is) ↔ pre s i ∧ Permitted step pre t is := by
  constructor
  · rintro ⟨here, later⟩
    exact ⟨here, later o t stepped⟩
  · rintro ⟨here, later⟩
    refine ⟨here, ?_⟩
    intro o' t' stepped'
    rw [stepped] at stepped'
    cases stepped'
    exact later

theorem permitted_cons_of_error {step : S → I → Except E (O × S)} {pre : S → I → Prop} {s : S}
    {i : I} {e : E} (failed : step s i = .error e) (is : List I) :
    Permitted step pre s (i :: is) ↔ pre s i := by
  constructor
  · exact fun permitted => permitted.1
  · intro here
    refine ⟨here, ?_⟩
    intro o t stepped
    rw [failed] at stepped
    cases stepped

instance Permitted.decide (step : S → I → Except E (O × S)) (pre : S → I → Prop)
    [∀ s i, Decidable (pre s i)] (s : S) : (is : List I) → Decidable (Permitted step pre s is)
  | [] => .isTrue trivial
  | i :: is =>
      match stepped : step s i with
      | .ok (_, t) =>
          have := Permitted.decide step pre t is
          decidable_of_iff' _ (permitted_cons_of_ok stepped is)
      | .error _ => decidable_of_iff' _ (permitted_cons_of_error stepped is)

/-- `step` does under `pre` what `spec` says, for states that `R` relates. -/
structure Simulates (step : S → I → Except E (O × S)) (spec : A → I → O × A)
    (pre : S → I → Prop) (R : S → A → Prop) : Prop where
  answer : ∀ s a i, R s a → pre s i → ∃ t, step s i = .ok ((spec a i).1, t) ∧ R t (spec a i).2

variable {step : S → I → Except E (O × S)} {spec : A → I → O × A} {pre : S → I → Prop}
  {R : S → A → Prop}

/-- **Forward simulation**: a permitted run returns, with the answers of the
specification, in a state related to the specification's. -/
theorem Simulates.run (simulates : Simulates step spec pre R) {s : S} {a : A} (related : R s a)
    {is : List I} (permitted : Permitted step pre s is) :
    ∃ t, answers step s is = .ok ((expected spec a is).1, t) ∧ R t (expected spec a is).2 := by
  induction is generalizing s a with
  | nil => exact ⟨s, rfl, related⟩
  | cons i is ih =>
      obtain ⟨here, later⟩ := permitted
      obtain ⟨t, stepped, next⟩ := simulates.answer s a i related here
      obtain ⟨u, ran, final⟩ := ih next (later _ t stepped)
      refine ⟨u, ?_, final⟩
      rw [answers, stepped]
      simp only
      rw [ran]
      rfl

/-- What the steps of a run contribute, in order. -/
def gathered {B : Type*} (spec : A → I → O × A) (part : A → I → List B) (a : A) :
    List I → List B
  | [] => []
  | i :: is => part a i ++ gathered spec part (spec a i).2 is

/-- **Queue rule**: what has left the front and what is still held are together what was
held at first and what came in behind, in that order. -/
theorem gathered_append_content {B : Type*} (content : A → List B) {leaving : A → I → List B}
    {coming : I → List B}
    (conserved : ∀ a i, leaving a i ++ content (spec a i).2 = content a ++ coming i)
    (a : A) (is : List I) :
    gathered spec leaving a is ++ content (expected spec a is).2 =
      content a ++ is.flatMap coming := by
  induction is generalizing a with
  | nil => simp [gathered, expected]
  | cons i is ih =>
      calc gathered spec leaving a (i :: is) ++ content (expected spec a (i :: is)).2
          = leaving a i ++ (gathered spec leaving (spec a i).2 is ++
              content (expected spec (spec a i).2 is).2) := by
            rw [gathered, List.append_assoc, expected]
        _ = (leaving a i ++ content (spec a i).2) ++ is.flatMap coming := by
            rw [ih, List.append_assoc]
        _ = content a ++ (i :: is).flatMap coming := by
            rw [conserved, List.append_assoc, List.flatMap_cons]

/-- A budget that each step draws on permits a run that stays within it. -/
theorem permitted_of_budget {Q : Nat → S → Prop} {cost : I → Nat} {limit : Nat}
    {side : S → I → Prop}
    (afford : ∀ n s i, Q n s → n + cost i ≤ limit → side s i → pre s i)
    (spend : ∀ n s i o t, Q n s → pre s i → step s i = .ok (o, t) → Q (n + cost i) t)
    {n : Nat} {s : S} (holds : Q n s) {is : List I} (within : n + (is.map cost).sum ≤ limit)
    (sides : Permitted step side s is) : Permitted step pre s is := by
  induction is generalizing n s with
  | nil => trivial
  | cons i is ih =>
      rw [List.map_cons, List.sum_cons] at within
      obtain ⟨here, later⟩ := sides
      have permitted := afford n s i holds (by omega) here
      refine ⟨permitted, ?_⟩
      intro o t stepped
      exact ih (spend n s i o t holds permitted stepped) (by omega) (later o t stepped)

end CppFileServer.Theory
