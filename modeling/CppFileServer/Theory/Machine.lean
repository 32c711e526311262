/-
# Theory.Machine -- components that take steps

A component is a partial step: `step s a` is `none` when the action cannot be
taken in that state, and otherwise its outcome, which may be a fault.  A run is a
sequence of steps that return, so `Reaches` is the reflexive transitive closure of
one such step.  The rules say what every run keeps, and what no run undoes.
-/
import Mathlib.Logic.Relation

namespace CppFileServer.Theory

set_option autoImplicit false

universe u v w

variable {S : Type u} {A : Type v} {E : Type w} (step : S → A → Option (Except E S))

/-- One step that returns. -/
def Next (s t : S) : Prop := ∃ a, step s a = some (.ok t)

/-- A run leads from `s` to `t`. -/
def Reaches : S → S → Prop := Relation.ReflTransGen (Next step)

/-- The state after the actions, when each can be taken and returns. -/
def perform (s : S) : List A → Option S
  | [] => some s
  | a :: as =>
      match step s a with
      | some (.ok t) => perform t as
      | _ => none

/-- Each action of the run is taken in a state where `ok` allows it. -/
def Throughout (ok : S → A → Prop) (s : S) : List A → Prop
  | [] => True
  | a :: as => ok s a ∧ ∀ t, step s a = some (.ok t) → Throughout ok t as

variable {step}

theorem Reaches.refl (s : S) : Reaches step s s := Relation.ReflTransGen.refl

theorem reaches_of_perform {s t : S} {as : List A} (performed : perform step s as = some t) :
    Reaches step s t := by
  induction as generalizing s with
  | nil =>
      cases performed
      exact Reaches.refl _
  | cons a as ih =>
      rw [perform] at performed
      split at performed
      · exact Relation.ReflTransGen.head ⟨a, ‹_›⟩ (ih performed)
      · cases performed

/-- **Invariant rule**: what every step keeps, every run keeps. -/
theorem Reaches.invariant {P : S → Prop}
    (preserved : ∀ s a t, P s → step s a = some (.ok t) → P t)
    {s t : S} (reaches : Reaches step s t) (initial : P s) : P t := by
  induction reaches with
  | refl => exact initial
  | tail _ next ih =>
      obtain ⟨a, stepped⟩ := next
      exact preserved _ a _ ih stepped

theorem perform_cons {s t : S} {a : A} {as : List A} (performed : perform step s (a :: as) = some t) :
    ∃ u, step s a = some (.ok u) ∧ perform step u as = some t := by
  rw [perform] at performed
  split at performed
  · exact ⟨_, ‹_›, performed⟩
  · cases performed

theorem perform_append {s t : S} {as bs : List A} :
    perform step s (as ++ bs) = some t ↔
      ∃ u, perform step s as = some u ∧ perform step u bs = some t := by
  induction as generalizing s with
  | nil =>
      constructor
      · exact fun performed => ⟨s, rfl, performed⟩
      · rintro ⟨u, ⟨⟩, performed⟩
        exact performed
  | cons a as ih =>
      rw [List.cons_append, perform, perform]
      split
      · exact ih
      · constructor
        · exact fun impossible => by cases impossible
        · rintro ⟨u, impossible, -⟩
          cases impossible

/-- What is allowed throughout a run is allowed at its last step. -/
theorem Throughout.last {ok : S → A → Prop} {s t : S} {as : List A} {a : A}
    (allowed : Throughout step ok s (as ++ [a])) (performed : perform step s as = some t) :
    ok t a := by
  induction as generalizing s with
  | nil =>
      cases performed
      exact allowed.1
  | cons b as ih =>
      obtain ⟨u, stepped, performed⟩ := perform_cons performed
      exact ih (allowed.2 u stepped) performed

theorem throughout_of_forall {ok : S → A → Prop} {s : S} {as : List A}
    (allowed : ∀ s, ∀ a ∈ as, ok s a) : Throughout step ok s as := by
  induction as generalizing s with
  | nil => trivial
  | cons a as ih =>
      refine ⟨allowed s a List.mem_cons_self, ?_⟩
      intro t _
      exact ih fun s a inside => allowed s a (List.mem_cons_of_mem _ inside)

/-- **Conditional invariant rule**: what every allowed step keeps, every run of allowed
steps keeps. -/
theorem Throughout.invariant {ok : S → A → Prop} {P : S → Prop}
    (preserved : ∀ s a t, P s → ok s a → step s a = some (.ok t) → P t) {s t : S} {as : List A}
    (allowed : Throughout step ok s as) (performed : perform step s as = some t) (initial : P s) :
    P t := by
  induction as generalizing s with
  | nil =>
      cases performed
      exact initial
  | cons a as ih =>
      obtain ⟨u, stepped, performed⟩ := perform_cons performed
      exact ih (allowed.2 u stepped) performed (preserved s a u initial allowed.1 stepped)

/-- What holds at the allowed steps under an invariant holds throughout the run. -/
theorem Throughout.imp {ok ok' : S → A → Prop} {P : S → Prop}
    (preserved : ∀ s a t, P s → ok s a → step s a = some (.ok t) → P t)
    (allows : ∀ s a, P s → ok s a → ok' s a) {s : S} {as : List A}
    (allowed : Throughout step ok s as) (initial : P s) : Throughout step ok' s as := by
  induction as generalizing s with
  | nil => trivial
  | cons a as ih =>
      refine ⟨allows s a initial allowed.1, ?_⟩
      intro t stepped
      exact ih (allowed.2 t stepped) (preserved s a t initial allowed.1 stepped)

/-- **Detection rule**: when a step that is not allowed leaves a mark, and no step takes the
mark away, a run that ends without it was allowed throughout. -/
theorem throughout_of_unmarked {ok : S → A → Prop} {P marked : S → Prop}
    (preserved : ∀ s a t, P s → step s a = some (.ok t) → P t)
    (stays : ∀ s a t, marked s → step s a = some (.ok t) → marked t)
    (detected : ∀ s a t, P s → step s a = some (.ok t) → ok s a ∨ marked t) {s t : S} {as : List A}
    (performed : perform step s as = some t) (initial : P s) (unmarked : ¬ marked t) :
    Throughout step ok s as := by
  induction as generalizing s with
  | nil => trivial
  | cons a as ih =>
      obtain ⟨u, stepped, performed⟩ := perform_cons performed
      refine ⟨?_, ?_⟩
      · rcases detected s a u initial stepped with allowed | mark
        · exact allowed
        · have remains : marked t :=
            (reaches_of_perform performed).invariant stays mark
          exact absurd remains unmarked
      · intro v stepped'
        rw [stepped] at stepped'
        cases stepped'
        exact ih performed (preserved s a u initial stepped)

end CppFileServer.Theory
