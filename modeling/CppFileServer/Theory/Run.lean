/-
# Theory.Run -- runs of a step that may fault

A component is a step `S → I → Except E S`; its runs take the inputs in order and
end at the first fault.  `Along` says that a property holds at the start and
after every step, and that every step returns; `Meets` says that every step of
the run is taken from a state and an input that meet a condition.  The rules
here turn facts about one step into facts about whole runs.
-/
import Mathlib.Data.List.Basic
import Mathlib.Data.List.Infix

namespace CppFileServer.Theory

set_option autoImplicit false

universe u v w

variable {S : Type u} {I : Type v} {E : Type w} (step : S → I → Except E S)

/-- The state after all inputs, or the first fault. -/
def run (s : S) : List I → Except E S
  | [] => .ok s
  | i :: is =>
      match step s i with
      | .ok t => run t is
      | .error e => .error e

/-- `P` holds now and after every step, and every step returns. -/
def Along (P : S → Prop) (s : S) : List I → Prop
  | [] => P s
  | i :: is => P s ∧ ∃ t, step s i = .ok t ∧ Along P t is

/-- `P` holds now and after every step that returns. -/
def Safe (P : S → Prop) (s : S) : List I → Prop
  | [] => P s
  | i :: is => P s ∧ ∀ t, step s i = .ok t → Safe P t is

/-- Every step of the run starts from a state and an input that meet `ok`. -/
def Meets (ok : S → I → Prop) (s : S) : List I → Prop
  | [] => True
  | i :: is => ok s i ∧ ∀ t, step s i = .ok t → Meets ok t is

variable {step}

theorem run_cons_of_ok {s t : S} {i : I} (stepped : step s i = .ok t) (is : List I) :
    run step s (i :: is) = run step t is := by
  simp only [run, stepped]

theorem run_cons_eq_ok {s u : S} {i : I} {is : List I}
    (ran : run step s (i :: is) = .ok u) :
    ∃ t, step s i = .ok t ∧ run step t is = .ok u := by
  rw [run] at ran
  split at ran
  · exact ⟨_, ‹_›, ran⟩
  · cases ran

theorem run_append (s : S) (is js : List I) :
    run step s (is ++ js) = match run step s is with
      | .ok t => run step t js
      | .error e => .error e := by
  induction is generalizing s with
  | nil => rfl
  | cons i is ih =>
      rw [List.cons_append, run, run]
      cases step s i with
      | ok t => exact ih t
      | error e => rfl

theorem run_append_eq_ok {s u : S} {is js : List I} (ran : run step s (is ++ js) = .ok u) :
    ∃ t, run step s is = .ok t ∧ run step t js = .ok u := by
  rw [run_append] at ran
  split at ran
  · exact ⟨_, ‹_›, ran⟩
  · cases ran

/-- **Invariant rule**: what every step keeps, every run keeps. -/
theorem run_invariant {P : S → Prop} (preserved : ∀ s i t, P s → step s i = .ok t → P t)
    {s u : S} {is : List I} (ran : run step s is = .ok u) (initial : P s) : P u := by
  induction is generalizing s with
  | nil =>
      cases ran
      exact initial
  | cons i is ih =>
      obtain ⟨t, stepped, ran⟩ := run_cons_eq_ok ran
      exact ih ran (preserved s i t initial stepped)

/-- **Condition rule**: two conditions that agree on the states of an invariant are
met by the same runs, when the steps that meet them keep the invariant. -/
theorem meets_iff_meets {Q : S → Prop} {good ok : S → I → Prop}
    (exact_step : ∀ s i, Q s → (good s i ↔ ok s i))
    (kept : ∀ s i t, Q s → ok s i → step s i = .ok t → Q t)
    {s : S} (initial : Q s) (is : List I) : Meets step good s is ↔ Meets step ok s is := by
  induction is generalizing s with
  | nil => exact Iff.rfl
  | cons i is ih =>
      constructor
      · rintro ⟨here, later⟩
        have met := (exact_step s i initial).mp here
        exact ⟨met, fun t stepped => (ih (kept s i t initial met stepped)).mp (later t stepped)⟩
      · rintro ⟨met, later⟩
        refine ⟨(exact_step s i initial).mpr met, ?_⟩
        intro t stepped
        exact (ih (kept s i t initial met stepped)).mpr (later t stepped)

/-- **Exactness rule**: `P` is what a run has to keep and `Q` the invariant behind
it.  When a step from a state with `Q` returns a state with `P` exactly if it meets
the condition, a run keeps `P` throughout exactly if all its steps meet it. -/
theorem along_iff_meets {P Q : S → Prop} {ok : S → I → Prop} (stronger : ∀ s, Q s → P s)
    (exact_step : ∀ s i, Q s → ((∃ t, step s i = .ok t ∧ P t) ↔ ok s i))
    (kept : ∀ s i t, Q s → step s i = .ok t → P t → Q t)
    {s : S} (initial : Q s) (is : List I) :
    Along step P s is ↔ Meets step ok s is := by
  induction is generalizing s with
  | nil => exact ⟨fun _ => trivial, fun _ => stronger s initial⟩
  | cons i is ih =>
      constructor
      · rintro ⟨_, t, stepped, later⟩
        have good : P t := by
          cases is with
          | nil => exact later
          | cons _ _ => exact later.1
        refine ⟨(exact_step s i initial).mp ⟨t, stepped, good⟩, ?_⟩
        intro u stepped'
        rw [stepped, Except.ok.injEq] at stepped'
        subst stepped'
        exact (ih (kept s i t initial stepped good)).mp later
      · rintro ⟨met, later⟩
        obtain ⟨t, stepped, good⟩ := (exact_step s i initial).mpr met
        refine ⟨stronger s initial, t, stepped, ?_⟩
        exact (ih (kept s i t initial stepped good)).mpr (later t stepped)

/-- **Exactness rule for runs that may fault**: when a step from a state with `Q` leads
only to states with `P` exactly if it meets the condition, a property is safe along a
run exactly if all steps of the run meet it. -/
theorem safe_iff_meets {P Q : S → Prop} {ok : S → I → Prop} (stronger : ∀ s, Q s → P s)
    (exact_step : ∀ s i, Q s → ((∀ t, step s i = .ok t → P t) ↔ ok s i))
    (kept : ∀ s i t, Q s → step s i = .ok t → P t → Q t)
    {s : S} (initial : Q s) (is : List I) : Safe step P s is ↔ Meets step ok s is := by
  have here {t : S} {is : List I} (safe : Safe step P t is) : P t := by
    cases is with
    | nil => exact safe
    | cons _ _ => exact safe.1
  induction is generalizing s with
  | nil => exact ⟨fun _ => trivial, fun _ => stronger s initial⟩
  | cons i is ih =>
      constructor
      · rintro ⟨_, later⟩
        refine ⟨(exact_step s i initial).mp fun t stepped => here (later t stepped), ?_⟩
        intro t stepped
        have safe := later t stepped
        exact (ih (kept s i t initial stepped (here safe))).mp safe
      · rintro ⟨met, later⟩
        refine ⟨stronger s initial, ?_⟩
        intro t stepped
        have good := (exact_step s i initial).mpr met t stepped
        exact (ih (kept s i t initial stepped good)).mpr (later t stepped)

end CppFileServer.Theory
