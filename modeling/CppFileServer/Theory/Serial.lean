/-
# Theory.Serial -- calls on one object, by several clients

An object answers calls one after another.  `history` is what it answers to a list of calls
of several clients, `outcome` what has become of it then, and `of` the share of one client:
the client sees only this share, the object all of it.
-/
import Mathlib.Data.List.Basic

namespace CppFileServer.Theory

set_option autoImplicit false

universe u v w x y

namespace Serial

/-- The share of one client, in order. -/
def of {K : Type u} {X : Type v} [DecidableEq K] (k : K) (h : List (K × X)) : List X :=
  (h.filter fun entry => entry.1 = k).map Prod.snd

section Share

variable {K : Type u} {X : Type v} [DecidableEq K] {k : K} {h h' : List (K × X)} {x : X}

@[simp] theorem of_nil : of k ([] : List (K × X)) = [] := rfl

@[simp] theorem of_append : of k (h ++ h') = of k h ++ of k h' := by
  simp [of]

@[simp] theorem of_cons_self : of k ((k, x) :: h) = x :: of k h := by
  simp [of]

theorem of_cons_ne {j : K} (other : j ≠ k) : of k ((j, x) :: h) = of k h := by
  simp [of, other]

theorem mem_of : x ∈ of k h ↔ (k, x) ∈ h := by
  simp [of]

end Share

variable {W : Type u} {O : Type v} {R : Type w} {K : Type x} (op : W → O → W × R)

/-- The object after the calls. -/
def outcome (start : W) (calls : List (K × O)) : W :=
  calls.foldl (fun world call => (op world call.2).1) start

/-- The calls with their answers. -/
def history (start : W) : List (K × O) → List (K × O × R)
  | [] => []
  | (k, o) :: calls => (k, o, (op start o).2) :: history (op start o).1 calls

variable {op} {start : W} {calls later : List (K × O)}

@[simp] theorem outcome_nil : outcome op start ([] : List (K × O)) = start := rfl

theorem outcome_cons {k : K} {o : O} :
    outcome op start ((k, o) :: calls) = outcome op (op start o).1 calls := rfl

theorem outcome_append : outcome op start (calls ++ later) =
    outcome op (outcome op start calls) later := List.foldl_append

theorem outcome_concat {k : K} {o : O} :
    outcome op start (calls ++ [(k, o)]) = (op (outcome op start calls) o).1 := by
  rw [outcome_append]
  rfl

theorem history_append : history op start (calls ++ later) =
    history op start calls ++ history op (outcome op start calls) later := by
  induction calls generalizing start with
  | nil => rfl
  | cons call calls ih =>
      obtain ⟨k, o⟩ := call
      rw [List.cons_append, history, ih, history]
      rfl

theorem history_concat {k : K} {o : O} : history op start (calls ++ [(k, o)]) =
    history op start calls ++ [(k, o, (op (outcome op start calls) o).2)] := by
  rw [history_append]
  rfl

/-- Every call has an entry in the history. -/
theorem history_entry {call : K × O} (inside : call ∈ calls) :
    ∃ entry ∈ history op start calls, (entry.1, entry.2.1) = call := by
  induction calls generalizing start with
  | nil => cases inside
  | cons first calls ih =>
      rcases List.mem_cons.mp inside with rfl | later
      · exact ⟨_, List.mem_cons_self, rfl⟩
      · obtain ⟨entry, found, same⟩ : ∃ entry ∈ history op (op start first.2).1 calls,
            (entry.1, entry.2.1) = call := ih later
        exact ⟨entry, List.mem_cons_of_mem _ found, same⟩

/-- A client makes the calls that it gets answers to. -/
theorem of_history [DecidableEq K] (k : K) :
    (of k (history op start calls)).map Prod.fst = of k calls := by
  induction calls generalizing start with
  | nil => rfl
  | cons call calls ih =>
      obtain ⟨j, o⟩ := call
      by_cases same : j = k
      · rw [history, same, of_cons_self, of_cons_self, List.map_cons, ih]
      · rw [history, of_cons_ne same, of_cons_ne same, ih]

/-- **An answer is that of the object after the calls before it.** -/
theorem history_split {before after : List (K × O × R)} {k : K} {o : O} {r : R}
    (split : history op start calls = before ++ (k, o, r) :: after) :
    ∃ earlier rest, calls = earlier ++ (k, o) :: rest ∧
      before = history op start earlier ∧ r = (op (outcome op start earlier) o).2 ∧
      after = history op (op (outcome op start earlier) o).1 rest := by
  induction before generalizing start calls with
  | nil =>
      cases calls with
      | nil => cases split
      | cons call calls =>
          cases split
          exact ⟨[], calls, rfl, rfl, rfl, rfl⟩
  | cons entry before ih =>
      cases calls with
      | nil => cases split
      | cons call calls =>
          obtain ⟨k', o'⟩ := call
          rw [history, List.cons_append, List.cons.injEq] at split
          obtain ⟨earlier, rest, rfl, same, answer, remaining⟩ := ih split.2
          refine ⟨(k', o') :: earlier, rest, rfl, ?_, answer, remaining⟩
          rw [history, ← same, split.1]

end Serial

end CppFileServer.Theory
