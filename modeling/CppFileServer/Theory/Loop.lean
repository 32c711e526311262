/-
# Theory.Loop -- a loop with fuel whose turns decrease a weight

`loop` runs a body turn by turn; its fuel keeps it structural, so that concrete
runs evaluate.  When every turn that goes on decreases a weight, fuel above the
weight is never used up, and the loop unfolds as if it had none (`loop_eq`).  What
every turn keeps and every last turn leads to then holds of the loop (`loop_rule`).
-/
import Mathlib.Data.List.Basic

namespace CppFileServer.Theory

set_option autoImplicit false

universe u v w

/-- What one turn of a loop ends with: a result, or a state to go on from. -/
inductive Turn (S : Type u) (R : Type v)
  | done (result : R)
  | again (state : S)

variable {S : Type u} {R : Type v} {E : Type w}

def loop (body : S → Except E (Turn S R)) (exhausted : E) : Nat → S → Except E R
  | 0, _ => .error exhausted
  | fuel + 1, s =>
      match body s with
      | .error e => .error e
      | .ok (.done r) => .ok r
      | .ok (.again s') => loop body exhausted fuel s'

variable {body : S → Except E (Turn S R)} {exhausted : E}

theorem loop_fuel (weight : S → Nat)
    (decreases : ∀ s s', body s = .ok (.again s') → weight s' < weight s)
    {fuel : Nat} {s : S} (enough : weight s < fuel) :
    loop body exhausted fuel s = loop body exhausted (weight s + 1) s := by
  induction fuel using Nat.strongRecOn generalizing s with
  | ind fuel ih =>
      obtain ⟨fuel, rfl⟩ : ∃ n, fuel = n + 1 := ⟨fuel - 1, by omega⟩
      rw [loop, loop]
      cases turned : body s with
      | error e => rfl
      | ok turn =>
          cases turn with
          | done r => rfl
          | again s' =>
              have lighter := decreases s s' turned
              show loop body exhausted fuel s' = loop body exhausted (weight s) s'
              rw [ih fuel (by omega) (by omega)]
              by_cases last : weight s < fuel
              · exact (ih (weight s) (by omega) lighter).symm
              · rw [show weight s = fuel by omega, ih fuel (by omega) (by omega)]

/-- **The loop without its fuel.** -/
theorem loop_eq (weight : S → Nat)
    (decreases : ∀ s s', body s = .ok (.again s') → weight s' < weight s) (s : S) :
    loop body exhausted (weight s + 1) s = match body s with
      | .error e => .error e
      | .ok (.done r) => .ok r
      | .ok (.again s') => loop body exhausted (weight s' + 1) s' := by
  rw [loop]
  cases turned : body s with
  | error e => rfl
  | ok turn =>
      cases turn with
      | done r => rfl
      | again s' => exact loop_fuel weight decreases (decreases s s' turned)

/-- **Loop rule**: each turn from a state with `P` goes on to one, or ends with what `Q` asks. -/
theorem loop_rule (weight : S → Nat) {P : S → Prop} {Q : Except E R → Prop}
    (again : ∀ s s', P s → body s = .ok (.again s') → P s' ∧ weight s' < weight s)
    (done : ∀ s r, P s → body s = .ok (.done r) → Q (.ok r))
    (thrown : ∀ s e, P s → body s = .error e → Q (.error e))
    {fuel : Nat} {s : S} (initial : P s) (enough : weight s < fuel) :
    Q (loop body exhausted fuel s) := by
  induction fuel generalizing s with
  | zero => exact absurd enough (Nat.not_lt_zero _)
  | succ fuel ih =>
      rw [loop]
      cases turned : body s with
      | error e => exact thrown s e initial turned
      | ok turn =>
          cases turn with
          | done r => exact done s r initial turned
          | again s' =>
              obtain ⟨kept, lighter⟩ := again s s' initial turned
              exact ih kept (by omega)

end CppFileServer.Theory
