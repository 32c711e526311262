/-
# Theory.TwoRuns -- one computation follows another

Two computations that may throw follow each other when both throw the same or both
return, with related results.  Loops follow each other when their turns do
(`loop_follows`), so that a relation between two states is carried through two runs
of a loop by what one turn does to it.
-/
import CppFileServer.Theory.Loop

namespace CppFileServer.Theory

set_option autoImplicit false

universe u v w

variable {S S' : Type u} {R R' : Type v} {E : Type w}

/-- Both throw the same, or both return and the results are related. -/
inductive Follows {A : Type u} {B : Type v} (rel : A → B → Prop) : Except E A → Except E B → Prop
  | error (e : E) : Follows rel (.error e) (.error e)
  | ok {a : A} {b : B} (related : rel a b) : Follows rel (.ok a) (.ok b)

/-- Two turns both go on or both end. -/
inductive Turn.Follows (rel : S → S' → Prop) (result : R → R' → Prop) :
    Turn S R → Turn S' R' → Prop
  | done {r : R} {r' : R'} (related : result r r') : Turn.Follows rel result (.done r) (.done r')
  | again {s : S} {s' : S'} (related : rel s s') : Turn.Follows rel result (.again s) (.again s')

/-- **Two loops follow each other** when their turns do. -/
theorem loop_follows {body : S → Except E (Turn S R)} {body' : S' → Except E (Turn S' R')}
    {rel : S → S' → Prop} {result : R → R' → Prop} (exhausted : E)
    (turns : ∀ s s', rel s s' → Follows (Turn.Follows rel result) (body s) (body' s'))
    (fuel : Nat) {s : S} {s' : S'} (related : rel s s') :
    Follows result (loop body exhausted fuel s) (loop body' exhausted fuel s') := by
  induction fuel generalizing s s' with
  | zero => exact .error exhausted
  | succ fuel ih =>
      rw [loop, loop]
      have turned := turns s s' related
      generalize body s = turn at turned ⊢
      generalize body' s' = turn' at turned ⊢
      cases turned with
      | error e => exact .error e
      | ok turned =>
          cases turned with
          | done ended => exact .ok ended
          | again later => exact ih later

end CppFileServer.Theory
