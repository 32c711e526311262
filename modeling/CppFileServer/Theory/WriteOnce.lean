/-
# Theory.WriteOnce -- a store in which every key is written once

A key holds nothing until the first `put` at it, and from then on the value of that
`put`; a later `put` is refused, and a `get` changes nothing.
-/
import Mathlib.Logic.Function.Basic

namespace CppFileServer.Theory

set_option autoImplicit false

universe u v

/-- What is held at each key. -/
abbrev Store (K : Type u) (V : Type v) := K → Option V

inductive StoreCall (K : Type u) (V : Type v)
  | put (key : K) (value : V)
  | get (key : K)

namespace Store

variable {K : Type u} {V : Type v} [DecidableEq K] {store : Store K V} {key : K} {value : V}

def after (store : Store K V) : StoreCall K V → Store K V
  | .put key value => if store key = none then Function.update store key (some value) else store
  | .get _ => store

/-- The store after some calls. -/
def afterAll (store : Store K V) (calls : List (StoreCall K V)) : Store K V :=
  calls.foldl after store

theorem afterAll_append (store : Store K V) (before : List (StoreCall K V)) (call : StoreCall K V)
    (later : List (StoreCall K V)) :
    store.afterAll (before ++ call :: later) = ((store.afterAll before).after call).afterAll later :=
  List.foldl_append

theorem after_put_free (free : store key = none) :
    store.after (.put key value) = Function.update store key (some value) := if_pos free

theorem after_put_held (held : store key ≠ none) : store.after (.put key value) = store :=
  if_neg held

/-- What is held stays. -/
theorem after_held (held : store key = some value) (call : StoreCall K V) :
    store.after call key = some value := by
  cases call with
  | get other => exact held
  | put other new =>
      by_cases free : store other = none
      · have elsewhere : key ≠ other := by
          rintro rfl
          rw [free] at held
          cases held
        rw [after_put_free free, Function.update_of_ne elsewhere, held]
      · rw [after_put_held free, held]

theorem afterAll_held (held : store key = some value) (calls : List (StoreCall K V)) :
    store.afterAll calls key = some value := by
  induction calls generalizing store with
  | nil => exact held
  | cons call calls ih => exact ih (after_held held call)

/-- **A key that was free when it was written holds that value, whatever follows.** -/
theorem afterAll_put (free : store key = none) (value : V) (calls : List (StoreCall K V)) :
    (store.after (.put key value)).afterAll calls key = some value := by
  apply afterAll_held
  rw [after_put_free free, Function.update_self]

end Store

end CppFileServer.Theory
