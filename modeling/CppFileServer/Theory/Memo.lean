/-
# Theory.Memo -- a cache of one entry

The cache holds the last key it was asked for and what was computed for it, over what was
there before.  What it starts with nobody has computed: so it tells the truth from the first
key on that is not the one it starts with (`value_after_iff`).
-/
import Mathlib.Data.List.Basic

namespace CppFileServer.Theory

set_option autoImplicit false

universe u v w

structure Memo (K : Type u) (V : Type v) where
  key : K
  value : V

namespace Memo

variable {K : Type u} {V : Type v} {W : Type w} [DecidableEq K] (compute : V → K → V)

/-- The cache, after it was asked for a key. -/
def look (m : Memo K V) (k : K) : Memo K V :=
  if m.key ≠ k then ⟨k, compute m.value k⟩ else m

def after (m : Memo K V) (ks : List K) : Memo K V := ks.foldl (look compute) m

/-- The value is what there is to see for the key. -/
def Good (view : V → W) (plain : K → W) (m : Memo K V) : Prop := view m.value = plain m.key

variable {compute} {view : V → W} {plain : K → W}

theorem look_key (m : Memo K V) (k : K) : (m.look compute k).key = k := by
  unfold look
  split_ifs with other
  · rfl
  · exact not_not.mp other

theorem look_self (m : Memo K V) : m.look compute m.key = m := if_neg (not_not.mpr rfl)

theorem good_look_iff (computes : ∀ v k, view (compute v k) = plain k) (m : Memo K V) (k : K) :
    (m.look compute k).Good view plain ↔ k ≠ m.key ∨ m.Good view plain := by
  by_cases same : k = m.key
  · subst same
    rw [look_self]
    simp
  · rw [look, if_pos (Ne.symm same)]
    simp [Good, computes, same]

theorem good_after_iff (computes : ∀ v k, view (compute v k) = plain k) (m : Memo K V)
    (ks : List K) : (m.after compute ks).Good view plain ↔
      (∃ k ∈ ks, k ≠ m.key) ∨ m.Good view plain := by
  induction ks generalizing m with
  | nil => simp [after]
  | cons k ks ih =>
      have later : m.after compute (k :: ks) = (m.look compute k).after compute ks := rfl
      rw [later, ih, look_key, good_look_iff computes]
      by_cases same : k = m.key
      · subst same
        simp
      · simp [same]

/-- **What the cache tells of the last key**: the truth, unless that key and all keys before it
are the one that it starts with. -/
theorem value_after_iff (computes : ∀ v k, view (compute v k) = plain k) (m : Memo K V)
    (ks : List K) (k : K) : view (m.after compute (ks ++ [k])).value = plain k ↔
      (k ≠ m.key ∨ ∃ k' ∈ ks, k' ≠ m.key) ∨ m.Good view plain := by
  have key : (m.after compute (ks ++ [k])).key = k := by
    rw [after, List.foldl_append]
    exact look_key _ k
  have good := good_after_iff computes m (ks ++ [k])
  rw [Good, key] at good
  rw [good]
  simp only [List.mem_append, List.mem_singleton, or_and_right, exists_or, exists_eq_left]
  rw [or_comm (a := k ≠ m.key)]

end Memo

end CppFileServer.Theory
