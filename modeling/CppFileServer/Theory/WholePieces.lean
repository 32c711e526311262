/-
# Theory.WholePieces -- a bounded text that takes whole pieces

A piece asks for some room.  When the text leaves that much the piece is appended as
a whole, and otherwise it is dropped as a whole.  A text only grows, and it stays
below its limit when each piece is shorter than the room it asks for.
-/
import Mathlib.Data.List.Basic

namespace CppFileServer.Theory

set_option autoImplicit false

universe u

structure Piece (α : Type u) where
  text : List α
  room : Nat

namespace Piece

variable {α : Type u} {limit : Nat} {held : List α} {piece : Piece α}

/-- The text after a piece. -/
def put (limit : Nat) (held : List α) (piece : Piece α) : List α :=
  if held.length + piece.room ≤ limit then held ++ piece.text else held

def putAll (limit : Nat) (held : List α) (pieces : List (Piece α)) : List α :=
  pieces.foldl (put limit) held

/-- The text of a piece is shorter than its room. -/
def Roomy (piece : Piece α) : Prop := piece.text.length < piece.room

theorem put_of_room (room : held.length + piece.room ≤ limit) :
    put limit held piece = held ++ piece.text := if_pos room

theorem put_of_full (full : limit < held.length + piece.room) : put limit held piece = held :=
  if_neg (Nat.not_le.mpr full)

theorem length_put (limit : Nat) (held : List α) (piece : Piece α) :
    (put limit held piece).length =
      if held.length + piece.room ≤ limit then held.length + piece.text.length
      else held.length := by
  rw [put]
  split_ifs
  · exact List.length_append
  · rfl

theorem put_cases (limit : Nat) (held : List α) (piece : Piece α) :
    put limit held piece = held ∨ put limit held piece = held ++ piece.text := by
  by_cases room : held.length + piece.room ≤ limit
  · exact Or.inr (put_of_room room)
  · exact Or.inl (put_of_full (Nat.not_le.mp room))

theorem prefix_put (limit : Nat) (held : List α) (piece : Piece α) :
    held <+: put limit held piece := by
  rcases put_cases limit held piece with same | longer
  · exact ⟨[], (List.append_nil held).trans same.symm⟩
  · rw [longer]
    exact List.prefix_append _ _

theorem put_length (roomy : piece.Roomy) (below : held.length < limit) :
    (put limit held piece).length < limit := by
  by_cases room : held.length + piece.room ≤ limit
  · rw [put_of_room room, List.length_append]
    have short : piece.text.length < piece.room := roomy
    omega
  · rwa [put_of_full (Nat.not_le.mp room)]

@[simp] theorem putAll_nil (limit : Nat) (held : List α) : putAll limit held [] = held := rfl

@[simp] theorem putAll_cons (limit : Nat) (held : List α) (piece : Piece α)
    (pieces : List (Piece α)) :
    putAll limit held (piece :: pieces) = putAll limit (put limit held piece) pieces := rfl

theorem putAll_append (limit : Nat) (held : List α) (pieces later : List (Piece α)) :
    putAll limit held (pieces ++ later) = putAll limit (putAll limit held pieces) later :=
  List.foldl_append

/-- **Run lemma**: the text stays below its limit. -/
theorem putAll_length {pieces : List (Piece α)} (roomy : ∀ piece ∈ pieces, piece.Roomy)
    (below : held.length < limit) : (putAll limit held pieces).length < limit := by
  induction pieces generalizing held with
  | nil => exact below
  | cons piece pieces ih =>
      exact ih (fun p inside => roomy p (List.mem_cons_of_mem _ inside))
        (put_length (roomy piece List.mem_cons_self) below)

end Piece

end CppFileServer.Theory
