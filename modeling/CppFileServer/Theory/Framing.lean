/-
# Theory.Framing -- a receiver that takes messages off the front of its input

`next` takes one message off the front of an input, when a whole one is there.  A message is
framed when that works whatever stands behind it, and not before all of it is there.  A stream
of framed messages is received as it was sent, wherever it is cut off (`receive_stream`).
-/
import Mathlib.Data.List.Basic
import Mathlib.Data.List.Infix

namespace CppFileServer.Theory

set_option autoImplicit false

universe u v w

variable {α : Type u} {β : Type v} (next : List α → Option (β × List α))

/-- The message is taken off as `b`, as soon as all of it has come. -/
structure Framed (message : List α) (b : β) : Prop where
  nonempty : message ≠ []
  whole : ∀ rest, next (message ++ rest) = some (b, rest)
  part : ∀ front missing, front ++ missing = message → missing ≠ [] → next front = none

def receiveUpTo : Nat → List α → List β × List α
  | 0, input => ([], input)
  | fuel + 1, input =>
      match next input with
      | none => ([], input)
      | some (b, rest) =>
          let (bs, rest) := receiveUpTo fuel rest
          (b :: bs, rest)

/-- The messages of an input, one after another, and what is left. -/
def receive (input : List α) : List β × List α := receiveUpTo next input.length input

variable {next}

theorem receiveUpTo_of_none {input : List α} (refused : next input = none) (fuel : Nat) :
    receiveUpTo next fuel input = ([], input) := by
  cases fuel with
  | zero => rfl
  | succ fuel => rw [receiveUpTo, refused]

theorem receiveUpTo_of_some {input rest : List α} {b : β} (taken : next input = some (b, rest))
    (fuel : Nat) : receiveUpTo next (fuel + 1) input =
      (b :: (receiveUpTo next fuel rest).1, (receiveUpTo next fuel rest).2) := by
  rw [receiveUpTo, taken]

/-! ## A stream of messages -/

variable {ι : Type w} {encode : ι → List α} {decode : ι → β}

/-- What a stream is cut into: the messages that have come, and a part of what comes next. -/
structure Arrived (encode : ι → List α) (sent : List ι) (tail input : List α) (done todo : List ι)
    (rest : List α) : Prop where
  split : sent = done ++ todo
  input : input = (done.map encode).flatten ++ rest
  within : rest <+: (todo.map encode).flatten ++ tail
  short : ∀ x ∈ todo.head?, rest.length < (encode x).length

/-- Every cut of a stream is one between two messages or inside of one. -/
theorem arrived_of_prefix {sent : List ι} {tail input : List α}
    (cut : input <+: (sent.map encode).flatten ++ tail) :
    ∃ done todo rest, Arrived encode sent tail input done todo rest := by
  induction sent generalizing input with
  | nil => exact ⟨[], [], input, rfl, rfl, cut, nofun⟩
  | cons x sent ih =>
      rw [List.map_cons, List.flatten_cons, List.append_assoc] at cut
      by_cases complete : (encode x).length ≤ input.length
      · obtain ⟨later, rfl⟩ := List.prefix_of_prefix_length_le (List.prefix_append _ _) cut complete
        rw [List.prefix_append_right_inj] at cut
        obtain ⟨done, todo, rest, arrived⟩ := ih cut
        refine ⟨x :: done, todo, rest, ?_, ?_, arrived.within, arrived.short⟩
        · rw [arrived.split, List.cons_append]
        · rw [List.map_cons, List.flatten_cons, List.append_assoc, ← arrived.input]
      · refine ⟨[], x :: sent, input, rfl, rfl, ?_, ?_⟩
        · rw [List.map_cons, List.flatten_cons, List.append_assoc]
          exact cut
        · rintro first ⟨⟩
          exact Nat.lt_of_not_le complete

/-- What is left over is no message. -/
theorem Arrived.next_rest {sent done todo : List ι} {tail input rest : List α}
    (arrived : Arrived encode sent tail input done todo rest)
    (each : ∀ x ∈ sent, Framed next (encode x) (decode x))
    (silent : ∀ front, front <+: tail → next front = none) : next rest = none := by
  obtain ⟨split, -, within, short⟩ := arrived
  cases todo with
  | nil => exact silent rest within
  | cons x todo =>
      have short := short x rfl
      rw [List.map_cons, List.flatten_cons, List.append_assoc] at within
      obtain ⟨missing, cut⟩ :=
        List.prefix_of_prefix_length_le within (List.prefix_append _ _) short.le
      refine (each x (by simp [split])).part rest missing cut ?_
      rintro rfl
      rw [List.append_nil] at cut
      exact absurd (congrArg List.length cut) short.ne

theorem receiveUpTo_messages {sent : List ι} (each : ∀ x ∈ sent, Framed next (encode x) (decode x))
    {rest : List α} (refused : next rest = none) {fuel : Nat}
    (enough : ((sent.map encode).flatten ++ rest).length ≤ fuel) :
    receiveUpTo next fuel ((sent.map encode).flatten ++ rest) = (sent.map decode, rest) := by
  induction sent generalizing fuel with
  | nil => exact receiveUpTo_of_none refused fuel
  | cons x sent ih =>
      obtain ⟨framed, each⟩ := List.forall_mem_cons.mp each
      have weight := List.length_pos_of_ne_nil framed.nonempty
      rw [List.map_cons, List.flatten_cons, List.append_assoc] at enough ⊢
      rw [List.length_append] at enough
      obtain ⟨fuel, rfl⟩ : ∃ fewer, fuel = fewer + 1 := ⟨fuel - 1, by omega⟩
      rw [receiveUpTo_of_some (framed.whole _), ih each (by omega)]
      rfl

/-- **A stream of framed messages is received as it was sent**, up to where it is cut off. -/
theorem receive_stream {sent : List ι} {tail input : List α}
    (each : ∀ x ∈ sent, Framed next (encode x) (decode x))
    (silent : ∀ front, front <+: tail → next front = none)
    (cut : input <+: (sent.map encode).flatten ++ tail) :
    ∃ done todo rest, Arrived encode sent tail input done todo rest ∧
      receive next input = (done.map decode, rest) := by
  obtain ⟨done, todo, rest, arrived⟩ := arrived_of_prefix cut
  refine ⟨done, todo, rest, arrived, ?_⟩
  have each' : ∀ x ∈ done, Framed next (encode x) (decode x) := by
    intro x among
    exact each x (by rw [arrived.split]; exact List.mem_append_left _ among)
  rw [receive, arrived.input]
  exact receiveUpTo_messages each' (arrived.next_rest each silent) (le_refl _)

end CppFileServer.Theory
