/-
# Theory.Decoder -- incremental decoders and how their input may be cut

A decoder holds a state with a buffer of input inside it.  New input is pushed
at the end of the buffer; one pass either waits for more input, stops with a
result (which keeps the unread rest of the buffer), or goes on in another state.
Its decisions are *stable*: a pass that does not wait decides the same, with the
new input left over, when more input stands behind what it read.

Three things follow for every such decoder.  Draining after a push is the same
as draining first (`drain_push`); feeding a list of segments one after another
is the same as feeding their concatenation (`feed_drain`); and a read of a stream
of messages yields the next message or waits inside it (`read_stream`).
-/
import Mathlib.Data.List.Basic
import Mathlib.Data.List.Infix

namespace CppFileServer.Theory

set_option autoImplicit false

universe u v w

/-- What one pass over the held input decides. -/
inductive Pass (S : Type u) (R : Type v)
  | wait
  | stop (result : R)
  | next (state : S)

/-- The same decision over other states and results. -/
def Pass.map {S : Type u} {R : Type v} (f : S → S) (g : R → R) : Pass S R → Pass S R
  | .wait => .wait
  | .stop r => .stop (g r)
  | .next s => .next (f s)

/-- What draining ends with: a state that waits, or a result. -/
inductive Verdict (S : Type u) (R : Type v)
  | waiting (state : S)
  | stopped (result : R)

/-- A decoder with states `S`, results `R` and input symbols `α`. -/
structure Decoder (S : Type u) (R : Type v) (α : Type w) where
  push : S → List α → S
  /-- Input that arrives behind a result belongs to the unread rest. -/
  pushResult : R → List α → R
  pass : S → Pass S R
  /-- Decreases with every pass that goes on. -/
  weight : S → Nat
  push_nil : ∀ s, push s [] = s
  push_push : ∀ s xs ys, push (push s xs) ys = push s (xs ++ ys)
  pushResult_nil : ∀ r, pushResult r [] = r
  pushResult_pushResult : ∀ r xs ys,
    pushResult (pushResult r xs) ys = pushResult r (xs ++ ys)
  /-- Stability: a pass that does not wait decides the same with more input behind. -/
  pass_push : ∀ {s}, pass s ≠ .wait → ∀ xs,
    pass (push s xs) = (pass s).map (push · xs) (pushResult · xs)
  next_weight : ∀ {s s'}, pass s = .next s' → weight s' < weight s

namespace Decoder

variable {S : Type u} {R : Type v} {α : Type w} (d : Decoder S R α)

theorem next_push {s s' : S} (passed : d.pass s = .next s') (xs : List α) :
    d.pass (d.push s xs) = .next (d.push s' xs) := by
  rw [d.pass_push (by simp [passed]), passed, Pass.map]

theorem stop_push {s : S} {r : R} (passed : d.pass s = .stop r) (xs : List α) :
    d.pass (d.push s xs) = .stop (d.pushResult r xs) := by
  rw [d.pass_push (by simp [passed]), passed, Pass.map]

/-! ## Draining -/

/-- Pass after pass until the decoder waits or stops. -/
def drain (s : S) : Verdict S R :=
  match _passed : d.pass s with
  | .wait => .waiting s
  | .stop r => .stopped r
  | .next s' => drain s'
termination_by d.weight s
decreasing_by exact d.next_weight _passed

variable {d}

theorem drain_of_wait {s : S} (passed : d.pass s = .wait) : d.drain s = .waiting s := by
  rw [drain]
  split <;> simp_all

theorem drain_of_stop {s : S} {r : R} (passed : d.pass s = .stop r) :
    d.drain s = .stopped r := by
  rw [drain]
  split <;> simp_all

theorem drain_of_next {s s' : S} (passed : d.pass s = .next s') :
    d.drain s = d.drain s' := by
  rw [drain]
  split <;> simp_all

variable (d)

/-- The decoder waits in the state draining ends with. -/
theorem pass_of_waiting {s s' : S} (drained : d.drain s = .waiting s') : d.pass s' = .wait := by
  induction measured : d.weight s using Nat.strongRecOn generalizing s with
  | ind n ih =>
      cases passed : d.pass s with
      | wait =>
          rw [drain_of_wait passed, Verdict.waiting.injEq] at drained
          rw [← drained, passed]
      | stop r => rw [drain_of_stop passed] at drained; cases drained
      | next t =>
          rw [drain_of_next passed] at drained
          exact ih (d.weight t) (measured ▸ d.next_weight passed) drained rfl

/-- **Draining commutes with new input**: what a decoder makes of a longer input
is what it makes of the rest, once the first part is drained. -/
theorem drain_push (s : S) (xs : List α) :
    d.drain (d.push s xs) = match d.drain s with
      | .waiting s' => d.drain (d.push s' xs)
      | .stopped r => .stopped (d.pushResult r xs) := by
  induction measured : d.weight s using Nat.strongRecOn generalizing s with
  | ind n ih =>
      cases passed : d.pass s with
      | wait => rw [drain_of_wait passed]
      | stop r => rw [drain_of_stop passed, drain_of_stop (d.stop_push passed xs)]
      | next t =>
          rw [drain_of_next passed, drain_of_next (d.next_push passed xs)]
          exact ih (d.weight t) (measured ▸ d.next_weight passed) t rfl

theorem drain_push_of_waiting {s s' : S} (drained : d.drain s = .waiting s') (xs : List α) :
    d.drain (d.push s xs) = d.drain (d.push s' xs) := by
  rw [drain_push, drained]

theorem drain_push_of_stopped {s : S} {r : R} (drained : d.drain s = .stopped r)
    (xs : List α) : d.drain (d.push s xs) = .stopped (d.pushResult r xs) := by
  rw [drain_push, drained]

/-! ## Segments -/

/-- Push and drain segment by segment, up to the first result; the second
component is what was not fed. -/
def feed (s : S) : List (List α) → Verdict S R × List (List α)
  | [] => (.waiting s, [])
  | x :: rest =>
      match d.drain (d.push s x) with
      | .waiting s' => feed s' rest
      | .stopped r => (.stopped r, rest)

/-- **Segmentation independence**: draining the concatenation gives the verdict
of the feed, with the unfed segments behind the result. -/
theorem feed_drain {s : S} (settled : d.pass s = .wait) (segments : List (List α)) :
    d.drain (d.push s segments.flatten) = match d.feed s segments with
      | (.waiting s', _) => .waiting s'
      | (.stopped r, unfed) => .stopped (d.pushResult r unfed.flatten) := by
  induction segments generalizing s with
  | nil => simp only [List.flatten_nil, d.push_nil, feed, drain_of_wait settled]
  | cons x rest ih =>
      rw [List.flatten_cons, ← d.push_push, feed]
      cases drained : d.drain (d.push s x) with
      | waiting s' =>
          rw [d.drain_push_of_waiting drained]
          exact ih (d.pass_of_waiting drained)
      | stopped r => rw [d.drain_push_of_stopped drained]

/-! ## A stream of messages

The decoder reads messages that stand one behind the other; after each result it
is started again on what is left of its input. -/

/-- `Holds s₀ s rest`: the state `s` stands for `s₀` with `rest` pushed, whatever
comes next. -/
def Holds (s₀ s : S) (rest : List α) : Prop :=
  ∀ xs, d.drain (d.push s xs) = d.drain (d.push s₀ (rest ++ xs))

theorem holds_push (s₀ : S) (rest : List α) : d.Holds s₀ (d.push s₀ rest) rest := by
  intro xs
  rw [d.push_push]

theorem holds_of_waiting {s₀ s s' : S} {rest x : List α} (holds : d.Holds s₀ s rest)
    (drained : d.drain (d.push s x) = .waiting s') : d.Holds s₀ s' (rest ++ x) := by
  intro xs
  rw [← d.drain_push_of_waiting drained, d.push_push, holds, List.append_assoc]

/-- A message: `encoding` drains from `s₀` to exactly the result `result`, which
is no result with input left behind it. -/
structure Message (s₀ : S) (encoding : List α) (result : R) : Prop where
  drains : d.drain (d.push s₀ encoding) = .stopped result
  clean : ∀ r xs, d.pushResult r xs = result → xs = []

variable {s₀ : S}

/-- No decoder stops inside a message: a proper front part of its encoding waits. -/
theorem Message.waits {encoding : List α} {result : R}
    (message : d.Message s₀ encoding result) {part missing : List α}
    (cut : part ++ missing = encoding) (proper : missing ≠ []) :
    ∃ s, d.drain (d.push s₀ part) = .waiting s := by
  cases drained : d.drain (d.push s₀ part) with
  | waiting s => exact ⟨s, rfl⟩
  | stopped r =>
      have whole := d.drain_push_of_stopped drained missing
      rw [d.push_push, cut, message.drains, Verdict.stopped.injEq] at whole
      exact absurd (message.clean r missing whole.symm) proper

/-- A message that has arrived comes out with what stands behind it. -/
theorem Message.arrives {encoding : List α} {result : R}
    (message : d.Message s₀ encoding result) {s : S} {rest x : List α}
    (holds : d.Holds s₀ s rest) {more : List α} (complete : rest ++ x = encoding ++ more) :
    d.drain (d.push s x) = .stopped (d.pushResult result more) := by
  rw [holds x, complete, ← d.push_push, d.drain_push_of_stopped message.drains]

/-- **One read of a stream of messages.**  Either the first expected message is
complete and its result comes out, or the read ends inside it and nothing does. -/
theorem read_stream (settled : d.pass s₀ = .wait) {messages : List (List α × R)}
    (each : ∀ m ∈ messages, d.Message s₀ m.1 m.2)
    {s : S} {rest x future : List α} (holds : d.Holds s₀ s rest)
    (stream : rest ++ x ++ future = (messages.map Prod.fst).flatten) :
    (∃ m ms more, messages = m :: ms ∧ rest ++ x = m.1 ++ more ∧
      d.drain (d.push s x) = .stopped (d.pushResult m.2 more)) ∨
    (∃ s', d.drain (d.push s x) = .waiting s' ∧ d.Holds s₀ s' (rest ++ x) ∧
      ∀ m ms, messages = m :: ms → (rest ++ x).length < m.1.length) := by
  cases messages with
  | nil =>
      simp only [List.map_nil, List.flatten_nil, List.append_eq_nil_iff] at stream
      obtain ⟨⟨rfl, rfl⟩, -⟩ := stream
      have drained : d.drain (d.push s []) = .waiting s₀ := by
        rw [holds, List.append_nil, d.push_nil, drain_of_wait settled]
      exact Or.inr ⟨s₀, drained, d.holds_of_waiting holds drained, by simp⟩
  | cons m ms =>
      rw [List.map_cons, List.flatten_cons] at stream
      have message := each m (by simp)
      rcases le_or_gt m.1.length (rest ++ x).length with complete | short
      · obtain ⟨more, split⟩ := List.prefix_of_prefix_length_le
          (List.prefix_append m.1 _) ⟨future, stream⟩ complete
        exact Or.inl ⟨m, ms, more, rfl, split.symm, message.arrives d holds split.symm⟩
      · obtain ⟨missing, split⟩ := List.prefix_of_prefix_length_le
          ⟨future, stream⟩ (List.prefix_append m.1 _) short.le
        have proper : missing ≠ [] := by
          intro noneMissing
          rw [noneMissing, List.append_nil] at split
          exact absurd (congrArg List.length split) short.ne
        obtain ⟨s', drained⟩ := message.waits d split proper
        rw [← holds x] at drained
        refine Or.inr ⟨s', drained, d.holds_of_waiting holds drained, ?_⟩
        intro m' ms' same
        cases same
        exact short

end Decoder

end CppFileServer.Theory
