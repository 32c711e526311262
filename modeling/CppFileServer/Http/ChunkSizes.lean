/-
# Http.ChunkSizes -- the sum in the chunk test

The chunk test compares the size of `buffer_` with a `size_t` sum of the announced
size.  Near the top of the range the sum wraps to a small number; the loop then
goes on with a chunk that is not there, and copies bytes that it does not erase.

Chunks are consumed only when they are there, and the body stays a selection of
the received bytes, exactly if no wrapped sum is met that the buffer reaches
(`chunk_sizes_iff`).
-/
import CppFileServer.Http.Reader

namespace CppFileServer.Http

set_option autoImplicit false

open CppFileServer.Cpp CppFileServer.Theory

namespace Reader

/-- The context in which a call enters the chunk loop. -/
def entersLoop (r : Reader) : ContextCall → Option HttpContext
  | .parseRequest str =>
      if r.context.buffer.length + str.length < sizeModulus then r.context.loopStart str else none
  | .reset => none

end Reader

namespace HttpContext

/-- `TurnsTo c c'`: turns of the chunk loop lead from `c` to `c'`. -/
inductive TurnsTo : HttpContext → HttpContext → Prop
  | here (c : HttpContext) : TurnsTo c c
  | again {c c₁ c' : HttpContext} (turned : parseChunk c = .ok (.again c₁))
      (turns : TurnsTo c₁ c') : TurnsTo c c'

/-- A turn that does not wait finds its size line, the announced bytes and two more. -/
def ConsumesHeld (c₀ : HttpContext) : Prop :=
  ∀ c e n, TurnsTo c₀ c → nextSize c.buffer = some (e, n) → parseChunk c ≠ .ok .wait →
    e + 2 + n + 2 ≤ c.buffer.length

/-- No size met whose sum wraps to one that the buffer reaches. -/
def SizesFit (buffer : Bytes) : Prop :=
  ∀ b e n, Reads buffer b → nextSize b = some (e, n) →
    e + 2 + n + 2 < sizeModulus ∨ b.length < sizeT (e + 2 + n + 2)

/-- The body with what is still to be parsed. -/
def kept (c : HttpContext) : Bytes := c.request.body ++ c.buffer

end HttpContext

namespace Reader

/-- What a call has to do with chunk sizes: consume only what is held, and leave a
body that selects received bytes, in order and each at most once. -/
structure SelectsBody (r : Reader) (call : ContextCall) : Prop where
  consumes : ∀ c₀, r.entersLoop call = some c₀ → c₀.ConsumesHeld
  selects : ∀ r', r.call call = .ok r' → r'.context.request.body.Sublist r'.received
  bounded : ∀ r', r.call call = .ok r' → r'.context.request.body.length ≤ r'.received.length

def MeetsFittingSizes (r : Reader) (call : ContextCall) : Prop :=
  ∀ c₀, r.entersLoop call = some c₀ → HttpContext.SizesFit c₀.buffer

end Reader

namespace HttpContext

/-! ## The loop -/

theorem SizesFit.rest {buffer : Bytes} {e n : Nat} (sizes : SizesFit buffer)
    (next : nextSize buffer = some (e, n)) (positive : n ≠ 0)
    (whole : e + 2 + n + 2 ≤ buffer.length) : SizesFit (buffer.drop (e + 2 + n + 2)) := by
  intro b e' n' reads next'
  exact sizes b e' n' (.chunk next positive whole reads) next'

/-- A turn that goes on, when the sizes fit: what it takes stood in the buffer. -/
theorem SizesFit.again {c c₁ : HttpContext} (sizes : SizesFit c.buffer)
    (again : parseChunk c = .ok (.again c₁)) :
    ∃ e n, e + 2 + n + 2 ≤ c.buffer.length ∧ SizesFit c₁.buffer ∧
      c₁ = { c with
        request := c.request.addBody ((c.buffer.drop (e + 2)).take n)
        buffer := c.buffer.drop (e + 2 + n + 2) } := by
  obtain ⟨e, n, next, positive, reached, rfl⟩ := parseChunk_eq_again again
  rcases sizes c.buffer e n (.here _) next with fits | short
  · have plain : e + 2 + sizeT (n + 2) = e + 2 + n + 2 := by
      rw [sizeT_of_lt (show n + 2 < sizeModulus by omega), Nat.add_assoc (e + 2)]
    rw [sizeT_of_lt fits] at reached
    rw [plain]
    exact ⟨e, n, by omega, sizes.rest next positive (by omega), rfl⟩
  · exact absurd short reached

/-- **Chunks are consumed when they are there** exactly if the sizes fit. -/
theorem consumesHeld_iff {c₀ : HttpContext} (countable : c₀.buffer.length < sizeModulus) :
    ConsumesHeld c₀ ↔ SizesFit c₀.buffer := by
  constructor
  · intro consumes b e n reads
    generalize buffer : c₀.buffer = b₀ at reads
    induction reads generalizing c₀ with
    | here b =>
        subst buffer
        intro next
        by_contra wraps
        rw [not_or] at wraps
        have moves : parseChunk c₀ ≠ .ok .wait := by
          rw [parseChunk_size next, if_neg wraps.2]
          split_ifs <;> simp
        have := consumes c₀ e n (.here _) next moves
        omega
    | @chunk b b' e₁ n₁ next₁ positive whole reads ih =>
        subst buffer
        have turned := parseChunk_of_size next₁
          (show e₁ + 2 + n₁ + 2 < sizeModulus by omega)
        rw [if_neg (by omega), if_neg positive] at turned
        have shorter : (c₀.buffer.drop (e₁ + 2 + n₁ + 2)).length < sizeModulus :=
          lt_of_le_of_lt (List.drop_sublist _ _).length_le countable
        have consumes₁ : ConsumesHeld { c₀ with
            request := c₀.request.addBody ((c₀.buffer.drop (e₁ + 2)).take n₁)
            buffer := c₀.buffer.drop (e₁ + 2 + n₁ + 2) } :=
          fun c e' n' turns => consumes c e' n' (.again turned turns)
        exact ih shorter consumes₁ rfl
  · intro sizes c e n turns
    induction turns with
    | here c =>
        intro next moves
        rw [parseChunk_size next] at moves
        rcases sizes c.buffer e n (.here _) next with fits | short
        · rw [sizeT_of_lt fits] at moves
          by_contra beyond
          exact moves (if_pos (by omega))
        · exact absurd (if_pos short) moves
    | again turned turns ih =>
        have shorter := parseChunk_again_length turned
        obtain ⟨e₁, n₁, -, sizes₁, -⟩ := sizes.again turned
        exact ih (by omega) sizes₁

/-! ## The body selects received bytes -/

theorem finish_kept (c : HttpContext) : c.finish.kept.Sublist c.kept := by
  unfold finish
  split_ifs
  · show (c.buffer.take c.contentLength ++ c.buffer.drop c.contentLength).Sublist c.kept
    rw [List.take_append_drop]
    exact List.sublist_append_right _ _
  · exact List.Sublist.refl _

/-- A turn that goes on moves data from the buffer to the body. -/
theorem SizesFit.again_kept {c c₁ : HttpContext} (sizes : SizesFit c.buffer)
    (again : parseChunk c = .ok (.again c₁)) : c₁.kept.Sublist c.kept := by
  obtain ⟨e, n, -, -, rfl⟩ := sizes.again again
  have later : c.buffer.drop (e + 2 + n + 2) = ((c.buffer.drop (e + 2)).drop n).drop 2 := by
    rw [List.drop_drop, List.drop_drop, Nat.add_assoc (e + 2)]
  show ((c.request.body ++ (c.buffer.drop (e + 2)).take n) ++
    c.buffer.drop (e + 2 + n + 2)).Sublist (c.request.body ++ c.buffer)
  rw [List.append_assoc, List.append_sublist_append_left, later]
  calc ((c.buffer.drop (e + 2)).take n ++ ((c.buffer.drop (e + 2)).drop n).drop 2).Sublist
        ((c.buffer.drop (e + 2)).take n ++ (c.buffer.drop (e + 2)).drop n) :=
        (List.Sublist.refl _).append (List.drop_sublist _ _)
    _ = c.buffer.drop (e + 2) := List.take_append_drop _ _
    List.Sublist _ c.buffer := List.drop_sublist _ _

theorem complete_kept {c c' : HttpContext} (complete : parseChunk c = .ok (.complete c')) :
    c'.kept.Sublist c.kept := by
  obtain ⟨e, -, rfl⟩ := parseChunk_eq_complete complete
  exact (List.Sublist.refl _).append (List.drop_sublist _ _)

theorem parseChunkedBody_kept {c c' : HttpContext} {ok : Bool} (sizes : SizesFit c.buffer)
    (parsed : parseChunkedBody c = .ok (ok, c')) : c'.kept.Sublist c.kept := by
  induction measured : c.buffer.length using Nat.strongRecOn generalizing c with
  | ind k ih =>
      rw [parseChunkedBody_eq] at parsed
      cases turned : parseChunk c with
      | error f =>
          rw [turned] at parsed
          cases parsed
      | ok turn =>
          rw [turned] at parsed
          cases turn with
          | wait =>
              cases parsed
              exact List.Sublist.refl _
          | complete c₁ =>
              cases parsed
              exact complete_kept turned
          | again c₁ =>
              have shorter := parseChunk_again_length turned
              obtain ⟨-, -, -, sizes₁, -⟩ := sizes.again turned
              exact (ih _ (by omega) sizes₁ parsed rfl).trans (sizes.again_kept turned)

theorem parseBody_kept {c c' : HttpContext} {ok : Bool}
    (sizes : chunked c.request = true → SizesFit c.buffer)
    (parsed : parseBody c = .ok (ok, c')) : c'.kept.Sublist c.kept := by
  unfold parseBody at parsed
  split_ifs at parsed with isChunked isBuffered isSized
  · exact parseChunkedBody_kept (sizes isChunked) parsed
  · cases parsed
    exact finish_kept _
  · split at parsed
    · cases parsed
      exact List.Sublist.refl _
    · split_ifs at parsed
      · cases parsed
        exact List.Sublist.refl _
      · cases parsed
        exact finish_kept _
  · cases parsed
    exact finish_kept _

/-- The header block takes bytes off the buffer and leaves the body. -/
theorem head_kept {c c' : HttpContext} {header : Bytes} {ok : Bool} {r : HttpRequest} {e : Nat}
    (parsed : parseHeader c.request header = .ok (ok, r)) (request : c'.request = r)
    (buffer : c'.buffer = c.buffer.drop e) : c'.kept.Sublist c.kept := by
  rw [kept, request, buffer, parseHeader_body parsed]
  exact (List.Sublist.refl _).append (List.drop_sublist _ _)

/-- A call whose sizes fit keeps body and buffer a selection of what was there and came. -/
theorem parseRequest_kept {c c' : HttpContext} {s : Bytes} {ok : Bool}
    (sizes : ∀ c₀, loopStart c s = some c₀ → SizesFit c₀.buffer)
    (parsed : parseRequest c s = .ok (ok, c')) : c'.kept.Sublist (c.kept ++ s) := by
  have pushed : (c.push s).kept = c.kept ++ s := by
    simp [kept]
  rw [← pushed]
  cases start : bodyStart c s with
  | some c₀ =>
      have startsKept : c₀.kept.Sublist (c.push s).kept := by
        unfold bodyStart at start
        split_ifs at start
        · cases start
          exact List.Sublist.refl _
        · split at start
          · rename_i head
            cases start
            obtain ⟨e, r, -, parsed, rfl⟩ := parseHead_eq_parsed head
            exact head_kept parsed rfl rfl
          · cases start
      rw [(parseRequest_of_bodyStart start).1] at parsed
      refine (parseBody_kept ?_ parsed).trans startsKept
      exact fun isChunked => sizes c₀ (loopStart_eq_some.mpr ⟨start, isChunked⟩)
  | none =>
      unfold bodyStart at start
      rw [parseRequest_eq] at parsed
      split_ifs at start parsed
      split at parsed
      · cases parsed
      · cases parsed
        exact List.Sublist.refl _
      · rename_i head
        cases parsed
        obtain ⟨e, r, -, parsed, rfl⟩ := parseHead_eq_refused head
        exact head_kept parsed rfl rfl
      · rename_i head
        rw [head] at start
        cases start

theorem loopStart_length {c c₀ : HttpContext} {s : Bytes} (start : loopStart c s = some c₀) :
    c₀.buffer.length ≤ c.buffer.length + s.length := by
  obtain ⟨start, -⟩ := loopStart_eq_some.mp start
  have pushed : (c.push s).buffer.length = c.buffer.length + s.length := by simp
  unfold bodyStart at start
  split_ifs at start
  · cases start
    omega
  · split at start
    · rename_i head
      cases start
      obtain ⟨-, -, -, shorter⟩ := parseHead_parsed head
      omega
    · cases start

end HttpContext

namespace Reader

/-! ## Every run -/

/-- Body and buffer are a selection of what was received. -/
def Selects (r : Reader) : Prop := r.context.kept.Sublist r.received

theorem call_selects {r r' : Reader} {call : ContextCall} (selects : r.Selects)
    (sizes : r.MeetsFittingSizes call) (called : r.call call = .ok r') : r'.Selects := by
  cases call with
  | reset =>
      cases called
      exact (List.sublist_append_right _ _).trans selects
  | parseRequest str =>
      simp only [Reader.call] at called
      split_ifs at called with countable
      obtain ⟨answer, parsed, called⟩ := bind_eq_ok called
      cases called
      have fits : ∀ c₀, r.context.loopStart str = some c₀ → HttpContext.SizesFit c₀.buffer := by
        intro c₀ start
        exact sizes c₀ (by rw [entersLoop, if_pos countable, start])
      have kept := HttpContext.parseRequest_kept fits
        (show r.context.parseRequest str = .ok (answer.1, answer.2) from parsed)
      exact kept.trans (selects.append (List.Sublist.refl str))

theorem entersLoop_countable {r : Reader} {call : ContextCall} {c₀ : HttpContext}
    (enters : r.entersLoop call = some c₀) : c₀.buffer.length < sizeModulus := by
  cases call with
  | reset => cases enters
  | parseRequest str =>
      simp only [entersLoop] at enters
      split_ifs at enters with countable
      have := HttpContext.loopStart_length enters
      omega

/-- **No wrap-around.**  In a run of any calls, every call consumes only chunks that
are held and leaves a body selected from the received bytes, exactly if every call
meets only sizes that fit. -/
theorem chunk_sizes_iff (indeterminate : Bool) (calls : List ContextCall) :
    Meets call SelectsBody (start indeterminate) calls ↔
      Meets call MeetsFittingSizes (start indeterminate) calls := by
  have initial : (start indeterminate).Selects := List.Sublist.refl _
  apply meets_iff_meets (Q := Selects) ?_ ?_ initial calls
  · intro r i selects
    constructor
    · intro sound c₀ enters
      exact (HttpContext.consumesHeld_iff (entersLoop_countable enters)).mp
        (sound.consumes c₀ enters)
    · intro sizes
      have selected : ∀ r', r.call i = .ok r' → r'.context.request.body.Sublist r'.received := by
        intro r' called
        exact (List.sublist_append_left _ _).trans (call_selects selects sizes called)
      constructor
      · intro c₀ enters
        exact (HttpContext.consumesHeld_iff (entersLoop_countable enters)).mpr (sizes c₀ enters)
      · exact selected
      · exact fun r' called => (selected r' called).length_le
  · intro r i r' selects sizes called
    exact call_selects selects sizes called

/-- Six size lines, each for a chunk of 2^64 - 2 bytes. -/
def hugeSizes : Bytes :=
  ascii "POST / HTTP/1.1\r\nTransfer-Encoding: chunked\r\n\r\n" ++
    (List.replicate 6 (ascii "FFFFFFFFFFFFFFFE\r\n")).flatten

/-- The loop copies what follows each of the lines again, and the body outgrows what
was received. -/
theorem body_outgrows_received :
    ¬ Meets call SelectsBody (start false) [.parseRequest hugeSizes] := by
  rintro ⟨sound, -⟩
  obtain ⟨r, called, longer⟩ : ∃ r, (start false).call (.parseRequest hugeSizes) = .ok r ∧
      decide (r.context.request.body.length ≤ r.received.length) = false :=
    eq_ok_of_map (by decide +kernel)
  exact absurd (sound.bounded r called) (of_decide_eq_false longer)

end Reader

end CppFileServer.Http
