/-
# Http.ChunkLoop -- the chunk loop ends

`ParseChunkedBody` is a `while (true)`.  Here each turn is written with the positions
that the source gives to `substr` and `erase`, which throw beyond the end of the
string, and with any function in the place of `std::stoul`: whatever number it makes
of a size line, a turn that goes on has erased the line and its CRLF, and that
alone ends the loop.  The sums wrap like those of `size_t`, so the second `erase` may
remove one byte or none.
-/
import CppFileServer.Cpp.Decimal
import CppFileServer.Http.HttpContext

namespace CppFileServer.Http

set_option autoImplicit false

open CppFileServer.Cpp CppFileServer.Theory

namespace HttpContext

variable (toNumber : Bytes → Result Nat)

/-- One turn, with its positions. -/
def chunkAt (c : HttpContext) : Result Chunk :=
  match find crlf c.buffer with
  | none => .ok .wait
  | some chunkSizeEnd => do
      let sizeLine ← substrCount c.buffer 0 chunkSizeEnd
      let chunkSize ← toNumber sizeLine
      if c.buffer.length < sizeT (chunkSizeEnd + 2 + chunkSize + 2) then pure .wait
      else
        let buffer ← erase c.buffer 0 (chunkSizeEnd + 2)
        if chunkSize = 0 then
          let buffer ← erase buffer 0 2
          pure (.complete { c with completeRequest := true, buffer := buffer })
        else
          let chunk ← substrCount buffer 0 chunkSize
          let buffer ← erase buffer 0 (sizeT (chunkSize + 2))
          pure (.again { c with request := c.request.addBody chunk, buffer := buffer })

def chunkTurnAt (c : HttpContext) : Result (Turn HttpContext (Bool × HttpContext)) :=
  match chunkAt toNumber c with
  | .error f => .error f
  | .ok .wait => .ok (.done (true, c))
  | .ok (.complete c') => .ok (.done (true, c'))
  | .ok (.again c') => .ok (.again c')

/-- The loop, cut off after so many turns. -/
def chunkLoopAt (turns : Nat) (c : HttpContext) : Result (Bool × HttpContext) :=
  loop (chunkTurnAt toNumber) .fuel turns c

/-! ## One turn -/

theorem substrCount_zero (s : Bytes) (count : Nat) : substrCount s 0 count = .ok (s.take count) := rfl

theorem erase_zero (s : Bytes) (count : Nat) : erase s 0 count = .ok (s.drop count) := by
  rw [erase, if_pos (Nat.zero_le _), List.take_zero, List.nil_append, Nat.zero_add]

variable {toNumber}

/-- **A turn in one formula**: no position is beyond the end. -/
theorem chunkAt_eq {c : HttpContext} {e : Nat} (found : find crlf c.buffer = some e) :
    chunkAt toNumber c = (do
      let n ← toNumber (c.buffer.take e)
      if c.buffer.length < sizeT (e + 2 + n + 2) then pure .wait
      else
        let rest := c.buffer.drop (e + 2)
        if n = 0 then pure (.complete { c with completeRequest := true, buffer := rest.drop 2 })
        else pure (.again { c with
          request := c.request.addBody (rest.take n)
          buffer := rest.drop (sizeT (n + 2)) })) := by
  simp only [chunkAt, found, substrCount_zero, erase_zero, ok_bind]

/-- With `std::stoul` the turns are those of `parseChunk`. -/
theorem chunkAt_stoul (c : HttpContext) : chunkAt (stoul 16) c = parseChunk c := by
  cases found : find crlf c.buffer with
  | none => simp only [chunkAt, parseChunk, found]
  | some e =>
      rw [chunkAt_eq found]
      simp only [parseChunk, found]
      cases stoul 16 (c.buffer.take e) with
      | error f => simp only [error_bind]
      | ok n => simp only [ok_bind, pure_eq_ok]

theorem chunkAt_error {c : HttpContext} {f : Fault} (thrown : chunkAt toNumber c = .error f) :
    ∃ e, find crlf c.buffer = some e ∧ toNumber (c.buffer.take e) = .error f := by
  cases found : find crlf c.buffer with
  | none =>
      simp only [chunkAt, found] at thrown
      cases thrown
  | some e =>
      rw [chunkAt_eq found] at thrown
      refine ⟨e, rfl, ?_⟩
      cases number : toNumber (c.buffer.take e) with
      | error g =>
          rw [number, error_bind] at thrown
          cases thrown
          rfl
      | ok n =>
          rw [number, ok_bind] at thrown
          split_ifs at thrown <;> cases thrown

/-- What a turn leaves in the buffer is an end of what was there; a turn that goes on has
erased at least a CRLF. -/
theorem chunkAt_again {c c' : HttpContext} (again : chunkAt toNumber c = .ok (.again c')) :
    c'.buffer <:+ c.buffer ∧ c'.buffer.length + 2 ≤ c.buffer.length := by
  cases found : find crlf c.buffer with
  | none =>
      simp only [chunkAt, found] at again
      cases again
  | some e =>
      have bound := Search.find_le found
      rw [crlf_length] at bound
      rw [chunkAt_eq found] at again
      obtain ⟨n, -, again⟩ := bind_eq_ok again
      split_ifs at again
      · cases again
      · cases again
      cases again
      have rest : c.buffer.drop (e + 2) <:+ c.buffer := List.drop_suffix _ _
      have left : (c.buffer.drop (e + 2)).drop (sizeT (n + 2)) <:+ c.buffer.drop (e + 2) :=
        List.drop_suffix _ _
      refine ⟨left.trans rest, ?_⟩
      have shorter := left.length_le
      rw [List.length_drop (i := e + 2)] at shorter
      show ((c.buffer.drop (e + 2)).drop (sizeT (n + 2))).length + 2 ≤ c.buffer.length
      omega

theorem chunkAt_complete {c c' : HttpContext} (complete : chunkAt toNumber c = .ok (.complete c')) :
    c'.buffer <:+ c.buffer := by
  cases found : find crlf c.buffer with
  | none =>
      simp only [chunkAt, found] at complete
      cases complete
  | some e =>
      rw [chunkAt_eq found] at complete
      obtain ⟨n, -, complete⟩ := bind_eq_ok complete
      split_ifs at complete
      · cases complete
      · cases complete
        exact (List.drop_suffix _ _).trans (List.drop_suffix _ _)
      · cases complete

theorem chunkTurnAt_again {c c' : HttpContext}
    (again : chunkTurnAt toNumber c = .ok (.again c')) :
    c'.buffer <:+ c.buffer ∧ c'.buffer.length / 2 < c.buffer.length / 2 := by
  unfold chunkTurnAt at again
  split at again
  · cases again
  · cases again
  · cases again
  · rename_i turned
    cases again
    obtain ⟨suffix, shorter⟩ := chunkAt_again turned
    exact ⟨suffix, by omega⟩

theorem chunkTurnAt_done {c c' : HttpContext} {ok : Bool}
    (done : chunkTurnAt toNumber c = .ok (.done (ok, c'))) : c'.buffer <:+ c.buffer := by
  unfold chunkTurnAt at done
  split at done
  · cases done
  · cases done
    exact List.suffix_refl _
  · rename_i turned
    cases done
    exact chunkAt_complete turned
  · cases done

/-! ## The loop -/

/-- Half the buffer and one more turn are enough. -/
theorem chunkLoopAt_eq (c : HttpContext) {turns : Nat} (enough : c.buffer.length / 2 < turns) :
    chunkLoopAt toNumber turns c = chunkLoopAt toNumber (c.buffer.length / 2 + 1) c := by
  have shorter : ∀ c c', chunkTurnAt toNumber c = .ok (.again c') →
      c'.buffer.length / 2 < c.buffer.length / 2 := fun _ _ again => (chunkTurnAt_again again).2
  exact loop_fuel (fun c : HttpContext => c.buffer.length / 2) shorter enough

/-- With `std::stoul` the loop is `parseChunkedBody`. -/
theorem chunkLoopAt_stoul (c : HttpContext) :
    chunkLoopAt (stoul 16) (c.buffer.length + 1) c = parseChunkedBody c := by
  have same : chunkTurnAt (stoul 16) = chunkTurn := by
    funext c
    unfold chunkTurnAt
    simp only [chunkAt_stoul]
    rfl
  rw [chunkLoopAt, same, parseChunkedBody]

/-- **The loop rule**, for what every turn hands on. -/
theorem chunkLoopAt_rule {Q : Result (Bool × HttpContext) → Prop} (c : HttpContext)
    (done : ∀ ok c', c'.buffer <:+ c.buffer → Q (.ok (ok, c')))
    (thrown : ∀ line f, toNumber line = .error f → Q (.error f)) :
    Q (chunkLoopAt toNumber (c.buffer.length / 2 + 1) c) := by
  refine loop_rule (fun c : HttpContext => c.buffer.length / 2) (P := fun d => d.buffer <:+ c.buffer) ?_ ?_ ?_
    (List.suffix_refl _) (Nat.lt_succ_self _)
  · intro d d' inside again
    obtain ⟨suffix, lighter⟩ := chunkTurnAt_again again
    exact ⟨suffix.trans inside, lighter⟩
  · rintro d ⟨ok, d'⟩ inside ended
    exact done ok d' ((chunkTurnAt_done ended).trans inside)
  · intro d f _ raised
    unfold chunkTurnAt at raised
    split at raised
    · rename_i turned
      cases raised
      obtain ⟨e, -, number⟩ := chunkAt_error turned
      exact thrown _ f number
    · cases raised
    · cases raised
    · cases raised

/-- **`ParseChunkedBody` ends on every buffer**, whatever numbers the size lines come to: a
turn that goes on makes the buffer shorter, half the buffer and one more turns are enough,
nothing is thrown but by `std::stoul`, and what is left is an end of the buffer. -/
theorem chunk_loop_ends :
    (∀ c, chunkLoopAt (stoul 16) (c.buffer.length / 2 + 1) c = parseChunkedBody c) ∧
    ∀ (toNumber : Bytes → Result Nat) (c : HttpContext),
      (∀ c', chunkAt toNumber c = .ok (.again c') → c'.buffer.length < c.buffer.length) ∧
      (∀ f, chunkAt toNumber c = .error f → ∃ line, toNumber line = .error f) ∧
      (∀ turns, c.buffer.length / 2 + 1 ≤ turns → chunkLoopAt toNumber turns c =
        chunkLoopAt toNumber (c.buffer.length / 2 + 1) c) ∧
      (∀ f, chunkLoopAt toNumber (c.buffer.length / 2 + 1) c = .error f →
        ∃ line, toNumber line = .error f) ∧
      ∀ ok c', chunkLoopAt toNumber (c.buffer.length / 2 + 1) c = .ok (ok, c') →
        c'.buffer <:+ c.buffer := by
  refine ⟨?_, ?_⟩
  · intro c
    rw [← chunkLoopAt_stoul]
    exact (chunkLoopAt_eq c (by omega)).symm
  · intro toNumber c
    refine ⟨?_, ?_, fun turns enough => chunkLoopAt_eq c enough, ?_, ?_⟩
    · intro c' again
      have shorter := (chunkAt_again again).2
      omega
    · intro f thrown
      obtain ⟨e, -, number⟩ := chunkAt_error thrown
      exact ⟨_, number⟩
    · refine chunkLoopAt_rule (Q := fun result => ∀ f, result = .error f →
        ∃ line, toNumber line = .error f) c ?_ ?_
      · rintro ok c' - f ⟨⟩
      · rintro line f number g ⟨⟩
        exact ⟨line, number⟩
    · refine chunkLoopAt_rule (Q := fun result => ∀ ok c', result = .ok (ok, c') →
        c'.buffer <:+ c.buffer) c ?_ ?_
      · rintro ok c' suffix _ _ ⟨⟩
        exact suffix
      · rintro line f - ok c' ⟨⟩

end HttpContext

end CppFileServer.Http
