/-
# Http.RequestDecoder -- `ParseRequest` as an incremental decoder

`requestDecoder` is the parser cut into passes: one for the header block, one for
each chunk, one for a body of known length.  A pass stops where the source
returns for good, and also at the two places where the source decides by how
much happens to be buffered: the branch that takes the whole buffer as the body
(`Stop.buffered`), and a chunk size whose sum wraps (`Stop.wraps`).  Everywhere
else its decisions are stable, so it is a `Theory.Decoder`, and `ParseRequest`
computes its drain (`parseRequest_drain`).
-/
import CppFileServer.Http.HttpContext
import CppFileServer.Theory.Decoder

namespace CppFileServer.Http

set_option autoImplicit false

open CppFileServer.Cpp CppFileServer.Theory

namespace HttpContext

/-- Bytes appended to `buffer_`. -/
def push (c : HttpContext) (xs : Bytes) : HttpContext := { c with buffer := c.buffer ++ xs }

@[simp] theorem push_buffer (c : HttpContext) (xs : Bytes) :
    (c.push xs).buffer = c.buffer ++ xs := rfl

@[simp] theorem push_request (c : HttpContext) (xs : Bytes) :
    (c.push xs).request = c.request := rfl

@[simp] theorem push_completeHeaders (c : HttpContext) (xs : Bytes) :
    (c.push xs).completeHeaders = c.completeHeaders := rfl

@[simp] theorem push_contentLength (c : HttpContext) (xs : Bytes) :
    (c.push xs).contentLength = c.contentLength := rfl

@[simp] theorem push_nil (c : HttpContext) : c.push [] = c := by
  simp [push]

@[simp] theorem push_push (c : HttpContext) (xs ys : Bytes) :
    (c.push xs).push ys = c.push (xs ++ ys) := by
  simp [push]

/-! ## Where parsing stops -/

inductive Stop
  | thrown (f : Fault)
  | refused (c : HttpContext)
  | complete (c : HttpContext)
  /-- The header block selects the branch that takes whatever is buffered. -/
  | buffered (c : HttpContext)
  /-- A chunk size stands next whose sum exceeds `size_t`. -/
  | wraps (c : HttpContext)

def Stop.push : Stop → Bytes → Stop
  | .thrown f, _ => .thrown f
  | .refused c, xs => .refused (c.push xs)
  | .complete c, xs => .complete (c.push xs)
  | .buffered c, xs => .buffered (c.push xs)
  | .wraps c, xs => .wraps (c.push xs)

/-- What is left of the input behind a stop. -/
def Stop.held : Stop → Bytes
  | .thrown _ => []
  | .refused c => c.buffer
  | .complete c => c.buffer
  | .buffered c => c.buffer
  | .wraps c => c.buffer

/-- The next chunk size, and where its line ends. -/
def nextSize (buffer : Bytes) : Option (Nat × Nat) :=
  match find crlf buffer with
  | none => none
  | some chunkSizeEnd =>
      match stoul 16 (buffer.take chunkSizeEnd) with
      | .error _ => none
      | .ok chunkSize => some (chunkSizeEnd, chunkSize)

/-- The sum in the chunk test exceeds `size_t`. -/
def sizeWraps (buffer : Bytes) : Bool :=
  match nextSize buffer with
  | none => false
  | some (chunkSizeEnd, chunkSize) => sizeModulus ≤ chunkSizeEnd + 2 + chunkSize + 2

/-- The body rule that a parsed header block selects. -/
def passFraming (c : HttpContext) : Pass HttpContext Stop :=
  if chunked c.request then .next c
  else if readsBuffered c.request then .stop (.buffered c)
  else if c.request.hasHeader (ascii "Content-Length") then
    match stoul 10 (c.request.getHeaderString (ascii "Content-Length")) with
    | .error _ => .stop (.refused c)
    | .ok n => .next { c with contentLength := n }
  else .stop (.complete { c with completeRequest := true })

def passHead (c : HttpContext) : Pass HttpContext Stop :=
  match parseHead c with
  | .error f => .stop (.thrown f)
  | .ok .incomplete => .wait
  | .ok (.refused c') => .stop (.refused c')
  | .ok (.parsed c') => passFraming c'

def passChunk (c : HttpContext) : Pass HttpContext Stop :=
  if sizeWraps c.buffer then .stop (.wraps c)
  else
    match parseChunk c with
    | .error f => .stop (.thrown f)
    | .ok .wait => .wait
    | .ok (.complete c') => .stop (.complete c')
    | .ok (.again c') => .next c'

def passLength (c : HttpContext) : Pass HttpContext Stop :=
  if c.buffer.length < c.contentLength then .wait else .stop (.complete (finish c))

def pass (c : HttpContext) : Pass HttpContext Stop :=
  if c.completeHeaders then
    if chunked c.request then passChunk c else passLength c
  else passHead c

/-! ## Stability -/

def Head.push : Head → Bytes → Head
  | .incomplete, _ => .incomplete
  | .refused c, xs => .refused (c.push xs)
  | .parsed c, xs => .parsed (c.push xs)

/-- The header block of a longer buffer is that of the shorter one. -/
theorem parseHead_push {c : HttpContext} {head : Head} (parsed : parseHead c = .ok head)
    (complete : head ≠ .incomplete) (xs : Bytes) :
    parseHead (c.push xs) = .ok (head.push xs) := by
  unfold parseHead at parsed ⊢
  cases found : find crlfcrlf c.buffer with
  | none =>
      simp only [found, Except.ok.injEq] at parsed
      exact absurd parsed.symm complete
  | some headerEnd =>
      have bound := Search.find_le found
      rw [crlfcrlf_length] at bound
      simp only [found, push_buffer, push_request, Search.find_append found,
        List.take_append_of_le_length (show headerEnd + 2 ≤ c.buffer.length by omega),
        List.drop_append_of_le_length (show headerEnd + 4 ≤ c.buffer.length by omega)] at parsed ⊢
      cases fields : parseHeader c.request (c.buffer.take (headerEnd + 2)) with
      | error f => simp [fields] at parsed
      | ok answer =>
          obtain ⟨ok, r⟩ := answer
          cases ok <;>
            simp only [fields, Except.ok.injEq] at parsed ⊢ <;> subst parsed <;> rfl

theorem parseHead_push_error {c : HttpContext} {f : Fault} (thrown : parseHead c = .error f)
    (xs : Bytes) : parseHead (c.push xs) = .error f := by
  unfold parseHead at thrown ⊢
  cases found : find crlfcrlf c.buffer with
  | none => simp [found] at thrown
  | some headerEnd =>
      have bound := Search.find_le found
      rw [crlfcrlf_length] at bound
      simp only [found, push_buffer, push_request, Search.find_append found,
        List.take_append_of_le_length (show headerEnd + 2 ≤ c.buffer.length by omega)] at thrown ⊢
      cases fields : parseHeader c.request (c.buffer.take (headerEnd + 2)) with
      | error g => simpa [fields] using thrown
      | ok answer =>
          obtain ⟨ok, r⟩ := answer
          cases ok <;> simp [fields] at thrown

/-- The header block that a call parses or refuses ends with the first empty line. -/
theorem parseHead_eq_parsed {c c' : HttpContext} (parsed : parseHead c = .ok (.parsed c')) :
    ∃ e r, find crlfcrlf c.buffer = some e ∧
      parseHeader c.request (c.buffer.take (e + 2)) = .ok (true, r) ∧
      c' = { c with request := r, buffer := c.buffer.drop (e + 4), completeHeaders := true } := by
  rw [parseHead] at parsed
  cases found : find crlfcrlf c.buffer with
  | none => simp [found] at parsed
  | some e =>
      simp only [found] at parsed
      cases fields : parseHeader c.request (c.buffer.take (e + 2)) with
      | error f => simp [fields] at parsed
      | ok answer =>
          obtain ⟨ok, r⟩ := answer
          cases ok with
          | false => simp [fields] at parsed
          | true =>
              simp only [fields, Except.ok.injEq, Head.parsed.injEq] at parsed
              exact ⟨e, r, rfl, fields, parsed.symm⟩

theorem find_of_incomplete {c : HttpContext} (head : parseHead c = .ok .incomplete) :
    find crlfcrlf c.buffer = none := by
  cases found : find crlfcrlf c.buffer with
  | none => rfl
  | some e =>
      simp only [parseHead, found] at head
      split at head <;> cases head

theorem parseHead_eq_refused {c c' : HttpContext} (refused : parseHead c = .ok (.refused c')) :
    ∃ e r, find crlfcrlf c.buffer = some e ∧
      parseHeader c.request (c.buffer.take (e + 2)) = .ok (false, r) ∧
      c' = { c with request := r, buffer := c.buffer.drop (e + 4) } := by
  rw [parseHead] at refused
  cases found : find crlfcrlf c.buffer with
  | none => simp [found] at refused
  | some e =>
      simp only [found] at refused
      cases fields : parseHeader c.request (c.buffer.take (e + 2)) with
      | error f => simp [fields] at refused
      | ok answer =>
          obtain ⟨ok, r⟩ := answer
          cases ok with
          | true => simp [fields] at refused
          | false =>
              simp only [fields, Except.ok.injEq, Head.refused.injEq] at refused
              exact ⟨e, r, rfl, fields, refused.symm⟩

theorem parseHead_parsed {c c' : HttpContext} (parsed : parseHead c = .ok (.parsed c')) :
    c'.completeHeaders = true ∧ c'.completeRequest = c.completeRequest ∧
      c'.contentLength = c.contentLength ∧ c'.buffer.length + 4 ≤ c.buffer.length := by
  obtain ⟨e, r, found, -, rfl⟩ := parseHead_eq_parsed parsed
  have bound := Search.find_le found
  rw [crlfcrlf_length] at bound
  refine ⟨rfl, rfl, rfl, ?_⟩
  rw [List.length_drop]
  omega

/-! The header block does not touch the body. -/

theorem parseRequestLine_body {r r' : HttpRequest} {line : Bytes} {ok : Bool}
    (parsed : parseRequestLine r line = .ok (ok, r')) : r'.body = r.body := by
  unfold parseRequestLine at parsed
  split at parsed
  · cases parsed
    rfl
  · split at parsed
    · cases parsed
      rfl
    · obtain ⟨afterMethod, -, parsed⟩ := bind_eq_ok parsed
      obtain ⟨version, -, parsed⟩ := bind_eq_ok parsed
      cases parsed
      simp [HttpRequest.setUrl]

theorem parseFieldLine_body {r r' : HttpRequest} {line : Bytes}
    (parsed : parseFieldLine r line = .ok (some r')) : r'.body = r.body := by
  unfold parseFieldLine at parsed
  split at parsed
  · cases parsed
  · obtain ⟨value, -, parsed⟩ := bind_eq_ok parsed
    cases parsed
    rfl

theorem parseRequestHeaders_body {r r' : HttpRequest} {rest : Bytes} {ok : Bool}
    (parsed : parseRequestHeaders r rest = .ok (ok, r')) : r'.body = r.body := by
  induction measured : rest.length using Nat.strongRecOn generalizing r rest with
  | ind n ih =>
      rw [parseRequestHeaders_eq] at parsed
      cases found : find crlf rest with
      | none =>
          rw [found] at parsed
          cases parsed
          rfl
      | some stop =>
          have bound := Search.find_le found
          rw [crlf_length] at bound
          simp only [found] at parsed
          cases line : parseFieldLine r (rest.take stop) with
          | error f =>
              simp only [line] at parsed
              cases parsed
          | ok kept =>
              cases kept with
              | none =>
                  simp only [line] at parsed
                  cases parsed
                  rfl
              | some r₁ =>
                  simp only [line] at parsed
                  have later := ih _ (by rw [List.length_drop]; omega) parsed rfl
                  exact later.trans (parseFieldLine_body line)

theorem parseHeader_body {r r' : HttpRequest} {header : Bytes} {ok : Bool}
    (parsed : parseHeader r header = .ok (ok, r')) : r'.body = r.body := by
  unfold parseHeader at parsed
  split at parsed
  · cases parsed
    rfl
  · split_ifs at parsed
    · cases parsed
      rfl
    · split at parsed
      · cases parsed
      · rename_i line
        cases parsed
        exact parseRequestLine_body line
      · rename_i line
        obtain ⟨fields, -, parsed⟩ := bind_eq_ok parsed
        exact (parseRequestHeaders_body parsed).trans (parseRequestLine_body line)

theorem parseHead_body {c c' : HttpContext} (parsed : parseHead c = .ok (.parsed c')) :
    c'.request.body = c.request.body := by
  obtain ⟨e, r, -, header, rfl⟩ := parseHead_eq_parsed parsed
  exact parseHeader_body header

theorem parseRequest_eq (c : HttpContext) (s : Bytes) :
    parseRequest c s =
      if c.completeHeaders then parseBody (c.push s)
      else
        match parseHead (c.push s) with
        | .error f => .error f
        | .ok .incomplete => .ok (true, c.push s)
        | .ok (.refused c') => .ok (false, c')
        | .ok (.parsed c') => parseBody c' := rfl

/-- A call that does not bring the empty line only appends. -/
theorem parseRequest_of_incomplete {c : HttpContext} {s : Bytes}
    (headless : c.completeHeaders = false) (head : parseHead (c.push s) = .ok .incomplete) :
    parseRequest c s = .ok (true, c.push s) := by
  rw [parseRequest_eq, if_neg (by simp [headless]), head]

/-- A call that brings the empty line goes on with the body. -/
theorem parseRequest_of_head {c c' : HttpContext} {s : Bytes}
    (headless : c.completeHeaders = false) (head : parseHead (c.push s) = .ok (.parsed c')) :
    parseRequest c s = parseBody c' := by
  rw [parseRequest_eq, if_neg (by simp [headless]), head]

theorem passFraming_push (c : HttpContext) (xs : Bytes) :
    passFraming (c.push xs) = (passFraming c).map (push · xs) (Stop.push · xs) := by
  unfold passFraming
  rw [push_request]
  split_ifs
  · rfl
  · rfl
  · cases stoul 10 (c.request.getHeaderString (ascii "Content-Length")) <;> rfl
  · rfl

theorem nextSize_eq_some {buffer : Bytes} {e n : Nat} (next : nextSize buffer = some (e, n)) :
    find crlf buffer = some e ∧ stoul 16 (buffer.take e) = .ok n := by
  unfold nextSize at next
  split at next
  · cases next
  · split at next
    · cases next
    · simp only [Option.some.injEq, Prod.mk.injEq] at next
      obtain ⟨rfl, rfl⟩ := next
      exact ⟨‹_›, ‹_›⟩

theorem nextSize_of {buffer : Bytes} {e n : Nat} (found : find crlf buffer = some e)
    (parsed : stoul 16 (buffer.take e) = .ok n) : nextSize buffer = some (e, n) := by
  simp only [nextSize, found, parsed]

/-- A size line, once complete, stays the next one. -/
theorem nextSize_append {buffer : Bytes} {e n : Nat} (next : nextSize buffer = some (e, n))
    (xs : Bytes) : nextSize (buffer ++ xs) = some (e, n) := by
  obtain ⟨found, parsed⟩ := nextSize_eq_some next
  have bound := Search.find_le found
  rw [crlf_length] at bound
  refine nextSize_of (Search.find_append found xs) ?_
  rw [List.take_append_of_le_length (by omega), parsed]

/-- A turn of the chunk loop, by the size that stands next. -/
theorem parseChunk_size {c : HttpContext} {e n : Nat} (next : nextSize c.buffer = some (e, n)) :
    parseChunk c =
      if c.buffer.length < sizeT (e + 2 + n + 2) then .ok .wait
      else if n = 0 then
        .ok (.complete { c with completeRequest := true, buffer := c.buffer.drop (e + 4) })
      else
        .ok (.again { c with
          request := c.request.addBody ((c.buffer.drop (e + 2)).take n)
          buffer := c.buffer.drop (e + 2 + sizeT (n + 2)) }) := by
  obtain ⟨found, parsed⟩ := nextSize_eq_some next
  unfold parseChunk
  simp only [found, parsed, List.drop_drop]

/-- A turn of the chunk loop whose sum does not wrap, in exact arithmetic. -/
theorem parseChunk_of_size {c : HttpContext} {e n : Nat} (next : nextSize c.buffer = some (e, n))
    (fits : e + 2 + n + 2 < sizeModulus) :
    parseChunk c =
      if c.buffer.length < e + 2 + n + 2 then .ok .wait
      else if n = 0 then
        .ok (.complete { c with completeRequest := true, buffer := c.buffer.drop (e + 4) })
      else
        .ok (.again { c with
          request := c.request.addBody ((c.buffer.drop (e + 2)).take n)
          buffer := c.buffer.drop (e + 2 + n + 2) }) := by
  rw [parseChunk_size next, sizeT_of_lt fits, sizeT_of_lt (show n + 2 < sizeModulus by omega),
    show e + 2 + (n + 2) = e + 2 + n + 2 by omega]

theorem sizeWraps_of_size {buffer : Bytes} {e n : Nat} (next : nextSize buffer = some (e, n)) :
    sizeWraps buffer = decide (sizeModulus ≤ e + 2 + n + 2) := by
  simp only [sizeWraps, next]

/-- Without a next size, a turn waits for the line or throws from `std::stoul`. -/
theorem parseChunk_of_no_size {c : HttpContext} (absent : nextSize c.buffer = none) :
    (find crlf c.buffer = none ∧ parseChunk c = .ok .wait) ∨
      ∃ e f, find crlf c.buffer = some e ∧ stoul 16 (c.buffer.take e) = .error f ∧
        parseChunk c = .error f := by
  unfold parseChunk
  cases found : find crlf c.buffer with
  | none => exact Or.inl ⟨rfl, rfl⟩
  | some e =>
      cases parsed : stoul 16 (c.buffer.take e) with
      | error f => exact Or.inr ⟨e, f, rfl, parsed, by simp only [parsed]⟩
      | ok n => rw [nextSize_of found parsed] at absent; cases absent

/-- What a turn that goes on has read. -/
theorem parseChunk_eq_again {c c' : HttpContext} (again : parseChunk c = .ok (.again c')) :
    ∃ e n, nextSize c.buffer = some (e, n) ∧ n ≠ 0 ∧
      ¬ c.buffer.length < sizeT (e + 2 + n + 2) ∧
      c' = { c with
        request := c.request.addBody ((c.buffer.drop (e + 2)).take n)
        buffer := c.buffer.drop (e + 2 + sizeT (n + 2)) } := by
  cases next : nextSize c.buffer with
  | none =>
      rcases parseChunk_of_no_size next with ⟨-, waits⟩ | ⟨e, f, -, -, thrown⟩
      · rw [waits] at again
        cases again
      · rw [thrown] at again
        cases again
  | some size =>
      obtain ⟨e, n⟩ := size
      rw [parseChunk_size next] at again
      split_ifs at again with short last
      · cases again
      · cases again
      · exact ⟨e, n, rfl, last, short, (Chunk.again.inj (Except.ok.inj again)).symm⟩

/-- What the turn of the last chunk has read. -/
theorem parseChunk_eq_complete {c c' : HttpContext} (complete : parseChunk c = .ok (.complete c')) :
    ∃ e, nextSize c.buffer = some (e, 0) ∧
      c' = { c with completeRequest := true, buffer := c.buffer.drop (e + 4) } := by
  cases next : nextSize c.buffer with
  | none =>
      rcases parseChunk_of_no_size next with ⟨-, waits⟩ | ⟨e, f, -, -, thrown⟩
      · rw [waits] at complete
        cases complete
      · rw [thrown] at complete
        cases complete
  | some size =>
      obtain ⟨e, n⟩ := size
      rw [parseChunk_size next] at complete
      split_ifs at complete with short last
      · cases complete
      · subst last
        exact ⟨e, rfl, (Chunk.complete.inj (Except.ok.inj complete)).symm⟩
      · cases complete

/-- The chunk loop adds to the body, and leaves the rest of the request alone. -/
theorem parseChunkedBody_frame {c c' : HttpContext} {ok : Bool}
    (parsed : parseChunkedBody c = .ok (ok, c')) :
    c'.request = { c.request with body := c'.request.body } ∧
      c'.completeHeaders = c.completeHeaders := by
  induction measured : c.buffer.length using Nat.strongRecOn generalizing c with
  | ind n ih =>
      rw [parseChunkedBody_eq] at parsed
      cases turned : parseChunk c with
      | error f =>
          rw [turned] at parsed
          cases parsed
      | ok turn =>
          rw [turned] at parsed
          cases turn with
          | wait =>
              cases parsed
              exact ⟨rfl, rfl⟩
          | complete c₁ =>
              cases parsed
              obtain ⟨e, -, rfl⟩ := parseChunk_eq_complete turned
              exact ⟨rfl, rfl⟩
          | again c₁ =>
              have shorter := parseChunk_again_length turned
              obtain ⟨same, headers⟩ := ih c₁.buffer.length (by omega) parsed rfl
              obtain ⟨e, k, -, -, -, rfl⟩ := parseChunk_eq_again turned
              exact ⟨same, headers⟩

/-- So does everything behind the header block. -/
theorem parseBody_frame {c c' : HttpContext} {ok : Bool} (parsed : parseBody c = .ok (ok, c')) :
    c'.request = { c.request with body := c'.request.body } ∧
      c'.completeHeaders = c.completeHeaders := by
  have finished (c : HttpContext) :
      (finish c).request = { c.request with body := (finish c).request.body } ∧
        (finish c).completeHeaders = c.completeHeaders := by
    unfold finish
    split_ifs <;> exact ⟨rfl, rfl⟩
  unfold parseBody at parsed
  split_ifs at parsed
  · exact parseChunkedBody_frame parsed
  · cases parsed
    exact finished _
  · split at parsed
    · cases parsed
      exact ⟨rfl, rfl⟩
    · split_ifs at parsed
      · cases parsed
        exact ⟨rfl, rfl⟩
      · cases parsed
        exact finished _
  · cases parsed
    exact finished _

theorem passChunk_push {c : HttpContext} (moves : passChunk c ≠ .wait) (xs : Bytes) :
    passChunk (c.push xs) = (passChunk c).map (push · xs) (Stop.push · xs) := by
  cases next : nextSize c.buffer with
  | none =>
      have noWrap : sizeWraps c.buffer = false := by simp only [sizeWraps, next]
      rcases parseChunk_of_no_size next with ⟨-, waits⟩ | ⟨e, f, found, thrown, turned⟩
      · exact absurd (by simp [passChunk, noWrap, waits]) moves
      · have bound := Search.find_le found
        rw [crlf_length] at bound
        have found' : find crlf (c.buffer ++ xs) = some e := Search.find_append found xs
        have thrown' : stoul 16 ((c.buffer ++ xs).take e) = .error f := by
          rw [List.take_append_of_le_length (by omega), thrown]
        have noWrap' : sizeWraps (c.buffer ++ xs) = false := by
          simp only [sizeWraps, nextSize, found', thrown']
        have turned' : parseChunk (c.push xs) = .error f := by
          simp only [parseChunk, push_buffer, found', thrown']
        simp only [passChunk, push_buffer, noWrap, noWrap', turned, turned', Bool.false_eq_true,
          if_false]
        rfl
  | some size =>
      obtain ⟨e, n⟩ := size
      have next' : nextSize (c.push xs).buffer = some (e, n) := nextSize_append next xs
      by_cases fits : e + 2 + n + 2 < sizeModulus
      · have noWrap := sizeWraps_of_size next
        have noWrap' := sizeWraps_of_size next'
        rw [decide_eq_false (by omega)] at noWrap noWrap'
        by_cases short : c.buffer.length < e + 2 + n + 2
        · have waits := parseChunk_of_size next fits
          rw [if_pos short] at waits
          exact absurd (by simp [passChunk, noWrap, waits]) moves
        · have longer : ¬ (c.push xs).buffer.length < e + 2 + n + 2 := by
            rw [push_buffer, List.length_append]; omega
          simp only [passChunk, noWrap, noWrap', parseChunk_of_size next fits,
            parseChunk_of_size next' fits, if_neg short, if_neg longer, Bool.false_eq_true,
            if_false]
          by_cases last : n = 0
          · simp only [last, if_true, push_buffer, List.drop_append_of_le_length
              (show e + 4 ≤ c.buffer.length by omega)]
            rfl
          · simp only [last, if_false, push_buffer, push_request, List.drop_append_of_le_length
              (show e + 2 + n + 2 ≤ c.buffer.length by omega), List.drop_append_of_le_length
              (show e + 2 ≤ c.buffer.length by omega), List.take_append_of_le_length
              (show n ≤ (c.buffer.drop (e + 2)).length by rw [List.length_drop]; omega)]
            rfl
      · have wraps := sizeWraps_of_size next
        have wraps' := sizeWraps_of_size next'
        rw [decide_eq_true (by omega)] at wraps wraps'
        simp only [passChunk, wraps, wraps', if_true]
        rfl

theorem passLength_push {c : HttpContext} (moves : passLength c ≠ .wait) (xs : Bytes) :
    passLength (c.push xs) = (passLength c).map (push · xs) (Stop.push · xs) := by
  unfold passLength at moves ⊢
  by_cases short : c.buffer.length < c.contentLength
  · exact absurd (if_pos short) moves
  · have longer : ¬ (c.push xs).buffer.length < (c.push xs).contentLength := by
      simp only [push_buffer, push_contentLength, List.length_append]; omega
    rw [if_neg short, if_neg longer]
    simp only [Pass.map, Stop.push, Pass.stop.injEq, Stop.complete.injEq]
    unfold finish
    rw [push_contentLength]
    split_ifs
    · simp only [push, List.take_append_of_le_length
        (show c.contentLength ≤ c.buffer.length by omega), List.drop_append_of_le_length
        (show c.contentLength ≤ c.buffer.length by omega)]
    · rfl

theorem passHead_push {c : HttpContext} (moves : passHead c ≠ .wait) (xs : Bytes) :
    passHead (c.push xs) = (passHead c).map (push · xs) (Stop.push · xs) := by
  unfold passHead at moves ⊢
  cases parsed : parseHead c with
  | error f =>
      rw [parseHead_push_error parsed xs]
      rfl
  | ok head =>
      cases head with
      | incomplete => simp [parsed] at moves
      | refused c' =>
          rw [parseHead_push parsed (by simp) xs]
          rfl
      | parsed c' =>
          rw [parseHead_push parsed (by simp) xs]
          exact passFraming_push c' xs

/-- **Stability of the parser**: a pass that does not wait decides the same when
more bytes stand behind. -/
theorem pass_push {c : HttpContext} (moves : pass c ≠ .wait) (xs : Bytes) :
    pass (c.push xs) = (pass c).map (push · xs) (Stop.push · xs) := by
  unfold pass at moves ⊢
  rw [push_completeHeaders, push_request]
  split_ifs at moves ⊢
  · exact passChunk_push moves xs
  · exact passLength_push moves xs
  · exact passHead_push moves xs

/-- The buffer, and one for a header block not parsed yet. -/
def weight (c : HttpContext) : Nat := c.buffer.length + if c.completeHeaders then 0 else 1

theorem passFraming_next {c c' : HttpContext} (next : passFraming c = .next c') :
    c'.buffer = c.buffer ∧ c'.completeHeaders = c.completeHeaders := by
  unfold passFraming at next
  split_ifs at next
  · cases next; exact ⟨rfl, rfl⟩
  · split at next <;> cases next
    exact ⟨rfl, rfl⟩

theorem pass_next_weight {c c' : HttpContext} (next : pass c = .next c') :
    c'.weight < c.weight := by
  unfold pass at next
  split_ifs at next with headers isChunked
  · unfold passChunk at next
    split_ifs at next
    split at next <;> cases next
    have shorter := parseChunk_again_length ‹_›
    simp only [weight, headers, if_true]
    split_ifs <;> omega
  · unfold passLength at next
    split_ifs at next
  · unfold passHead at next
    split at next
    · cases next
    · cases next
    · cases next
    · rename_i parsed parsedHead
      obtain ⟨complete, -, -, shorter⟩ := parseHead_parsed parsedHead
      obtain ⟨sameBuffer, sameHeaders⟩ := passFraming_next next
      simp only [weight, sameBuffer, sameHeaders, complete, headers, if_true]
      omega

/-- The parser as a decoder. -/
def requestDecoder : Decoder HttpContext Stop UInt8 where
  push := push
  pushResult := Stop.push
  pass := pass
  weight := weight
  push_nil := push_nil
  push_push := push_push
  pushResult_nil := by intro r; cases r <;> simp [Stop.push]
  pushResult_pushResult := by intro r xs ys; cases r <;> simp [Stop.push]
  pass_push := pass_push
  next_weight := pass_next_weight

/-! ## `ParseRequest` drains the decoder -/

/-- A context whose header block selects a body of known length, which has been read. -/
def Sized (c : HttpContext) : Prop :=
  chunked c.request = false ∧ readsBuffered c.request = false ∧
    c.request.hasHeader (ascii "Content-Length") = true ∧
    stoul 10 (c.request.getHeaderString (ascii "Content-Length")) = .ok c.contentLength

/-- A context that waits for more bytes of a request. -/
structure Ready (c : HttpContext) : Prop where
  unfinished : c.completeRequest = false
  unframed : c.completeHeaders = false → c.contentLength = 0
  framed : c.completeHeaders = true → chunked c.request = true ∨ Sized c

theorem fresh_ready : Ready fresh := ⟨rfl, fun _ => rfl, by simp [fresh]⟩

/-- What a call answers, given what its bytes drain to.  At the two unstable
stops nothing is said. -/
def Agrees (answer : Result (Bool × HttpContext)) : Verdict HttpContext Stop → Prop
  | .waiting c => answer = .ok (true, c) ∧ Ready c
  | .stopped (.thrown f) => answer = .error f
  | .stopped (.refused c) => answer = .ok (false, c)
  | .stopped (.complete c) => answer = .ok (true, c) ∧ c.completeRequest = true
  | .stopped (.buffered _) => True
  | .stopped (.wraps _) => True

theorem parseChunk_again_keeps {c c' : HttpContext} (again : parseChunk c = .ok (.again c')) :
    c'.completeHeaders = c.completeHeaders ∧ c'.completeRequest = c.completeRequest ∧
      c'.contentLength = c.contentLength ∧ c'.request.headers = c.request.headers ∧
      c'.request.version = c.request.version := by
  obtain ⟨e, n, -, -, -, rfl⟩ := parseChunk_eq_again again
  exact ⟨rfl, rfl, rfl, rfl, rfl⟩

theorem parseChunk_complete {c c' : HttpContext} (complete : parseChunk c = .ok (.complete c')) :
    c'.completeRequest = true ∧ c'.request = c.request ∧
      c'.completeHeaders = c.completeHeaders := by
  obtain ⟨e, -, rfl⟩ := parseChunk_eq_complete complete
  exact ⟨rfl, rfl, rfl⟩

theorem chunked_congr {r r' : HttpRequest} (same : r'.headers = r.headers) :
    chunked r' = chunked r := by
  simp only [chunked, HttpRequest.hasHeader, HttpRequest.getHeaderString, same]

theorem pass_of_chunked {c : HttpContext} (headers : c.completeHeaders = true)
    (isChunked : chunked c.request = true) : pass c = passChunk c := by
  simp only [pass, headers, isChunked, if_true]

theorem parseChunkedBody_agrees {c : HttpContext} (headers : c.completeHeaders = true)
    (isChunked : chunked c.request = true) (unfinished : c.completeRequest = false) :
    Agrees (parseChunkedBody c) (requestDecoder.drain c) := by
  induction measured : c.buffer.length using Nat.strongRecOn generalizing c with
  | ind n ih =>
      have passes : requestDecoder.pass c = passChunk c := pass_of_chunked headers isChunked
      by_cases wraps : sizeWraps c.buffer = true
      · rw [Decoder.drain_of_stop (passes.trans (if_pos wraps))]
        trivial
      rw [passChunk, if_neg wraps] at passes
      rw [parseChunkedBody_eq]
      cases turned : parseChunk c with
      | error f =>
          rw [turned] at passes
          rw [Decoder.drain_of_stop passes]
          rfl
      | ok turn =>
          rw [turned] at passes
          cases turn with
          | wait =>
              rw [Decoder.drain_of_wait passes]
              exact ⟨rfl, unfinished, by simp [headers], fun _ => Or.inl isChunked⟩
          | complete c' =>
              rw [Decoder.drain_of_stop passes]
              exact ⟨rfl, (parseChunk_complete turned).1⟩
          | again c' =>
              rw [Decoder.drain_of_next passes]
              have shorter := parseChunk_again_length turned
              obtain ⟨headers', finished', -, sameHeaders, -⟩ := parseChunk_again_keeps turned
              exact ih c'.buffer.length (by omega) (headers'.trans headers)
                ((chunked_congr sameHeaders).trans isChunked) (finished'.trans unfinished) rfl

theorem passLength_agrees {c : HttpContext} (headers : c.completeHeaders = true)
    (sized : Sized c) (unfinished : c.completeRequest = false) :
    Agrees (if c.buffer.length < c.contentLength then .ok (true, c) else .ok (true, finish c))
      (requestDecoder.drain c) := by
  have passes : requestDecoder.pass c = passLength c := by
    show pass c = passLength c
    simp only [pass, headers, sized.1, if_true, Bool.false_eq_true, if_false]
  by_cases short : c.buffer.length < c.contentLength
  · rw [if_pos short, Decoder.drain_of_wait (passes.trans (if_pos short))]
    exact ⟨rfl, unfinished, by simp [headers], fun _ => Or.inr sized⟩
  · rw [if_neg short, Decoder.drain_of_stop (passes.trans (if_neg short))]
    refine ⟨rfl, ?_⟩
    unfold finish
    split_ifs <;> rfl

/-- A body of known length that has arrived. -/
theorem drain_sized {c : HttpContext} (headers : c.completeHeaders = true)
    (notChunked : chunked c.request ≠ true) (enough : c.contentLength ≤ c.buffer.length) :
    requestDecoder.drain c = .stopped (.complete (finish c)) := by
  have passes : requestDecoder.pass c = passLength c := by
    show pass c = passLength c
    rw [pass, if_pos headers, if_neg notChunked]
  rw [passLength, if_neg (by omega)] at passes
  exact Decoder.drain_of_stop passes

/-- The part of `ParseRequest` behind the header block, on a context whose
headers have just been parsed. -/
theorem parseBody_agrees {c : HttpContext} (headers : c.completeHeaders = true)
    (unsized : c.contentLength = 0) (unfinished : c.completeRequest = false) :
    Agrees (parseBody c) (match passFraming c with
      | .wait => .waiting c
      | .stop r => .stopped r
      | .next c' => requestDecoder.drain c') := by
  unfold parseBody passFraming
  split_ifs with isChunked isBuffered isSized
  · exact parseChunkedBody_agrees headers isChunked unfinished
  · trivial
  · cases parsed : stoul 10 (c.request.getHeaderString (ascii "Content-Length")) with
    | error f => rfl
    | ok n =>
        have sized : Sized { c with contentLength := n } :=
          ⟨by simpa using isChunked, by simpa using isBuffered, isSized, parsed⟩
        exact passLength_agrees headers sized unfinished
  · simp only [finish, unsized, lt_irrefl, if_false]
    exact ⟨rfl, rfl⟩

/-- **`ParseRequest` computes the drain of its decoder**, unless the run meets one
of the two unstable places. -/
theorem parseRequest_drain {c : HttpContext} (ready : Ready c) (s : Bytes) :
    Agrees (parseRequest c s) (requestDecoder.drain (c.push s)) := by
  rw [parseRequest_eq]
  by_cases headers : c.completeHeaders = true
  · rw [if_pos headers]
    rcases ready.framed headers with isChunked | sized
    · rw [parseBody, push_request, if_pos isChunked]
      exact parseChunkedBody_agrees headers isChunked ready.unfinished
    · obtain ⟨notChunked, notBuffered, hasLength, length⟩ := sized
      have answer : parseBody (c.push s) =
          if (c.push s).buffer.length < (c.push s).contentLength then .ok (true, c.push s)
          else .ok (true, finish (c.push s)) := by
        simp only [parseBody, push_request, notChunked, notBuffered, hasLength, length,
          Bool.false_eq_true, if_false, if_true, push_contentLength]
        rfl
      rw [answer]
      exact passLength_agrees headers ⟨notChunked, notBuffered, hasLength, length⟩
        ready.unfinished
  · have passes : requestDecoder.pass (c.push s) = passHead (c.push s) := by
      show pass (c.push s) = passHead (c.push s)
      rw [pass, push_completeHeaders, if_neg headers]
    rw [if_neg headers]
    unfold passHead at passes
    cases parsed : parseHead (c.push s) with
    | error f =>
        rw [parsed] at passes
        rw [Decoder.drain_of_stop passes]
        rfl
    | ok head =>
        rw [parsed] at passes
        cases head with
        | incomplete =>
            rw [Decoder.drain_of_wait passes]
            exact ⟨rfl, ready.unfinished, ready.unframed, by simp [headers]⟩
        | refused c' =>
            rw [Decoder.drain_of_stop passes]
            rfl
        | parsed c' =>
            obtain ⟨headers', finished', length', -⟩ := parseHead_parsed parsed
            have unsized : c'.contentLength = 0 :=
              length'.trans (ready.unframed (by simpa using headers))
            have agrees := parseBody_agrees headers' unsized (finished'.trans ready.unfinished)
            simp only at passes ⊢
            cases framing : passFraming c' with
            | wait =>
                rw [framing] at agrees passes
                rw [Decoder.drain_of_wait passes]
                exact absurd framing (by unfold passFraming; split_ifs <;> (try split) <;> simp)
            | stop r =>
                rw [framing] at agrees passes
                rw [Decoder.drain_of_stop passes]
                exact agrees
            | next c'' =>
                rw [framing] at agrees passes
                rw [Decoder.drain_of_next passes]
                exact agrees

end HttpContext

end CppFileServer.Http
