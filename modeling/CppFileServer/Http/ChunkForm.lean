/-
# Http.ChunkForm -- chunked encodings, and how the chunk loop reads them

`ChunkLine` is a size line of the chunked coding: hexadecimal digits and perhaps an
extension behind a semicolon, announcing a chunk that a `std::string` can hold.
`Chunked` is the form of a whole body.  The chunk loop reads a body of that form
exactly (`drain_chunked`) and waits inside it (`drain_part`).

`Reads` says where the loop gets to in its buffer when no sum wraps.  Whatever it
reads, the loop never returns false (`parseChunkedBody_true`).
-/
import CppFileServer.Http.RequestDecoder

namespace CppFileServer.Http

set_option autoImplicit false

open CppFileServer.Cpp CppFileServer.Theory

/-- A numeral for `n`, of any number of digits. -/
structure Numeral (base : Nat) (digits : Bytes) (n : Nat) : Prop where
  plain : ∀ b ∈ digits, isDigit base b = true
  nonempty : digits ≠ []
  value : numeral base digits = n

theorem isDigit_ne_cr {base : Nat} {b : UInt8} (digit : isDigit base b = true) : b ≠ 13 := by
  intro isCr
  have notSpace := (isDigit_plain digit).1
  rw [isCr] at notSpace
  exact absurd notSpace (by decide)

theorem Numeral.noCr {base : Nat} {digits : Bytes} {n : Nat} (written : Numeral base digits n) :
    (13 : UInt8) ∉ digits :=
  fun member => isDigit_ne_cr (written.plain 13 member) rfl

/-- `std::stoul` reads a numeral up to the end or a semicolon. -/
theorem Numeral.stoul {base : Nat} {digits ext : Bytes} {n : Nat}
    (written : Numeral base digits n) (fits : n < 2 ^ 64)
    (ends : ext = [] ∨ ∃ more, ext = 59 :: more) : Cpp.stoul base (digits ++ ext) = .ok n := by
  have read : Cpp.stoul base (digits ++ ext) = .ok (numeral base digits) := by
    apply stoul_numeral written.plain written.nonempty
    · show numeral base digits < 2 ^ 64
      rw [written.value]
      exact fits
    · intro b more starts
      rcases ends with empty | ⟨ext', semicolon⟩
      · rw [empty] at starts
        cases starts
      · rw [semicolon, List.cons.injEq] at starts
        rw [← starts.1]
        exact ⟨rfl, by decide, by decide⟩
  rw [read, written.value]

/-! ## The form -/

/-- A size line for a chunk of `n` bytes. -/
structure ChunkLine (line : Bytes) (n : Nat) : Prop where
  shape : ∃ digits ext, line = digits ++ ext ∧ Numeral 16 digits n ∧
    (ext = [] ∨ ∃ more, ext = 59 :: more)
  unbroken : ¬ crlf <:+: line
  fits : line.length + n + 4 < 2 ^ 64

/-- `Chunked enc data`: `enc` is a chunked encoding of `data`. -/
inductive Chunked : Bytes → Bytes → Prop
  | last {line : Bytes} (size : ChunkLine line 0) : Chunked (line ++ crlf ++ crlf) []
  | more {line data enc rest : Bytes} (size : ChunkLine line data.length) (nonempty : data ≠ [])
      (tail : Chunked enc rest) : Chunked (line ++ crlf ++ (data ++ (crlf ++ enc))) (data ++ rest)

/-- A plain numeral is a size line. -/
theorem Numeral.chunkLine {line : Bytes} {n : Nat} (written : Numeral 16 line n)
    (fits : line.length + n + 4 < 2 ^ 64) : ChunkLine line n where
  shape := ⟨line, [], (List.append_nil line).symm, written, Or.inl rfl⟩
  unbroken := fun inside => written.noCr (inside.subset (by decide))
  fits := fits

namespace ChunkLine

variable {line : Bytes} {n : Nat} (size : ChunkLine line n)

include size

theorem stoul : Cpp.stoul 16 line = .ok n := by
  obtain ⟨digits, ext, rfl, written, ends⟩ := size.shape
  have fits := size.fits
  exact written.stoul (by omega) ends

theorem nextSize (rest : Bytes) :
    HttpContext.nextSize (line ++ crlf ++ rest) = some (line.length, n) := by
  refine HttpContext.nextSize_of (find_crlf_unbroken size.unbroken rest) ?_
  rw [List.append_assoc, List.take_left' rfl]
  exact size.stoul

theorem exact : line.length + 2 + n + 2 < sizeModulus := by
  have fits := size.fits
  show _ < 2 ^ 64
  omega

/-- A pass of the decoder at a size line of the form. -/
theorem passChunk {c : HttpContext} {rest : Bytes} (layout : c.buffer = line ++ crlf ++ rest) :
    HttpContext.passChunk c =
      if rest.length < n + 2 then .wait
      else if n = 0 then .stop (.complete { c with completeRequest := true, buffer := rest.drop 2 })
      else .next { c with
        request := c.request.addBody (rest.take n)
        buffer := rest.drop (n + 2) } := by
  have next : HttpContext.nextSize c.buffer = some (line.length, n) := by
    rw [layout]
    exact size.nextSize rest
  have noWrap : ¬ HttpContext.sizeWraps c.buffer = true := by
    have := size.exact
    rw [HttpContext.sizeWraps_of_size next, decide_eq_true_eq]
    omega
  have turned := HttpContext.parseChunk_of_size next size.exact
  have behindLine : c.buffer.drop (line.length + 2) = rest := by
    rw [layout]
    exact List.drop_left' (by simp)
  have length : c.buffer.length = line.length + 2 + rest.length := by
    rw [layout]
    simp only [List.length_append, crlf_length]
  have behindLast : c.buffer.drop (line.length + 4) = rest.drop 2 := by
    rw [← behindLine, List.drop_drop]
  have behindData : c.buffer.drop (line.length + 2 + n + 2) = rest.drop (n + 2) := by
    rw [← behindLine, List.drop_drop]
    rfl
  rw [behindLine, behindLast, behindData, length] at turned
  rw [HttpContext.passChunk, if_neg noWrap, turned]
  by_cases short : rest.length < n + 2
  · rw [if_pos short, if_pos (by omega)]
  · rw [if_neg short, if_neg (by omega)]
    by_cases zero : n = 0
    · rw [if_pos zero, if_pos zero]
    · rw [if_neg zero, if_neg zero]

end ChunkLine

namespace HttpContext

/-! ## The chunk loop reads the form -/

/-- The state behind a chunked body. -/
def bodyRead (c : HttpContext) (data more : Bytes) : HttpContext :=
  { c with request := c.request.addBody data, completeRequest := true, buffer := more }

theorem drain_chunked {enc data : Bytes} (form : Chunked enc data) {c : HttpContext}
    (headers : c.completeHeaders = true) (isChunked : chunked c.request = true) {more : Bytes}
    (buffer : c.buffer = enc ++ more) :
    requestDecoder.drain c = .stopped (.complete (c.bodyRead data more)) := by
  induction form generalizing c with
  | @last line size =>
      have passes : requestDecoder.pass c = passChunk c := pass_of_chunked headers isChunked
      have layout : c.buffer = line ++ crlf ++ (crlf ++ more) := by
        rw [buffer, List.append_assoc]
      have enough : ¬ (crlf ++ more).length < 0 + 2 := by
        rw [List.length_append, crlf_length]
        omega
      rw [size.passChunk layout, if_neg enough, if_pos rfl] at passes
      have behind : (crlf ++ more).drop 2 = more := List.drop_left' rfl
      rw [Decoder.drain_of_stop passes, behind]
      simp [bodyRead, HttpRequest.addBody]
  | @more line data enc rest size nonempty tail ih =>
      have passes : requestDecoder.pass c = passChunk c := pass_of_chunked headers isChunked
      have layout : c.buffer = line ++ crlf ++ (data ++ (crlf ++ (enc ++ more))) := by
        rw [buffer]
        simp only [List.append_assoc]
      have positive : data.length ≠ 0 := by simpa using nonempty
      have behind : (data ++ (crlf ++ (enc ++ more))).drop (data.length + 2) = enc ++ more := by
        rw [← List.append_assoc]
        exact List.drop_left' (by simp)
      have enough : ¬ (data ++ (crlf ++ (enc ++ more))).length < data.length + 2 := by
        simp only [List.length_append, crlf_length]
        omega
      rw [size.passChunk layout, if_neg enough, if_neg positive, List.take_left' rfl,
        behind] at passes
      have later := ih (c := { c with
        request := c.request.addBody data
        buffer := enc ++ more }) headers ((chunked_congr rfl).trans isChunked) rfl
      rw [Decoder.drain_of_next passes, later]
      simp [bodyRead, HttpRequest.addBody]

/-- A chunked body is a message of the decoder, once its header block is parsed. -/
theorem chunked_message {enc data : Bytes} (form : Chunked enc data) {c : HttpContext}
    (headers : c.completeHeaders = true) (isChunked : chunked c.request = true)
    (empty : c.buffer = []) :
    requestDecoder.Message c enc (.complete (c.bodyRead data [])) where
  drains := by
    rw [drain_chunked (c := requestDecoder.push c enc) form headers isChunked
      (show c.buffer ++ enc = enc ++ [] by rw [empty, List.append_nil, List.nil_append])]
    rfl
  clean := by
    intro stop xs behind
    cases stop with
    | complete c' =>
        have buffers := congrArg Stop.held behind
        exact (List.append_eq_nil_iff.mp buffers).2
    | _ => cases behind

/-- The loop waits inside a chunked body. -/
theorem drain_part {enc data : Bytes} (form : Chunked enc data) {c : HttpContext}
    (headers : c.completeHeaders = true) (isChunked : chunked c.request = true)
    {missing : Bytes} (cut : c.buffer ++ missing = enc) (proper : missing ≠ []) :
    ∃ c', requestDecoder.drain c = .waiting c' := by
  have message := chunked_message form (c := { c with buffer := [] }) headers isChunked rfl
  exact message.waits requestDecoder cut proper

/-- Behind a header block that announces a chunked body, draining goes on in the loop. -/
theorem drain_of_head {c c₀ : HttpContext} (headless : c.completeHeaders = false)
    (head : parseHead c = .ok (.parsed c₀)) (isChunked : chunked c₀.request = true) :
    requestDecoder.drain c = requestDecoder.drain c₀ := by
  apply Decoder.drain_of_next
  show pass c = .next c₀
  simp only [pass, headless, passHead, head, passFraming, isChunked, if_true, Bool.false_eq_true,
    if_false]

/-! ## Where the loop gets to -/

/-- `Reads b b'`: reading whole chunks off `b` comes to `b'`. -/
inductive Reads : Bytes → Bytes → Prop
  | here (b : Bytes) : Reads b b
  | chunk {b b' : Bytes} {e n : Nat} (next : nextSize b = some (e, n)) (positive : n ≠ 0)
      (whole : e + 2 + n + 2 ≤ b.length) (reads : Reads (b.drop (e + 2 + n + 2)) b') :
      Reads b b'

/-- The chunk loop never refuses, and keeps the context in the loop until it is complete. -/
theorem parseChunkedBody_true {c c' : HttpContext} {ok : Bool}
    (parsed : parseChunkedBody c = .ok (ok, c')) :
    ok = true ∧ c'.request.headers = c.request.headers ∧
      c'.completeHeaders = c.completeHeaders := by
  induction measured : c.buffer.length using Nat.strongRecOn generalizing c with
  | ind k ih =>
      rw [parseChunkedBody_eq] at parsed
      cases turned : parseChunk c with
      | error f =>
          rw [turned] at parsed
          cases parsed
      | ok turn =>
          rw [turned] at parsed
          cases turn with
          | wait =>
              cases parsed
              exact ⟨rfl, rfl, rfl⟩
          | complete c₁ =>
              cases parsed
              obtain ⟨-, request, headers⟩ := parseChunk_complete turned
              exact ⟨rfl, by rw [request], headers⟩
          | again c₁ =>
              have shorter := parseChunk_again_length turned
              obtain ⟨headers, -, -, fields, -⟩ := parseChunk_again_keeps turned
              obtain ⟨isTrue, fields', headers'⟩ := ih _ (by omega) parsed rfl
              exact ⟨isTrue, fields'.trans fields, headers'.trans headers⟩

end HttpContext

end CppFileServer.Http
