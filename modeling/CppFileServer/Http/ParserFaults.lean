/-
# Http.ParserFaults -- which calls of `ParseRequest` answer, and which refuse

Four places can throw or let malformed input pass: `line.substr(colon + 2)` on a
field line that ends with its colon, the name of a field, which may be empty or
hold blanks, `std::stoul` on a chunk size line, outside any handler, and
`std::stoul` on a `Content-Length`, which skips what it does not understand.  The
request line is safe.

`Malformed` says that a call meets a malformed field line, length or size line, and
`Tractable` when it copes.  A run answers throughout, and refuses what is malformed,
exactly if all its calls are tractable (`parser_answers_iff`).
-/
import CppFileServer.Http.HeaderLines
import CppFileServer.Http.Reader
import Mathlib.Data.List.DropRight

namespace CppFileServer.Http

set_option autoImplicit false

open CppFileServer.Cpp CppFileServer.Theory

/-! ## Field lines -/

/-- A field line: a name without blanks, of at least one byte, a colon, and any value. -/
def FieldLine (line : Bytes) : Prop :=
  ∃ colon, find (ascii ":") line = some colon ∧ 0 < colon ∧
    ∀ b ∈ line.take colon, isBlank b = false

/-- A value without the blanks around it. -/
def trimBlanks (laid : Bytes) : Bytes := (laid.dropWhile isBlank).rdropWhile isBlank

example : trimBlanks (ascii " 5 ") = ascii "5" := by decide

/-- Field lines of which each `Content-Length` is a decimal numeral. -/
structure WellFormedFields (fields : List Bytes) : Prop where
  lines : ∀ line ∈ fields, FieldLine line
  lengths : ∀ laid, ascii "Content-Length:" ++ laid ∈ fields →
    ∃ n, Numeral 10 (trimBlanks laid) n

/-- Something stands behind the colon, so that `line.substr(colon + 2)` does not throw. -/
def HasValue (line : Bytes) : Prop :=
  ∃ colon, find (ascii ":") line = some colon ∧ colon + 1 < line.length

/-- The first line that has no colon, or nothing behind its colon, has no colon. -/
def FirstFaultColonless (lines : List Bytes) : Prop :=
  ∀ before line after, lines = before ++ line :: after → (∀ l ∈ before, HasValue l) →
    ¬ HasValue line → find (ascii ":") line = none

namespace HttpContext

/-- The length is looked at, and `std::stoul` refuses it. -/
def LengthRefused (r : HttpRequest) : Prop :=
  chunked r = false ∧ readsBuffered r = false ∧
    ∃ value f, r.headers (ascii "Content-Length") = some value ∧ stoul 10 value = .error f

/-- The lines of the header block that a call completes: the request line and the fields. -/
def headLines (c : HttpContext) (s : Bytes) : Option (List Bytes) :=
  if c.completeHeaders then none
  else (find crlfcrlf (c.buffer ++ s)).map fun e => crlfLines ((c.buffer ++ s).take (e + 2))

/-- A call meets something malformed. -/
inductive Malformed (c : HttpContext) (s : Bytes) : Prop
  | fields {requestLine : Bytes} {fields : List Bytes}
      (head : c.headLines s = some (requestLine :: fields)) (malformed : ¬ WellFormedFields fields)
  | size {c₀ : HttpContext} {b : Bytes} {e : Nat} (start : c.loopStart s = some c₀)
      (reads : Reads c₀.buffer b) (found : find crlf b = some e)
      (malformed : ∀ n, ¬ ChunkLine (b.take e) n)

/-- What is asked of a call: true or false, and false when it meets something malformed. -/
structure Answers (c : HttpContext) (s : Bytes) : Prop where
  returns : ∃ ok c', c.parseRequest s = .ok (ok, c')
  refuses : Malformed c s → ∃ c', c.parseRequest s = .ok (false, c')

/-- The calls the parser copes with.  Fields are looked at behind a request line that
is accepted; where they are malformed and the parser comes to the body all the same, it
has to find a length that it refuses; no size line may be malformed. -/
structure Tractable (c : HttpContext) (s : Bytes) : Prop where
  fields : ∀ requestLine fields r, c.headLines s = some (requestLine :: fields) →
    requestLine ≠ [] → parseRequestLine c.request requestLine = .ok (true, r) →
    FirstFaultColonless fields
  refuses : ∀ c₀ requestLine fields, c.bodyStart s = some c₀ →
    c.headLines s = some (requestLine :: fields) → ¬ WellFormedFields fields →
    LengthRefused c₀.request
  sizes : ∀ c₀ b e, c.loopStart s = some c₀ → Reads c₀.buffer b → find crlf b = some e →
    ∃ n, ChunkLine (b.take e) n

/-! ## The header block, line by line -/

/-- A line with a value is taken, a line without a colon refused, and any other line throws. -/
theorem parseFieldLine_of_hasValue {line : Bytes} (hasValue : HasValue line)
    (r : HttpRequest) : ∃ r', parseFieldLine r line = .ok (some r') := by
  obtain ⟨colon, found, inside⟩ := hasValue
  simp only [parseFieldLine, found]
  rw [substr_of_le (by omega)]
  exact ⟨_, rfl⟩

theorem parseFieldLine_of_colonless {line : Bytes} (colonless : find (ascii ":") line = none)
    (r : HttpRequest) : parseFieldLine r line = .ok none := by
  simp only [parseFieldLine, colonless]

theorem parseFieldLine_of_last {line : Bytes} {colon : Nat}
    (found : find (ascii ":") line = some colon) (last : ¬ HasValue line) (r : HttpRequest) :
    parseFieldLine r line = .error .outOfRange := by
  have outside : line.length < colon + 2 := by
    by_contra inside
    exact last ⟨colon, found, by omega⟩
  simp only [parseFieldLine, found]
  rw [substr_of_gt outside, error_bind]

theorem firstFaultColonless_cons {line : Bytes} {lines : List Bytes}
    (hasValue : HasValue line) :
    FirstFaultColonless (line :: lines) ↔ FirstFaultColonless lines := by
  constructor
  · intro first before l after split each fault
    refine first (line :: before) l after (by rw [split, List.cons_append]) ?_ fault
    intro k member
    rcases List.mem_cons.mp member with rfl | member
    · exact hasValue
    · exact each k member
  · intro first before l after split each fault
    cases before with
    | nil =>
        rw [List.nil_append, List.cons.injEq] at split
        exact absurd hasValue (split.1 ▸ fault)
    | cons k before =>
        rw [List.cons_append, List.cons.injEq] at split
        exact first before l after split.2
          (fun k member => each k (List.mem_cons_of_mem _ member)) fault

theorem parseFields_returns_iff (r : HttpRequest) (lines : List Bytes) :
    (∃ ok r', parseFields r lines = .ok (ok, r')) ↔ FirstFaultColonless lines := by
  induction lines generalizing r with
  | nil =>
      constructor
      · intro _ before line after split
        simp at split
      · intro _
        exact ⟨true, r, rfl⟩
  | cons line lines ih =>
      by_cases hasValue : HasValue line
      · obtain ⟨r', taken⟩ := parseFieldLine_of_hasValue hasValue r
        rw [firstFaultColonless_cons hasValue, ← ih r']
        simp only [parseFields, taken]
      · cases found : find (ascii ":") line with
        | none =>
            constructor
            · intro _ before l after split each fault
              cases before with
              | nil =>
                  rw [List.nil_append, List.cons.injEq] at split
                  rw [← split.1, found]
              | cons k before =>
                  rw [List.cons_append, List.cons.injEq] at split
                  exact absurd (each k (by simp)) (split.1 ▸ hasValue)
            · intro _
              simp only [parseFields, parseFieldLine_of_colonless found]
              exact ⟨false, r, rfl⟩
        | some colon =>
            constructor
            · rintro ⟨ok, r', parsed⟩
              simp only [parseFields, parseFieldLine_of_last found hasValue] at parsed
              cases parsed
            · intro first
              have colonless := first [] line lines rfl (by simp) hasValue
              rw [found] at colonless
              cases colonless

/-- The request line is cut inside its bounds. -/
theorem parseRequestLine_returns (r : HttpRequest) (line : Bytes) :
    ∃ ok r', parseRequestLine r line = .ok (ok, r') := by
  cases first : find (ascii " ") line with
  | none => exact ⟨false, r, by simp only [parseRequestLine, first]⟩
  | some pos1 =>
      cases second : findFrom (ascii " ") line (pos1 + 1) with
      | none => exact ⟨false, r, by simp only [parseRequestLine, first, second]⟩
      | some pos2 =>
          have inside := Search.find_le first
          obtain ⟨j, later, place⟩ := Option.map_eq_some_iff.mp second
          have inside' := Search.find_le later
          rw [List.length_drop] at inside'
          rw [show (ascii " ").length = 1 from rfl] at inside inside'
          simp only [parseRequestLine, first, second]
          rw [substr_of_le (by omega), substr_of_le (by omega)]
          exact ⟨_, _, rfl⟩

theorem parseHeader_returns {r : HttpRequest} {header : Bytes}
    (fields : ∀ requestLine fields r', crlfLines header = requestLine :: fields →
      requestLine ≠ [] → parseRequestLine r requestLine = .ok (true, r') →
      FirstFaultColonless fields) :
    ∃ ok r', parseHeader r header = .ok (ok, r') := by
  rw [parseHeader_lines]
  cases lines : crlfLines header with
  | nil => exact ⟨_, _, rfl⟩
  | cons requestLine rest =>
      by_cases empty : requestLine = []
      · exact ⟨false, r, if_pos empty⟩
      · obtain ⟨ok, r', parsed⟩ := parseRequestLine_returns r requestLine
        simp only [if_neg empty, parsed]
        cases ok with
        | false => exact ⟨_, _, rfl⟩
        | true =>
            exact (parseFields_returns_iff r' rest).mpr (fields _ _ r' lines empty parsed)

/-! ## The body -/

/-- A well-formed size line next in the buffer is read, without wrapping. -/
theorem nextSize_of_line {buffer : Bytes} {e n : Nat} (found : find crlf buffer = some e)
    (line : ChunkLine (buffer.take e) n) :
    nextSize buffer = some (e, n) ∧ e + 2 + n + 2 < sizeModulus := by
  have inside := Search.find_le found
  have length : (buffer.take e).length = e := List.length_take_of_le (by omega)
  have exactSum := line.exact
  rw [length] at exactSum
  exact ⟨nextSize_of found line.stoul, exactSum⟩

/-- Over well-formed size lines the chunk loop returns true. -/
theorem parseChunkedBody_returns {c : HttpContext}
    (lines : ∀ b e, Reads c.buffer b → find crlf b = some e → ∃ n, ChunkLine (b.take e) n) :
    ∃ c', parseChunkedBody c = .ok (true, c') := by
  induction measured : c.buffer.length using Nat.strongRecOn generalizing c with
  | ind k ih =>
      rw [parseChunkedBody_eq]
      cases found : find crlf c.buffer with
      | none =>
          have waits : parseChunk c = .ok .wait := by simp only [parseChunk, found]
          rw [waits]
          exact ⟨_, rfl⟩
      | some e =>
          obtain ⟨n, line⟩ := lines c.buffer e (.here _) found
          obtain ⟨next, exactSum⟩ := nextSize_of_line found line
          have turned := parseChunk_of_size next exactSum
          split_ifs at turned with short last
          · rw [turned]
            exact ⟨_, rfl⟩
          · rw [turned]
            exact ⟨_, rfl⟩
          · rw [turned]
            have shorter := parseChunk_again_length turned
            refine ih _ (by omega) ?_ rfl
            intro b e' reads
            exact lines b e' (.chunk next last (by omega) reads)

theorem parseBody_returns {c : HttpContext}
    (lines : chunked c.request = true → ∀ b e, Reads c.buffer b → find crlf b = some e →
      ∃ n, ChunkLine (b.take e) n) :
    ∃ ok c', parseBody c = .ok (ok, c') := by
  unfold parseBody
  split_ifs with isChunked isBuffered isSized
  · obtain ⟨c', returned⟩ := parseChunkedBody_returns (lines isChunked)
    exact ⟨true, c', returned⟩
  · exact ⟨_, _, rfl⟩
  · split
    · exact ⟨_, _, rfl⟩
    · split_ifs
      · exact ⟨_, _, rfl⟩
      · exact ⟨_, _, rfl⟩
  · exact ⟨_, _, rfl⟩

/-- A body is refused exactly if a length is looked at that `std::stoul` refuses. -/
theorem parseBody_false_iff {c : HttpContext} :
    (∃ c', parseBody c = .ok (false, c')) ↔ LengthRefused c.request := by
  constructor
  · rintro ⟨c', refused⟩
    unfold parseBody at refused
    split_ifs at refused with isChunked isBuffered isSized
    · obtain ⟨impossible, -⟩ := parseChunkedBody_true refused
      cases impossible
    · cases refused
    · obtain ⟨value, present⟩ := Option.isSome_iff_exists.mp isSized
      have length : c.request.getHeaderString (ascii "Content-Length") = value := by
        simp [HttpRequest.getHeaderString, present]
      rw [length] at refused
      refine ⟨by simpa using isChunked, by simpa using isBuffered, value, ?_⟩
      cases parsed : stoul 10 value with
      | error f => exact ⟨f, present, rfl⟩
      | ok n =>
          rw [parsed] at refused
          simp only at refused
          split_ifs at refused <;> cases refused
    · cases refused
  · rintro ⟨notChunked, notBuffered, value, f, present, thrown⟩
    have isSized : c.request.hasHeader (ascii "Content-Length") = true := by
      simp [HttpRequest.hasHeader, present]
    have length : c.request.getHeaderString (ascii "Content-Length") = value := by
      simp [HttpRequest.getHeaderString, present]
    rw [parseBody, isSized, length, notChunked, notBuffered, thrown]
    exact ⟨c, rfl⟩

/-! ## One call -/

theorem headLines_eq_some {c : HttpContext} {s : Bytes} {lines : List Bytes}
    (head : c.headLines s = some lines) :
    c.completeHeaders = false ∧ ∃ e, find crlfcrlf (c.push s).buffer = some e ∧
      crlfLines ((c.push s).buffer.take (e + 2)) = lines := by
  unfold headLines at head
  split_ifs at head with headers
  obtain ⟨e, found, lines⟩ := Option.map_eq_some_iff.mp head
  exact ⟨by simpa using headers, e, found, lines⟩

theorem headLines_of_find {c : HttpContext} {s : Bytes} {e : Nat}
    (headless : c.completeHeaders = false) (found : find crlfcrlf (c.push s).buffer = some e) :
    c.headLines s = some (crlfLines ((c.push s).buffer.take (e + 2))) := by
  have found' : find crlfcrlf (c.buffer ++ s) = some e := found
  rw [headLines, headless, found']
  rfl

/-- A call that does not come to the body behind a whole header block has refused it. -/
theorem refused_of_no_bodyStart {c c' : HttpContext} {s : Bytes} {lines : List Bytes} {ok : Bool}
    (head : c.headLines s = some lines) (stays : c.bodyStart s = none)
    (answered : c.parseRequest s = .ok (ok, c')) : ok = false := by
  obtain ⟨headless, e, found, -⟩ := headLines_eq_some head
  unfold bodyStart at stays
  rw [parseRequest_eq] at answered
  rw [if_neg (by simp [headless])] at stays answered
  split at answered
  · cases answered
  · rename_i incomplete
    unfold parseHead at incomplete
    simp only [found] at incomplete
    split at incomplete <;> cases incomplete
  · cases answered
    rfl
  · rename_i parsed
    rw [parsed] at stays
    cases stays

theorem Tractable.returns {c : HttpContext} {s : Bytes} (tractable : Tractable c s) :
    ∃ ok c', c.parseRequest s = .ok (ok, c') := by
  cases start : c.bodyStart s with
  | some c₀ =>
      rw [(parseRequest_of_bodyStart start).1]
      apply parseBody_returns
      intro isChunked b e
      exact tractable.sizes c₀ b e (loopStart_eq_some.mpr ⟨start, isChunked⟩)
  | none =>
      unfold bodyStart at start
      split_ifs at start with headers
      rw [parseRequest_eq, if_neg headers]
      cases found : find crlfcrlf (c.push s).buffer with
      | none =>
          have incomplete : parseHead (c.push s) = .ok .incomplete := by
            simp only [parseHead, found]
          rw [incomplete]
          exact ⟨_, _, rfl⟩
      | some e =>
          have head := headLines_of_find (by simpa using headers) found
          obtain ⟨ok, r, returned⟩ : ∃ ok r,
              parseHeader (c.push s).request ((c.push s).buffer.take (e + 2)) = .ok (ok, r) := by
            apply parseHeader_returns
            intro requestLine fields r' lines
            exact tractable.fields requestLine fields r' (lines ▸ head)
          cases ok with
          | false =>
              have refused : ∃ c', parseHead (c.push s) = .ok (.refused c') := by
                simp only [parseHead, found, returned]
                exact ⟨_, rfl⟩
              obtain ⟨c', refused⟩ := refused
              rw [refused]
              exact ⟨_, _, rfl⟩
          | true =>
              have parsed : ∃ c', parseHead (c.push s) = .ok (.parsed c') := by
                simp only [parseHead, found, returned]
                exact ⟨_, rfl⟩
              obtain ⟨c', parsed⟩ := parsed
              rw [parsed] at start
              cases start

theorem Answers.fields {c : HttpContext} {s : Bytes} (answers : Answers c s)
    {requestLine : Bytes} {fields : List Bytes} {r : HttpRequest}
    (head : c.headLines s = some (requestLine :: fields)) (nonempty : requestLine ≠ [])
    (accepted : parseRequestLine c.request requestLine = .ok (true, r)) :
    FirstFaultColonless fields := by
  obtain ⟨headless, e, found, lines⟩ := headLines_eq_some head
  have header : parseHeader (c.push s).request ((c.push s).buffer.take (e + 2)) =
      parseFields r fields := by
    rw [parseHeader_lines, lines]
    simp only [if_neg nonempty, push_request, accepted]
  rw [← parseFields_returns_iff r]
  cases parsed : parseFields r fields with
  | ok answer => exact ⟨answer.1, answer.2, rfl⟩
  | error f =>
      -- the fault of the header loop is the fault of the call
      obtain ⟨ok, c', returned⟩ := answers.returns
      have thrown : parseHead (c.push s) = .error f := by
        simp only [parseHead, found, header, parsed]
      rw [parseRequest_eq, if_neg (by simp [headless]), thrown] at returned
      cases returned

/-- **One call answers**, and refuses what is malformed, exactly if it is tractable. -/
theorem answers_iff {c : HttpContext} {s : Bytes} : Answers c s ↔ Tractable c s := by
  constructor
  · intro answers
    constructor
    · intro requestLine fields r head nonempty accepted
      exact answers.fields head nonempty accepted
    · intro c₀ requestLine fields start head malformed
      obtain ⟨c', refused⟩ := answers.refuses (.fields head malformed)
      rw [(parseRequest_of_bodyStart start).1] at refused
      exact parseBody_false_iff.mp ⟨c', refused⟩
    · intro c₀ b e start reads found
      by_contra malformed
      rw [not_exists] at malformed
      obtain ⟨c', refused⟩ := answers.refuses (.size start reads found malformed)
      rw [(parseRequest_of_loopStart start).1] at refused
      obtain ⟨impossible, -⟩ := parseChunkedBody_true refused
      cases impossible
  · intro tractable
    refine ⟨tractable.returns, ?_⟩
    intro malformed
    cases malformed with
    | fields head notWellFormed =>
        cases start : c.bodyStart s with
        | some c₀ =>
            rw [(parseRequest_of_bodyStart start).1]
            exact parseBody_false_iff.mpr (tractable.refuses _ _ _ start head notWellFormed)
        | none =>
            obtain ⟨ok, c', returned⟩ := tractable.returns
            have refused := refused_of_no_bodyStart head start returned
            exact ⟨c', refused ▸ returned⟩
    | size start reads found notLine =>
        obtain ⟨n, line⟩ := tractable.sizes _ _ _ start reads found
        exact absurd line (notLine n)

end HttpContext

namespace Reader

/-! ## Every run -/

def Answers (r : Reader) : ContextCall → Prop
  | .parseRequest str => r.context.Answers str
  | .reset => True

def Tractable (r : Reader) : ContextCall → Prop
  | .parseRequest str => r.context.Tractable str
  | .reset => True

/-- **The parser answers.**  In a run of any calls, every call of `ParseRequest` returns
true or false, and false when it meets something malformed, exactly if every call is
tractable. -/
theorem parser_answers_iff (indeterminate : Bool) (calls : List ContextCall) :
    Meets call Answers (start indeterminate) calls ↔
      Meets call Tractable (start indeterminate) calls := by
  apply meets_iff_meets (Q := fun _ => True) ?_ (fun _ _ _ _ _ _ => trivial) trivial calls
  intro r i _
  cases i with
  | parseRequest str => exact HttpContext.answers_iff
  | reset => exact Iff.rfl

/-- A field line that ends with its colon ends the process. -/
theorem field_without_value :
    ¬ Meets call Answers (start false)
      [.parseRequest (ascii "GET / HTTP/1.1\r\nHost:\r\n\r\n")] := by
  rintro ⟨answers, -⟩
  have thrown : ((start false).context.parseRequest
      (ascii "GET / HTTP/1.1\r\nHost:\r\n\r\n")).toOption.isSome = false := by decide +kernel
  obtain ⟨ok, c', returned⟩ := HttpContext.Answers.returns answers
  rw [returned] at thrown
  cases thrown

end Reader

end CppFileServer.Http
