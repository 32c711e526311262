/-
# Http.HttpContext -- the incremental request parser

`ParseRequest` appends a string to `buffer_` and works off what is complete: the
header block once its empty line has come, then the body by one of three rules.
`buffer_` holds the bytes not yet parsed and survives `Reset`.

Each function is the one of the source under its name.  A parse function that
can throw returns a `Result`; the flag beside the new state is the returned
`bool`.  The two loops have fuel for one turn more than they have bytes, which is
never used up because every turn that goes on has left a line behind
(`parseRequestHeaders_eq`, `parseChunkedBody_eq`).
-/
import CppFileServer.Cpp.Stoul
import CppFileServer.Http.HttpRequest
import CppFileServer.Theory.Loop

namespace CppFileServer.Http

set_option autoImplicit false

open CppFileServer.Cpp CppFileServer.Theory

structure HttpContext where
  request : HttpRequest
  contentLength : Nat
  completeHeaders : Bool
  completeRequest : Bool
  buffer : Bytes

namespace HttpContext

/-- The constructor initialises neither `buffer_` (default: empty) nor
`complete_headers_`, which keeps whatever the memory held. -/
def construct (indeterminate : Bool) : HttpContext where
  request := {}
  contentLength := 0
  completeHeaders := indeterminate
  completeRequest := false
  buffer := []

def reset (c : HttpContext) : HttpContext where
  request := {}
  contentLength := 0
  completeHeaders := false
  completeRequest := false
  buffer := c.buffer

def clearBuffer (c : HttpContext) : HttpContext := { c with buffer := [] }

/-- The state `Reset` establishes, with an empty `buffer_`. -/
def fresh : HttpContext where
  request := {}
  contentLength := 0
  completeHeaders := false
  completeRequest := false
  buffer := []

/-! ## The header block -/

def parseRequestLine (r : HttpRequest) (line : Bytes) : Result (Bool × HttpRequest) :=
  match find (ascii " ") line with
  | none => .ok (false, r)
  | some pos1 =>
      match findFrom (ascii " ") line (pos1 + 1) with
      | none => .ok (false, r)
      | some pos2 => do
          let afterMethod ← substr line (pos1 + 1)
          let version ← substr line (pos2 + 1)
          let url := afterMethod.take (pos2 - pos1 - 1)
          let r := ((r.setMethod (line.take pos1)).setUrl url).setVersion version
          pure (!(r.getMethodString.isEmpty || r.url.isEmpty || r.getVersionString.isEmpty), r)

/-- The field line of one turn of the header loop; `none` is its `return false`. -/
def parseFieldLine (r : HttpRequest) (line : Bytes) : Result (Option HttpRequest) :=
  match find (ascii ":") line with
  | none => .ok none
  | some colon => do
      let value ← substr line (colon + 2)
      pure (some (r.setHeader (line.take colon) value))

/-- One turn of the header loop on `rest`, which is `header_data` from `pos` on. -/
def headerTurn (s : HttpRequest × Bytes) :
    Result (Turn (HttpRequest × Bytes) (Bool × HttpRequest)) :=
  match find crlf s.2 with
  | none => .ok (.done (true, s.1))
  | some stop =>
      match parseFieldLine s.1 (s.2.take stop) with
      | .error f => .error f
      | .ok none => .ok (.done (false, s.1))
      | .ok (some r) => .ok (.again (r, s.2.drop (stop + 2)))

def parseRequestHeaders (r : HttpRequest) (headerData : Bytes) : Result (Bool × HttpRequest) :=
  loop headerTurn .fuel (headerData.length + 1) (r, headerData)

/-- The request line and the fields of a header block. -/
def parseHeader (r : HttpRequest) (header : Bytes) : Result (Bool × HttpRequest) :=
  match find crlf header with
  | none => .ok (false, r)
  | some pos =>
      if pos = 0 then .ok (false, r)
      else
        match parseRequestLine r (header.take pos) with
        | .error f => .error f
        | .ok (false, r) => .ok (false, r)
        | .ok (true, r) => do
            let fields ← substr header (pos + 2)
            parseRequestHeaders r fields

/-- What the branch under `!complete_headers_` ends with. -/
inductive Head
  | incomplete
  | refused (c : HttpContext)
  | parsed (c : HttpContext)

def parseHead (c : HttpContext) : Result Head :=
  match find crlfcrlf c.buffer with
  | none => .ok .incomplete
  | some headerEnd =>
      let rest := c.buffer.drop (headerEnd + 4)
      match parseHeader c.request (c.buffer.take (headerEnd + 2)) with
      | .error f => .error f
      | .ok (false, r) => .ok (.refused { c with request := r, buffer := rest })
      | .ok (true, r) =>
          .ok (.parsed { c with request := r, buffer := rest, completeHeaders := true })

/-! ## The body -/

/-- `Transfer-Encoding: chunked`. -/
def chunked (r : HttpRequest) : Bool :=
  r.hasHeader (ascii "Transfer-Encoding") &&
    r.getHeaderString (ascii "Transfer-Encoding") == ascii "chunked"

/-- `Connection: close`, or version 1.0: the body is whatever is buffered. -/
def readsBuffered (r : HttpRequest) : Bool :=
  r.hasHeader (ascii "Connection") && r.getHeaderString (ascii "Connection") == ascii "close" ||
    r.version == .kHttp10

/-- What one turn of the chunk loop comes to. -/
inductive Chunk
  | wait
  | complete (c : HttpContext)
  | again (c : HttpContext)

def parseChunk (c : HttpContext) : Result Chunk :=
  match find crlf c.buffer with
  | none => .ok .wait
  | some chunkSizeEnd =>
      match stoul 16 (c.buffer.take chunkSizeEnd) with
      | .error f => .error f
      | .ok chunkSize =>
          if c.buffer.length < sizeT (chunkSizeEnd + 2 + chunkSize + 2) then .ok .wait
          else
            let rest := c.buffer.drop (chunkSizeEnd + 2)
            if chunkSize = 0 then
              .ok (.complete { c with completeRequest := true, buffer := rest.drop 2 })
            else
              .ok (.again { c with
                request := c.request.addBody (rest.take chunkSize)
                buffer := rest.drop (sizeT (chunkSize + 2)) })

def chunkTurn (c : HttpContext) : Result (Turn HttpContext (Bool × HttpContext)) :=
  match parseChunk c with
  | .error f => .error f
  | .ok .wait => .ok (.done (true, c))
  | .ok (.complete c') => .ok (.done (true, c'))
  | .ok (.again c') => .ok (.again c')

def parseChunkedBody (c : HttpContext) : Result (Bool × HttpContext) :=
  loop chunkTurn .fuel (c.buffer.length + 1) c

/-- The end of `ParseRequest`: take `content_length_` bytes as the body. -/
def finish (c : HttpContext) : HttpContext :=
  if 0 < c.contentLength then
    { c with
      request := c.request.setBody (c.buffer.take c.contentLength)
      buffer := c.buffer.drop c.contentLength
      completeRequest := true }
  else { c with completeRequest := true }

/-- `ParseRequest` from the point where the headers are complete. -/
def parseBody (c : HttpContext) : Result (Bool × HttpContext) :=
  if chunked c.request then parseChunkedBody c
  else if readsBuffered c.request then
    .ok (true, finish { c with contentLength := c.buffer.length })
  else if c.request.hasHeader (ascii "Content-Length") then
    match stoul 10 (c.request.getHeaderString (ascii "Content-Length")) with
    | .error _ => .ok (false, c)
    | .ok n =>
        if c.buffer.length < n then .ok (true, { c with contentLength := n })
        else .ok (true, finish { c with contentLength := n })
  else .ok (true, finish c)

def parseRequest (c : HttpContext) (str : Bytes) : Result (Bool × HttpContext) :=
  let c := { c with buffer := c.buffer ++ str }
  if c.completeHeaders then parseBody c
  else
    match parseHead c with
    | .error f => .error f
    | .ok .incomplete => .ok (true, c)
    | .ok (.refused c') => .ok (false, c')
    | .ok (.parsed c') => parseBody c'

/-! ## The loops end -/

theorem headerTurn_again_length {s s' : HttpRequest × Bytes}
    (again : headerTurn s = .ok (.again s')) : s'.2.length < s.2.length := by
  unfold headerTurn at again
  cases found : find crlf s.2 with
  | none => simp [found] at again
  | some stop =>
      have bound := Search.find_le found
      rw [crlf_length] at bound
      cases parsed : parseFieldLine s.1 (s.2.take stop) with
      | error f => simp [found, parsed] at again
      | ok kept =>
          cases kept with
          | none => simp [found, parsed] at again
          | some r =>
              simp only [found, parsed, Except.ok.injEq, Turn.again.injEq] at again
              subst again
              rw [List.length_drop]
              omega

/-- The header loop without its fuel. -/
theorem parseRequestHeaders_eq (r : HttpRequest) (rest : Bytes) :
    parseRequestHeaders r rest = match find crlf rest with
      | none => .ok (true, r)
      | some stop =>
          match parseFieldLine r (rest.take stop) with
          | .error f => .error f
          | .ok none => .ok (false, r)
          | .ok (some r') => parseRequestHeaders r' (rest.drop (stop + 2)) := by
  refine (loop_eq (fun s => s.2.length) (fun _ _ => headerTurn_again_length) (r, rest)).trans ?_
  rw [headerTurn]
  cases find crlf rest with
  | none => rfl
  | some stop =>
      cases parsed : parseFieldLine r (rest.take stop) with
      | error f => simp only [parsed]
      | ok kept =>
          cases kept with
          | none => simp only [parsed]
          | some r' => simp only [parsed, parseRequestHeaders]

/-- Every turn of the chunk loop that goes on has erased at least the size line. -/
theorem parseChunk_again_length {c c' : HttpContext} (again : parseChunk c = .ok (.again c')) :
    c'.buffer.length + 2 ≤ c.buffer.length := by
  unfold parseChunk at again
  cases found : find crlf c.buffer with
  | none => simp [found] at again
  | some chunkSizeEnd =>
      have bound := Search.find_le found
      rw [crlf_length] at bound
      cases parsed : stoul 16 (c.buffer.take chunkSizeEnd) with
      | error f => simp [found, parsed] at again
      | ok chunkSize =>
          simp only [found, parsed] at again
          split_ifs at again
          · simp at again
          · simp at again
          · simp only [Except.ok.injEq, Chunk.again.injEq] at again
            subst again
            simp only [List.length_drop]
            omega

theorem chunkTurn_again_length {c c' : HttpContext} (again : chunkTurn c = .ok (.again c')) :
    c'.buffer.length < c.buffer.length := by
  unfold chunkTurn at again
  split at again <;> simp only [Except.ok.injEq, Turn.again.injEq, reduceCtorEq] at again
  subst again
  have := parseChunk_again_length ‹_›
  omega

/-- The chunk loop without its fuel. -/
theorem parseChunkedBody_eq (c : HttpContext) :
    parseChunkedBody c = match parseChunk c with
      | .error f => .error f
      | .ok .wait => .ok (true, c)
      | .ok (.complete c') => .ok (true, c')
      | .ok (.again c') => parseChunkedBody c' := by
  refine (loop_eq (fun c => c.buffer.length) (fun _ _ => chunkTurn_again_length) c).trans ?_
  rw [chunkTurn]
  cases parseChunk c with
  | error f => rfl
  | ok turn => cases turn <;> rfl

end HttpContext

end CppFileServer.Http
