/-
# Http.Reader -- a context under any calls

A connection calls `ParseRequest` on what it has read and `Reset` between requests.
`Reader` is a context with the bytes it was given, under any sequence of these
calls.  `bodyStart` and `loopStart` say from which context a call of `ParseRequest`
goes on with the body, and enters the chunk loop.
-/
import CppFileServer.Http.ChunkForm
import CppFileServer.Theory.Run

namespace CppFileServer.Http

set_option autoImplicit false

open CppFileServer.Cpp CppFileServer.Theory

namespace HttpContext

/-- The context in which a call of `ParseRequest` comes to the body. -/
def bodyStart (c : HttpContext) (s : Bytes) : Option HttpContext :=
  if c.completeHeaders then some (c.push s)
  else
    match parseHead (c.push s) with
    | .ok (.parsed c') => some c'
    | _ => none

/-- The context in which a call of `ParseRequest` enters the chunk loop. -/
def loopStart (c : HttpContext) (s : Bytes) : Option HttpContext :=
  (bodyStart c s).filter fun c' => chunked c'.request

theorem loopStart_eq_some {c c₀ : HttpContext} {s : Bytes} :
    loopStart c s = some c₀ ↔ bodyStart c s = some c₀ ∧ chunked c₀.request = true :=
  Option.filter_eq_some_iff

theorem bodyStart_of_headers {c : HttpContext} (headers : c.completeHeaders = true) (s : Bytes) :
    bodyStart c s = some (c.push s) := by
  rw [bodyStart, if_pos headers]

theorem bodyStart_of_head {c c' : HttpContext} {s : Bytes} (headless : c.completeHeaders = false)
    (head : parseHead (c.push s) = .ok (.parsed c')) : bodyStart c s = some c' := by
  rw [bodyStart, if_neg (by simp [headless]), head]

theorem parseRequest_of_bodyStart {c c₀ : HttpContext} {s : Bytes}
    (start : bodyStart c s = some c₀) :
    parseRequest c s = parseBody c₀ ∧ c₀.completeHeaders = true := by
  unfold bodyStart at start
  rw [parseRequest_eq]
  split_ifs at start ⊢ with headers
  · cases start
    exact ⟨rfl, headers⟩
  · split at start
    · rename_i parsed
      cases start
      rw [parsed]
      exact ⟨rfl, (parseHead_parsed parsed).1⟩
    · cases start

theorem parseRequest_of_loopStart {c c₀ : HttpContext} {s : Bytes}
    (start : loopStart c s = some c₀) :
    parseRequest c s = parseChunkedBody c₀ ∧ c₀.completeHeaders = true ∧
      chunked c₀.request = true := by
  obtain ⟨body, isChunked⟩ := loopStart_eq_some.mp start
  obtain ⟨called, headers⟩ := parseRequest_of_bodyStart body
  rw [parseBody, if_pos isChunked] at called
  exact ⟨called, headers, isChunked⟩

end HttpContext

/-- The calls a connection makes of its context. -/
inductive ContextCall
  | parseRequest (str : Bytes)
  | reset

/-- A context, and all bytes it has been given. -/
structure Reader where
  received : Bytes
  context : HttpContext

namespace Reader

/-- Appending throws when `size_t` cannot count the bytes of the string. -/
def call (r : Reader) : ContextCall → Result Reader
  | .parseRequest str =>
      if r.context.buffer.length + str.length < sizeModulus then do
        let answer ← r.context.parseRequest str
        pure { received := r.received ++ str, context := answer.2 }
      else .error .lengthError
  | .reset => .ok { r with context := r.context.reset }

/-- A context that has just been constructed. -/
def start (indeterminate : Bool) : Reader where
  received := []
  context := .construct indeterminate

end Reader

end CppFileServer.Http
