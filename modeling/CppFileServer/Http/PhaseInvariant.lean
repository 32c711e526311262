/-
# Http.PhaseInvariant -- what `complete_headers_` says

Four members of a context and its request have to agree: before the header block is
parsed there is no body, no length and no complete request, and after it the request
is what the block says.  `Reset` establishes this, and so would the constructor if it
initialised `complete_headers_`; it does not.  A context that starts with the flag set
takes everything for a body until it is reset (`phaseSound_iff`).

`Phase` is a context with two records: `current`, the bytes of the request that is being
read, and `parsed`, whether the last call was one of `ParseRequest`.
-/
import CppFileServer.Http.Reader
import CppFileServer.Http.RequestLine
import CppFileServer.Http.Segmentation
import CppFileServer.Theory.Machine

namespace CppFileServer.Http

set_option autoImplicit false

open CppFileServer.Cpp CppFileServer.Theory

structure Phase where
  context : HttpContext
  /-- The bytes behind the last request. -/
  current : Bytes
  parsed : Bool

namespace Phase

/-- A context that has just been constructed. -/
def start (indeterminate : Bool) : Phase where
  context := .construct indeterminate
  current := []
  parsed := false

/-- A call of `ParseRequest`, which is not made on a complete request and has to return
true, or of `Reset`. -/
def step (p : Phase) : ContextCall → Option (Result Phase)
  | .parseRequest str =>
      if p.context.completeRequest then none
      else
        match p.context.parseRequest str with
        | .ok (true, c) => some (.ok { context := c, current := p.current ++ str, parsed := true })
        | _ => none
  | .reset => some (.ok
      { context := p.context.reset, current := p.context.buffer, parsed := false })

/-- The request holds the request line and the fields of the header block. -/
def HeadersParsed (p : Phase) : Prop :=
  ∃ e r, find crlfcrlf p.current = some e ∧
    HttpContext.parseHeader {} (p.current.take (e + 2)) = .ok (true, r) ∧
    p.context.request = { r with body := p.context.request.body }

structure PhaseSound (p : Phase) : Prop where
  headers : p.context.completeHeaders = true ↔ p.HeadersParsed
  headless : p.context.completeHeaders = false →
    p.context.request.body = [] ∧ p.context.contentLength = 0 ∧
      p.context.completeRequest = false ∧ (p.parsed = true → find crlfcrlf p.context.buffer = none)
  complete : p.context.completeRequest = true → p.context.completeHeaders = true

/-- The invariant: before the header block the context has only gathered bytes. -/
structure Sound (p : Phase) : Prop where
  gathering : p.context.completeHeaders = false →
    p.context = { HttpContext.fresh with buffer := p.current } ∧
      (p.parsed = true → find crlfcrlf p.current = none)
  parsed : p.context.completeHeaders = true → p.HeadersParsed

/-- The invariant of a context whose flag was set by chance: nothing has parsed a header. -/
structure Misled (p : Phase) : Prop where
  flagged : p.context.completeHeaders = true
  empty : p.context.request.url = []

variable {p q : Phase} {call : ContextCall}

theorem step_parseRequest {str : Bytes} (stepped : p.step (.parseRequest str) = some (.ok q)) :
    q.current = p.current ++ str ∧ p.context.parseRequest str = .ok (true, q.context) := by
  simp only [step] at stepped
  split_ifs at stepped
  split at stepped
  · rename_i answered
    cases stepped
    exact ⟨rfl, answered⟩
  · cases stepped

/-- A header block that is parsed leaves a URL. -/
theorem url_of_headersParsed (parsed : p.HeadersParsed) : p.context.request.url ≠ [] := by
  obtain ⟨e, r, -, header, same⟩ := parsed
  rw [same]
  show r.url ≠ []
  exact HttpContext.parseHeader_true_url header

/-- More bytes do not change the header block that was found. -/
theorem headersParsed_append (parsed : p.HeadersParsed) {str : Bytes}
    (current : q.current = p.current ++ str)
    (request : q.context.request = { p.context.request with body := q.context.request.body }) :
    q.HeadersParsed := by
  obtain ⟨e, r, found, header, same⟩ := parsed
  have bound := Search.find_le found
  rw [crlfcrlf_length] at bound
  refine ⟨e, r, ?_, ?_, ?_⟩
  · rw [current]
    exact Search.find_append found str
  · rw [current, List.take_append_of_le_length (by omega)]
    exact header
  · rw [same] at request
    exact request

/-- **`Reset`** establishes the invariant from any state. -/
theorem sound_reset (p : Phase) :
    Sound { context := p.context.reset, current := p.context.buffer, parsed := false } :=
  ⟨fun _ => ⟨rfl, fun impossible => by cases impossible⟩, fun impossible => by cases impossible⟩

/-- **Step lemma**: each exit of `ParseRequest` that returns true keeps the invariant. -/
theorem sound_of_step (sound : Sound p) (stepped : p.step call = some (.ok q)) : Sound q := by
  cases call with
  | reset =>
      cases stepped
      exact sound_reset p
  | parseRequest str =>
      obtain ⟨current, answered⟩ := step_parseRequest stepped
      rw [HttpContext.parseRequest_eq] at answered
      cases headers : p.context.completeHeaders with
      | true =>
          rw [if_pos headers] at answered
          obtain ⟨request, kept⟩ := HttpContext.parseBody_frame answered
          have parsed := headersParsed_append (sound.parsed headers) current request
          refine ⟨fun headless => ?_, fun _ => parsed⟩
          rw [kept.trans headers] at headless
          cases headless
      | false =>
          obtain ⟨gathered, -⟩ := sound.gathering headers
          have pushed : p.context.push str =
              { HttpContext.fresh with buffer := p.current ++ str } := by
            rw [gathered]
            rfl
          rw [if_neg (by simp [headers]), pushed] at answered
          cases head : HttpContext.parseHead
              { HttpContext.fresh with buffer := p.current ++ str } with
          | error f =>
              simp only [head] at answered
              cases answered
          | ok ending =>
              simp only [head] at answered
              cases ending with
              | incomplete =>
                  have unended := HttpContext.find_of_incomplete head
                  simp only [Except.ok.injEq, Prod.mk.injEq, true_and] at answered
                  rw [← current] at unended answered
                  refine ⟨fun _ => ⟨answered.symm, fun _ => unended⟩, fun flagged => ?_⟩
                  rw [← answered] at flagged
                  cases flagged
              | refused c' => cases answered
              | parsed c' =>
                  obtain ⟨e, r, found, header, rfl⟩ := HttpContext.parseHead_eq_parsed head
                  obtain ⟨request, kept⟩ := HttpContext.parseBody_frame answered
                  refine ⟨fun headless => ?_, fun _ => ⟨e, r, ?_, ?_, request⟩⟩
                  · rw [kept] at headless
                    cases headless
                  · rw [current]
                    exact found
                  · rw [current]
                    exact header

/-- A flag that was set by chance stays set, until `Reset`. -/
theorem misled_of_step (misled : Misled p) (notReset : call ≠ .reset)
    (stepped : p.step call = some (.ok q)) : Misled q := by
  cases call with
  | reset => exact absurd rfl notReset
  | parseRequest str =>
      obtain ⟨-, answered⟩ := step_parseRequest stepped
      rw [HttpContext.parseRequest_eq, if_pos misled.flagged] at answered
      obtain ⟨request, kept⟩ := HttpContext.parseBody_frame answered
      refine ⟨kept.trans misled.flagged, ?_⟩
      rw [request]
      exact misled.empty

theorem phaseSound_of_sound (sound : Sound p) : PhaseSound p := by
  cases headers : p.context.completeHeaders with
  | true =>
      refine ⟨⟨sound.parsed, fun _ => headers⟩, fun headless => ?_, fun _ => headers⟩
      rw [headers] at headless
      cases headless
  | false =>
      obtain ⟨gathered, unbroken⟩ := sound.gathering headers
      refine ⟨⟨sound.parsed, fun parsed => ?_⟩, fun _ => ?_, fun complete => ?_⟩
      · apply absurd _ (url_of_headersParsed parsed)
        rw [gathered]
        rfl
      · rw [gathered]
        exact ⟨rfl, rfl, rfl, unbroken⟩
      · rw [gathered] at complete
        cases complete

theorem not_phaseSound_of_misled (misled : Misled p) : ¬ PhaseSound p :=
  fun sound => url_of_headersParsed (sound.headers.mp misled.flagged) misled.empty

/-! ## Runs -/

variable {indeterminate : Bool} {calls : List ContextCall}

theorem sound_of_run (sound : Sound p) (performed : perform step p calls = some q) : Sound q :=
  (reaches_of_perform performed).invariant (fun _ _ _ => sound_of_step) sound

theorem sound_start : Sound (start false) :=
  ⟨fun _ => ⟨rfl, fun impossible => by cases impossible⟩, fun impossible => by cases impossible⟩

theorem misled_start : Misled (start true) := ⟨rfl, rfl⟩

/-- Behind a `Reset` the invariant holds, wherever the run began. -/
theorem sound_of_reset (performed : perform step p calls = some q) (inside : .reset ∈ calls) :
    Sound q := by
  obtain ⟨front, back, rfl⟩ := List.append_of_mem inside
  obtain ⟨u, -, later⟩ := perform_append.mp performed
  obtain ⟨v, stepped, later⟩ := perform_cons later
  cases stepped
  exact sound_of_run (sound_reset u) later

theorem misled_of_run (performed : perform step (start true) calls = some q)
    (absent : .reset ∉ calls) : Misled q := by
  have allowed : Throughout step (fun _ call => call ≠ .reset) (start true) calls :=
    throughout_of_forall fun _ call inside same => absent (same ▸ inside)
  exact allowed.invariant (fun _ _ _ => misled_of_step) performed misled_start

/-- **Run lemma**: the phase of a context is sound when the flag was not set by chance or the
context has been reset, and in no other state. -/
theorem phaseSound_of_run (performed : perform step (start indeterminate) calls = some q) :
    PhaseSound q ↔ indeterminate = false ∨ .reset ∈ calls := by
  constructor
  · intro sound
    by_contra neither
    obtain ⟨flagged, absent⟩ := not_or.mp neither
    rw [Bool.not_eq_false] at flagged
    subst flagged
    exact not_phaseSound_of_misled (misled_of_run performed absent) sound
  · rintro (rfl | inside)
    · exact phaseSound_of_sound (sound_of_run sound_start performed)
    · exact phaseSound_of_sound (sound_of_reset performed inside)

/-! ## New contexts -/

/-- What the calls on some segments show: whether the last one returned true, whether the
request is complete, the request and the bytes left, and the segments not passed on. -/
def observed (fed : Result (Bool × HttpContext) × List Bytes) :
    Result (Bool × Bool × HttpRequest × Bytes) × List Bytes :=
  (fed.1.map fun answer =>
    (answer.1, answer.2.completeRequest, answer.2.request, answer.2.buffer), fed.2)

def getRoot : Bytes := ascii "GET / HTTP/1.1\r\n\r\n"

/-- A context whose flag was set by chance takes a request for a body. -/
theorem getRoot_misread :
    observed ((HttpContext.construct true).feed [getRoot]) ≠
      observed (HttpContext.fresh.feed [getRoot]) := by
  intro same
  have bodies := congrArg (fun o => o.1.toOption.map fun answer => answer.2.2.1.body) same
  revert bodies
  decide +kernel

/-- **The phase of the parser** is sound in exactly the states that come from a flag that was
not set by chance or from a `Reset`, and a new context behaves like one that has been
reset exactly when its flag was not set. -/
theorem phaseSound_iff (indeterminate : Bool) :
    (∀ calls q, perform step (start indeterminate) calls = some q →
      (PhaseSound q ↔ indeterminate = false ∨ .reset ∈ calls)) ∧
    ((∀ segments, observed ((HttpContext.construct indeterminate).feed segments) =
      observed (HttpContext.fresh.feed segments)) ↔ indeterminate = false) := by
  refine ⟨fun calls q performed => phaseSound_of_run performed, ?_, ?_⟩
  · intro same
    cases indeterminate with
    | false => rfl
    | true => exact absurd (same [getRoot]) getRoot_misread
  · rintro rfl segments
    rfl

/-- The first state of a context whose flag was set by chance. -/
theorem phase_unsound : ¬ PhaseSound (start true) ∧
    observed ((HttpContext.construct true).feed [getRoot]) ≠
      observed (HttpContext.fresh.feed [getRoot]) :=
  ⟨not_phaseSound_of_misled misled_start, getRoot_misread⟩

end Phase

end CppFileServer.Http
