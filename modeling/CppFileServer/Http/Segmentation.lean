/-
# Http.Segmentation -- the parser does not see how the stream was cut

`feed` makes the calls of `ParseRequest` on a list of segments, up to the first
one that refuses, throws or completes the request.  On a stream in scope
(`InScope`: the two places that look at how much is buffered are not reached) the
calls come to what the single call on the whole stream comes to.
-/
import CppFileServer.Http.ChunkForm

namespace CppFileServer.Http

set_option autoImplicit false

open CppFileServer.Cpp CppFileServer.Theory

namespace HttpContext

/-- The calls on the segments, in order; the second component is what was not fed. -/
def feed (c : HttpContext) : List Bytes → Result (Bool × HttpContext) × List Bytes
  | [] => (.ok (true, c), [])
  | s :: rest =>
      match parseRequest c s with
      | .ok (true, c') => if c'.completeRequest then (.ok (true, c'), rest) else feed c' rest
      | answer => (answer, rest)

/-- What a call comes to. -/
inductive Outcome
  | rejected
  | thrown (f : Fault)
  | complete (c : HttpContext)
  | incomplete (c : HttpContext)

def outcome : Result (Bool × HttpContext) → Outcome
  | .error f => .thrown f
  | .ok (false, _) => .rejected
  | .ok (true, c) => if c.completeRequest then .complete c else .incomplete c

/-- Calls on segments came to what one call came to: for a complete request the
same request, with the unfed segments behind the buffer; for an incomplete one
the same state. -/
def SameOutcome (fed : Result (Bool × HttpContext) × List Bytes)
    (single : Result (Bool × HttpContext)) : Prop :=
  match outcome fed.1, outcome single with
  | .rejected, .rejected => True
  | .thrown f, .thrown g => f = g
  | .complete c, .complete d =>
      c.request = d.request ∧ c.buffer ++ fed.2.flatten = d.buffer
  | .incomplete c, .incomplete d =>
      c.request = d.request ∧ c.contentLength = d.contentLength ∧
        c.completeHeaders = d.completeHeaders ∧ c.buffer = d.buffer
  | _, _ => False

/-- The streams on which no decision depends on how much is buffered: no
`Connection: close` and no version reported as 1.0, unless the body is chunked,
and no chunk size so large that the sum of the chunk test wraps. -/
def InScope (s : Bytes) : Prop :=
  match parseHead (fresh.push s) with
  | .ok (.parsed c) =>
      if chunked c.request then
        ∀ b e n, Reads c.buffer b → nextSize b = some (e, n) → e + n + 4 < 2 ^ 64
      else readsBuffered c.request = false
  | _ => True

/-- A verdict at a stable place. -/
def Stable : Verdict HttpContext Stop → Prop
  | .stopped (.buffered _) => False
  | .stopped (.wraps _) => False
  | _ => True

theorem chunks_stable {c : HttpContext} (headers : c.completeHeaders = true)
    (isChunked : chunked c.request = true)
    (small : ∀ b e n, Reads c.buffer b → nextSize b = some (e, n) → e + n + 4 < 2 ^ 64) :
    Stable (requestDecoder.drain c) := by
  induction measured : c.buffer.length using Nat.strongRecOn generalizing c with
  | ind k ih =>
      have passes : requestDecoder.pass c = passChunk c := pass_of_chunked headers isChunked
      cases next : nextSize c.buffer with
      | none =>
          have noWrap : ¬ sizeWraps c.buffer = true := by simp only [sizeWraps, next]; simp
          rw [passChunk, if_neg noWrap] at passes
          rcases parseChunk_of_no_size next with ⟨-, turned⟩ | ⟨-, f, -, -, turned⟩
          · rw [turned] at passes
            rw [Decoder.drain_of_wait passes]
            trivial
          · rw [turned] at passes
            rw [Decoder.drain_of_stop passes]
            trivial
      | some size =>
          obtain ⟨e, n⟩ := size
          have fits : e + 2 + n + 2 < sizeModulus := by
            have := small c.buffer e n (.here _) next
            show e + 2 + n + 2 < 2 ^ 64
            omega
          have noWrap : ¬ sizeWraps c.buffer = true := by
            rw [sizeWraps_of_size next, decide_eq_true_eq]; omega
          rw [passChunk, if_neg noWrap] at passes
          have turned := parseChunk_of_size next fits
          split_ifs at turned with short last
          · rw [turned] at passes
            rw [Decoder.drain_of_wait passes]
            trivial
          · rw [turned] at passes
            rw [Decoder.drain_of_stop passes]
            trivial
          · have again := turned
            rw [turned] at passes
            rw [Decoder.drain_of_next passes]
            obtain ⟨headers', -, -, sameHeaders, -⟩ := parseChunk_again_keeps again
            have shorter := parseChunk_again_length again
            refine ih _ (by omega) (headers'.trans headers)
              ((chunked_congr sameHeaders).trans isChunked) ?_ rfl
            intro b e' n' reads next'
            exact small b e' n' (.chunk next last (by omega) reads) next'

theorem stable_of_inScope {s : Bytes} (scope : InScope s) :
    Stable (requestDecoder.drain (fresh.push s)) := by
  have passes : requestDecoder.pass (fresh.push s) = passHead (fresh.push s) := rfl
  unfold InScope at scope
  unfold passHead at passes
  cases parsed : parseHead (fresh.push s) with
  | error f =>
      rw [parsed] at passes
      rw [Decoder.drain_of_stop passes]
      trivial
  | ok head =>
      cases head with
      | incomplete =>
          rw [parsed] at passes
          rw [Decoder.drain_of_wait passes]
          trivial
      | refused c =>
          rw [parsed] at passes
          rw [Decoder.drain_of_stop passes]
          trivial
      | parsed c =>
          obtain ⟨headers, -, -, -⟩ := parseHead_parsed parsed
          rw [parsed] at passes scope
          simp only [passFraming] at passes scope
          split_ifs at passes scope with isChunked isBuffered isSized
          · rw [Decoder.drain_of_next passes]
            exact chunks_stable headers isChunked scope
          · exact absurd isBuffered (by simp [scope])
          · cases lengthParsed : stoul 10 (c.request.getHeaderString (ascii "Content-Length")) with
            | error f =>
                rw [lengthParsed] at passes
                rw [Decoder.drain_of_stop passes]
                trivial
            | ok n =>
                rw [lengthParsed] at passes
                rw [Decoder.drain_of_next passes]
                have later : requestDecoder.pass { c with contentLength := n } =
                    passLength { c with contentLength := n } := by
                  show pass _ = _
                  simp only [pass, headers, if_true, isChunked, Bool.false_eq_true, if_false]
                unfold passLength at later
                split_ifs at later
                · rw [Decoder.drain_of_wait later]
                  trivial
                · rw [Decoder.drain_of_stop later]
                  trivial
          · rw [Decoder.drain_of_stop passes]
            trivial

/-- The calls on the segments follow the decoder's feed. -/
theorem feed_agrees {c : HttpContext} (ready : Ready c) (segments : List Bytes)
    (stable : Stable (requestDecoder.feed c segments).1) :
    Agrees (feed c segments).1 (requestDecoder.feed c segments).1 ∧
      (feed c segments).2 = (requestDecoder.feed c segments).2 := by
  induction segments generalizing c with
  | nil => exact ⟨⟨rfl, ready⟩, rfl⟩
  | cons s rest ih =>
      have call := parseRequest_drain ready s
      rw [Decoder.feed] at stable ⊢
      rw [feed]
      change Agrees (parseRequest c s) (requestDecoder.drain (requestDecoder.push c s)) at call
      cases drained : requestDecoder.drain (requestDecoder.push c s) with
      | waiting c' =>
          rw [drained] at call stable
          obtain ⟨answer, ready'⟩ := call
          rw [answer]
          simp only [ready'.unfinished, Bool.false_eq_true, if_false]
          exact ih ready' stable
      | stopped stop =>
          rw [drained] at call stable
          cases stop with
          | thrown f =>
              rw [show parseRequest c s = .error f from call]
              exact ⟨rfl, rfl⟩
          | refused c' =>
              rw [show parseRequest c s = .ok (false, c') from call]
              exact ⟨rfl, rfl⟩
          | complete c' =>
              obtain ⟨answer, complete⟩ := call
              rw [answer]
              simp only [complete, if_true]
              exact ⟨⟨rfl, complete⟩, trivial⟩
          | buffered c' => exact stable.elim
          | wraps c' => exact stable.elim

/-- At a stable place the verdict on the whole stream is that of the feed, which the
calls follow. -/
theorem feed_whole {segments : List Bytes}
    (stable : Stable (requestDecoder.drain (fresh.push segments.flatten))) :
    ∃ verdict unfed, (feed fresh segments).2 = unfed ∧ Agrees (feed fresh segments).1 verdict ∧
      requestDecoder.drain (fresh.push segments.flatten) = match verdict with
        | .waiting c => .waiting c
        | .stopped stop => .stopped (stop.push unfed.flatten) := by
  have whole := requestDecoder.feed_drain (s := fresh) rfl segments
  change requestDecoder.drain (fresh.push segments.flatten) = _ at whole
  rw [whole] at stable
  cases fed : requestDecoder.feed fresh segments with
  | mk verdict unfed =>
      rw [fed] at whole stable
      have stable' : Stable verdict := by
        cases verdict with
        | waiting c => trivial
        | stopped stop => cases stop <;> exact stable
      have agrees := feed_agrees fresh_ready segments (by rw [fed]; exact stable')
      rw [fed] at agrees
      refine ⟨verdict, unfed, agrees.2, agrees.1, whole.trans ?_⟩
      cases verdict <;> rfl

/-- When the whole stream drains to a complete request, so do the calls. -/
theorem feed_of_complete {segments : List Bytes} {c₁ : HttpContext}
    (drained : requestDecoder.drain (fresh.push segments.flatten) = .stopped (.complete c₁)) :
    ∃ c unfed, feed fresh segments = (.ok (true, c), unfed) ∧ c.completeRequest = true ∧
      c.push unfed.flatten = c₁ := by
  obtain ⟨verdict, unfed, left, agrees, whole⟩ := feed_whole (by rw [drained]; trivial)
  rw [drained] at whole
  cases verdict with
  | waiting c => cases whole
  | stopped stop =>
      cases stop with
      | complete c =>
          cases whole
          exact ⟨c, unfed, Prod.ext agrees.1 left, agrees.2, rfl⟩
      | _ => cases whole

/-- When the whole stream drains to a state that waits, the calls end in it. -/
theorem feed_of_waiting {segments : List Bytes} {c : HttpContext}
    (drained : requestDecoder.drain (fresh.push segments.flatten) = .waiting c) :
    (feed fresh segments).1 = .ok (true, c) ∧ Ready c := by
  obtain ⟨verdict, unfed, left, agrees, whole⟩ := feed_whole (by rw [drained]; trivial)
  rw [drained] at whole
  cases verdict with
  | waiting c' =>
      cases whole
      exact agrees
  | stopped stop => cases whole

theorem outcome_of_ready {c : HttpContext} (ready : Ready c) :
    outcome (.ok (true, c)) = .incomplete c := by
  simp only [outcome, ready.unfinished, Bool.false_eq_true, if_false]

theorem outcome_of_complete {c : HttpContext} (complete : c.completeRequest = true) :
    outcome (.ok (true, c)) = .complete c := by
  simp only [outcome, complete, if_true]

/-- **Segmentation independence.**  However a stream in scope is cut, feeding the
pieces from the state after `Reset` with an empty buffer comes to what the single
call on the stream comes to. -/
theorem feed_segments (s : Bytes) (segments : List Bytes) (cut : segments.flatten = s)
    (scope : InScope s) : SameOutcome (feed fresh segments) (parseRequest fresh s) := by
  have stable := stable_of_inScope scope
  have single := parseRequest_drain fresh_ready s
  subst cut
  obtain ⟨verdict, unfed, left, agrees, whole⟩ := feed_whole stable
  rw [whole] at single stable
  unfold SameOutcome
  rw [left]
  cases verdict with
  | waiting c =>
      obtain ⟨answer, ready⟩ := agrees
      rw [answer, single.1, outcome_of_ready ready]
      exact ⟨rfl, rfl, rfl, rfl⟩
  | stopped stop =>
      cases stop with
      | thrown f =>
          rw [show (feed fresh segments).1 = .error f from agrees,
            show parseRequest fresh segments.flatten = .error f from single]
          rfl
      | refused c =>
          rw [show (feed fresh segments).1 = .ok (false, c) from agrees,
            show parseRequest fresh segments.flatten = .ok (false, c.push unfed.flatten) from single]
          trivial
      | complete c =>
          obtain ⟨answer, complete⟩ := agrees
          obtain ⟨singleAnswer, complete'⟩ := single
          rw [answer, outcome_of_complete complete, singleAnswer, outcome_of_complete complete']
          exact ⟨rfl, rfl⟩
      | buffered c => exact stable.elim
      | wraps c => exact stable.elim

/-- The two-part request of the repository's own test. -/
theorem feed_segments_test :
    SameOutcome
      (feed fresh
        [ascii "POST /test HTTP/1.1\r\nHost: example.com\r\nContent-Length: 20\r\n\r\nHello, ",
          ascii "World!1234567890"])
      (parseRequest fresh (ascii ("POST /test HTTP/1.1\r\nHost: example.com\r\n" ++
        "Content-Length: 20\r\n\r\nHello, World!1234567890"))) :=
  feed_segments _ _ (by decide) (show readsBuffered _ = false from rfl)

end HttpContext

end CppFileServer.Http
