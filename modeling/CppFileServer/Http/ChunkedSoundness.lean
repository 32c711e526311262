/-
# Http.ChunkedSoundness -- what the chunk loop accepts

The chunk loop reads a chunked encoding exactly, but it never looks at the bytes
it erases behind the data of a chunk, nor at what `std::stoul` skips in a size
line, and it never refuses (`feed_loop_true`).  So it is sound on a stream exactly
if that stream is a chunked encoding with anything behind it, or a beginning of
one (`decodes_soundly_iff`).
-/
import CppFileServer.Http.Reader
import CppFileServer.Http.Segmentation

namespace CppFileServer.Http

set_option autoImplicit false

open CppFileServer.Cpp CppFileServer.Theory

/-- The bytes hold a chunked encoding, or are a beginning of one. -/
def Viable (s : Bytes) : Prop := ∃ enc data, Chunked enc data ∧ (enc <+: s ∨ s <+: enc)

namespace HttpContext

/-- What the calls on the segments may answer, for a stream whose header block
parses to `c₀`: a complete request is a chunked encoding, its data and the bytes
behind it, and a stream that departs from the form is refused. -/
structure DecodesSoundly (c₀ : HttpContext) (segments : List Bytes) : Prop where
  accepts : ∀ c unfed, feed fresh segments = (.ok (true, c), unfed) →
    c.completeRequest = true →
    ∃ enc data, Chunked enc data ∧ c₀.buffer = enc ++ (c.buffer ++ unfed.flatten) ∧
      c.request.body = data
  refuses : ¬ Viable c₀.buffer → ∃ c unfed, feed fresh segments = (.ok (false, c), unfed)

/-! ## The loop never refuses -/

theorem feed_loop_true {c : HttpContext} (headers : c.completeHeaders = true)
    (isChunked : chunked c.request = true) {segments : List Bytes} {ok : Bool} {c' : HttpContext}
    (answered : (feed c segments).1 = .ok (ok, c')) : ok = true := by
  induction segments generalizing c with
  | nil =>
      cases answered
      rfl
  | cons s rest ih =>
      have start : loopStart c s = some (c.push s) :=
        loopStart_eq_some.mpr ⟨bodyStart_of_headers headers s, isChunked⟩
      rw [feed, (parseRequest_of_loopStart start).1] at answered
      cases parsed : parseChunkedBody (c.push s) with
      | error f =>
          rw [parsed] at answered
          cases answered
      | ok answer =>
          obtain ⟨ok₁, c₁⟩ := answer
          obtain ⟨rfl, fields, headers₁⟩ := parseChunkedBody_true parsed
          rw [parsed] at answered
          simp only at answered
          split_ifs at answered
          · cases answered
            rfl
          · exact ih (headers₁.trans headers) ((chunked_congr fields).trans isChunked) answered

/-- Nor do the calls that bring the header block, when it announces a chunked body. -/
theorem feed_head_true {held : Bytes} {segments : List Bytes} {c₀ : HttpContext}
    (head : parseHead (fresh.push (held ++ segments.flatten)) = .ok (.parsed c₀))
    (isChunked : chunked c₀.request = true) {ok : Bool} {c' : HttpContext}
    (answered : (feed (fresh.push held) segments).1 = .ok (ok, c')) : ok = true := by
  induction segments generalizing held with
  | nil =>
      cases answered
      rfl
  | cons s rest ih =>
      rw [List.flatten_cons, ← List.append_assoc] at head
      have pushed : (fresh.push held).push s = fresh.push (held ++ s) := push_push _ _ _
      have longer : (fresh.push (held ++ s)).push rest.flatten =
          fresh.push (held ++ s ++ rest.flatten) := push_push _ _ _
      cases parsed : parseHead (fresh.push (held ++ s)) with
      | error f =>
          have thrown := parseHead_push_error parsed rest.flatten
          rw [longer, head] at thrown
          cases thrown
      | ok answer =>
          cases answer with
          | incomplete =>
              rw [← pushed] at parsed
              rw [feed, parseRequest_of_incomplete rfl parsed, pushed] at answered
              exact ih head answered
          | refused c₁ =>
              have refused := parseHead_push parsed (by simp) rest.flatten
              rw [longer, head] at refused
              cases refused
          | parsed c₁ =>
              have whole := parseHead_push parsed (by simp) rest.flatten
              rw [longer, head] at whole
              cases whole
              rw [← pushed] at parsed
              have start := loopStart_eq_some.mpr ⟨bodyStart_of_head rfl parsed, isChunked⟩
              obtain ⟨called, headers, isChunked₁⟩ := parseRequest_of_loopStart start
              rw [feed, called] at answered
              cases body : parseChunkedBody c₁ with
              | error f =>
                  rw [body] at answered
                  cases answered
              | ok answer =>
                  obtain ⟨ok₁, c₂⟩ := answer
                  obtain ⟨rfl, fields, headers₂⟩ := parseChunkedBody_true body
                  rw [body] at answered
                  simp only at answered
                  split_ifs at answered
                  · cases answered
                    rfl
                  · exact feed_loop_true (headers₂.trans headers)
                      ((chunked_congr fields).trans isChunked₁) answered

/-! ## Soundness -/

/-- The calls on a chunked encoding with `more` behind it, when they complete the request. -/
theorem feed_chunked {segments : List Bytes} {c₀ : HttpContext}
    (head : parseHead (fresh.push segments.flatten) = .ok (.parsed c₀))
    (isChunked : chunked c₀.request = true) {enc data more : Bytes} (form : Chunked enc data)
    (buffer : c₀.buffer = enc ++ more) {c : HttpContext} {unfed : List Bytes}
    (fed : feed fresh segments = (.ok (true, c), unfed)) :
    c.buffer ++ unfed.flatten = more ∧ c.request.body = data := by
  obtain ⟨headers, -, -, -⟩ := parseHead_parsed head
  have body : c₀.request.body = [] := parseHead_body head
  have drains := drain_of_head (c := fresh.push segments.flatten) rfl head isChunked
  rw [drain_chunked form headers isChunked buffer] at drains
  obtain ⟨c₁, unfed₁, fed₁, -, read⟩ := feed_of_complete drains
  rw [fed, Prod.mk.injEq, Except.ok.injEq, Prod.mk.injEq] at fed₁
  obtain ⟨⟨-, rfl⟩, rfl⟩ := fed₁
  constructor
  · rw [← push_buffer, read]
    rfl
  · rw [← push_request c unfed.flatten, read]
    show c₀.request.body ++ data = data
    rw [body, List.nil_append]

/-- **Soundness of chunked decoding** holds on a stream exactly if what stands behind
its header block is a chunked encoding with anything behind it, or a beginning of one. -/
theorem decodes_soundly_iff {segments : List Bytes} {c₀ : HttpContext}
    (head : parseHead (fresh.push segments.flatten) = .ok (.parsed c₀))
    (isChunked : chunked c₀.request = true) :
    DecodesSoundly c₀ segments ↔ Viable c₀.buffer := by
  constructor
  · intro sound
    by_contra departs
    obtain ⟨c, unfed, fed⟩ := sound.refuses departs
    have answered : (feed (fresh.push []) segments).1 = .ok (false, c) := by
      rw [push_nil, fed]
    have impossible := feed_head_true (by rwa [List.nil_append]) isChunked answered
    cases impossible
  · intro viable
    constructor
    · intro c unfed fed complete
      obtain ⟨enc, data, form, whole | part⟩ := viable
      · obtain ⟨more, whole⟩ := whole
        obtain ⟨behind, body⟩ := feed_chunked head isChunked form whole.symm fed
        exact ⟨enc, data, form, by rw [behind, whole], body⟩
      · obtain ⟨missing, cut⟩ := part
        by_cases last : missing = []
        · rw [last, List.append_nil] at cut
          obtain ⟨behind, body⟩ := feed_chunked head isChunked form
            (cut.trans (List.append_nil enc).symm) fed
          exact ⟨enc, data, form, by rw [behind, cut, List.append_nil], body⟩
        · -- the encoding is not all there, so the calls wait
          obtain ⟨headers, -, -, -⟩ := parseHead_parsed head
          have drains := drain_of_head (c := fresh.push segments.flatten) rfl head isChunked
          obtain ⟨c₁, waiting⟩ := drain_part form headers isChunked cut last
          rw [waiting] at drains
          obtain ⟨answer, ready⟩ := feed_of_waiting drains
          rw [fed, Except.ok.injEq, Prod.mk.injEq] at answer
          obtain ⟨-, rfl⟩ := answer
          rw [ready.unfinished] at complete
          cases complete
    · intro departs
      exact absurd viable departs

def chunkedHead : Bytes := ascii "POST /u HTTP/1.1\r\nTransfer-Encoding: chunked\r\n\r\n"

/-- Two bytes stand where the CRLF behind the data belongs. -/
def skippedBytes : Bytes := ascii "3\r\nabcXY0\r\n\r\n"

theorem skippedBytes_not_chunked (data : Bytes) : ¬ Chunked skippedBytes data := by
  have next : nextSize skippedBytes = some (1, 3) := by decide
  generalize bytes : skippedBytes = enc
  intro form
  cases form with
  | @last line size =>
      have here := size.nextSize crlf
      rw [← bytes, next, Option.some.injEq, Prod.mk.injEq] at here
      exact absurd here.2 (by decide)
  | @more line data enc rest size nonempty tail =>
      have here := size.nextSize (data ++ (crlf ++ enc))
      rw [← bytes, next, Option.some.injEq, Prod.mk.injEq] at here
      obtain ⟨lineLength, dataLength⟩ := here
      have behind := congrArg (List.drop 6) bytes
      rw [← List.append_assoc, List.drop_left' (by
        simp only [List.length_append, crlf_length]
        omega)] at behind
      have first := congrArg (List.take 1) behind
      exact absurd first (by simp [skippedBytes, crlf_eq, ascii])

/-- The loop skips the two bytes and completes the request. -/
theorem bytes_skipped :
    ∃ c₀, parseHead (fresh.push [chunkedHead ++ skippedBytes].flatten) = .ok (.parsed c₀) ∧
      chunked c₀.request = true ∧ ¬ DecodesSoundly c₀ [chunkedHead ++ skippedBytes] := by
  obtain ⟨head, parses, c₀, rfl, isChunked, buffer⟩ :
      ∃ head, parseHead (fresh.push [chunkedHead ++ skippedBytes].flatten) = .ok head ∧
        ∃ c₀, head = .parsed c₀ ∧ chunked c₀.request = true ∧ c₀.buffer = skippedBytes :=
    ⟨_, rfl, _, rfl, by decide +kernel, by decide +kernel⟩
  refine ⟨c₀, parses, isChunked, ?_⟩
  intro sound
  obtain ⟨answer, answered, outcome⟩ : ∃ answer,
      (feed fresh [chunkedHead ++ skippedBytes]).1 = .ok answer ∧
        (answer.1, answer.2.completeRequest, answer.2.buffer) = (true, true, []) :=
    eq_ok_of_map (by decide +kernel)
  have unfed : (feed fresh [chunkedHead ++ skippedBytes]).2 = [] := by decide +kernel
  obtain ⟨ok, c⟩ := answer
  simp only [Prod.mk.injEq] at outcome
  obtain ⟨rfl, complete, empty⟩ := outcome
  obtain ⟨enc, data, form, split, -⟩ := sound.accepts c [] (Prod.ext answered unfed) complete
  rw [buffer, empty, List.flatten_nil, List.append_nil, List.append_nil] at split
  exact skippedBytes_not_chunked data (split ▸ form)

/-- A body of two chunks, one with an extension, and the next request behind it. -/
theorem decodes_soundly_two_chunks :
    ∃ c₀, parseHead (fresh.push [chunkedHead ++ ascii "2;x\r\nab\r", ascii "\n0\r\n\r\nGET"].flatten) =
        .ok (.parsed c₀) ∧
      DecodesSoundly c₀ [chunkedHead ++ ascii "2;x\r\nab\r", ascii "\n0\r\n\r\nGET"] := by
  obtain ⟨head, parses, c₀, rfl, isChunked, buffer⟩ :
      ∃ head, parseHead (fresh.push
          [chunkedHead ++ ascii "2;x\r\nab\r", ascii "\n0\r\n\r\nGET"].flatten) = .ok head ∧
        ∃ c₀, head = .parsed c₀ ∧ chunked c₀.request = true ∧
          c₀.buffer = ascii "2;x\r\nab\r\n0\r\n\r\nGET" :=
    ⟨_, rfl, _, rfl, by decide +kernel, by decide +kernel⟩
  refine ⟨c₀, parses, (decodes_soundly_iff parses isChunked).mpr ?_⟩
  have two : ChunkLine (ascii "2;x") (ascii "ab").length :=
    ⟨⟨ascii "2", ascii ";x", rfl, ⟨by decide +kernel, by decide, by decide⟩, Or.inr ⟨_, rfl⟩⟩,
      by decide, by decide⟩
  have zero : ChunkLine (ascii "0") 0 :=
    ⟨⟨ascii "0", [], rfl, ⟨by decide +kernel, by decide, by decide⟩, Or.inl rfl⟩, by decide, by decide⟩
  refine ⟨_, _, .more two (by decide) (.last zero), Or.inl ⟨ascii "GET", ?_⟩⟩
  rw [buffer]
  decide +kernel

end HttpContext

end CppFileServer.Http
