/-
# Http.ContentLength -- a declared length on a request that closes, or of version 1.0

With `Connection: close`, or when the version is reported as 1.0, `ParseRequest`
does not look at `Content-Length`: the body is what is buffered when the header
block has been parsed, and the request is complete at once (`feed_closing`).  So
the declared length frames the body exactly if the read that brings the end of
the header block brings the body and nothing else (`declared_frames_iff`).
-/
import CppFileServer.Http.Segmentation

namespace CppFileServer.Http

set_option autoImplicit false

open CppFileServer.Cpp CppFileServer.Theory

namespace HttpContext

/-- A header block that parses to `c` and selects the rule for closing requests,
with a declared length `n`. -/
structure ClosingBlock (block : Bytes) (n : Nat) (c : HttpContext) : Prop where
  parses : parseHead (fresh.push block) = .ok (.parsed c)
  ends : c.buffer = []
  closing : readsBuffered c.request = true
  untransferred : c.request.hasHeader (ascii "Transfer-Encoding") = false
  declares : ∃ digits, c.request.headers (ascii "Content-Length") = some digits ∧
    Numeral 10 digits n

/-- The calls up to and with the last of `used` left `c`, as a declared length of
`n` asks for. -/
structure Framing (block : Bytes) (n : Nat) (used : List Bytes) (c : HttpContext) : Prop where
  arrived : c.completeRequest = true ↔ block.length + n ≤ used.flatten.length
  awaited : ∀ part, part <+: used → part ≠ used → part.flatten.length < block.length + n
  body : c.completeRequest = true → c.request.body = (used.flatten.drop block.length).take n
  behind : c.completeRequest = true → c.buffer = used.flatten.drop (block.length + n)

/-- The declared length frames the body of what is sent in these segments. -/
def DeclaredFrames (block : Bytes) (n : Nat) (segments : List Bytes) : Prop :=
  ∃ used unfed c, segments = used ++ unfed ∧ feed fresh segments = (.ok (true, c), unfed) ∧
    Framing block n used c

/-- The read that brings the end of the block brings `n` bytes behind it. -/
def ArrivesTogether (block : Bytes) (n : Nat) (segments : List Bytes) : Prop :=
  ∃ before read after, segments = before ++ read :: after ∧
    before.flatten.length < block.length ∧
    before.flatten.length + read.length = block.length + n

/-! ## Up to the header block -/

/-- Some read brings byte number `k` of a stream. -/
theorem read_reaching {segments : List Bytes} {k : Nat} (positive : 0 < k)
    (long : k ≤ segments.flatten.length) :
    ∃ before read after, segments = before ++ read :: after ∧ before.flatten.length < k ∧
      k ≤ before.flatten.length + read.length := by
  induction segments generalizing k with
  | nil =>
      rw [List.flatten_nil, List.length_nil] at long
      omega
  | cons s rest ih =>
      by_cases here : k ≤ s.length
      · exact ⟨[], s, rest, rfl, positive, by simpa using here⟩
      · rw [List.flatten_cons, List.length_append] at long
        obtain ⟨before, read, after, rfl, short, reaches⟩ :=
          ih (k := k - s.length) (by omega) (by omega)
        refine ⟨s :: before, read, after, rfl, ?_, ?_⟩
        · rw [List.flatten_cons, List.length_append]
          omega
        · rw [List.flatten_cons, List.length_append]
          omega

namespace ClosingBlock

variable {block : Bytes} {n : Nat} {c : HttpContext} (closing : ClosingBlock block n c)

include closing

/-- The empty line stands at the end of the block. -/
theorem find_block : ∃ e, find crlfcrlf block = some e ∧ e + 4 = block.length := by
  obtain ⟨e, r, found, -, same⟩ := parseHead_eq_parsed closing.parses
  have rest : c.buffer = block.drop (e + 4) := by rw [same]; rfl
  have whole : block.drop (e + 4) = [] := rest.symm.trans closing.ends
  have inside := Search.find_le (show find crlfcrlf block = some e from found)
  rw [crlfcrlf_length] at inside
  have := List.drop_eq_nil_iff.mp whole
  exact ⟨e, found, by omega⟩

/-- Inside the block there is no empty line yet. -/
theorem find_part {part rest : Bytes} (cut : part <+: block ++ rest)
    (short : part.length < block.length) : find crlfcrlf part = none := by
  obtain ⟨e, found, length⟩ := closing.find_block
  obtain ⟨missing, rfl⟩ :=
    List.prefix_of_prefix_length_le cut (List.prefix_append block rest) short.le
  by_contra hasFound
  obtain ⟨i, earlier⟩ := Option.ne_none_iff_exists'.mp hasFound
  have inside := Search.find_le earlier
  have same := Search.find_append earlier missing
  rw [show Search.find crlfcrlf (part ++ missing) = Option.some e from found,
    Option.some.injEq] at same
  rw [crlfcrlf_length] at inside
  omega

/-- A read that ends inside the block is waited out. -/
theorem parseRequest_part {held s rest : Bytes} (cut : held ++ s <+: block ++ rest)
    (short : (held ++ s).length < block.length) :
    parseRequest (fresh.push held) s = .ok (true, fresh.push (held ++ s)) := by
  have unended : find crlfcrlf (held ++ s) = none := closing.find_part cut short
  have pushed : (fresh.push held).push s = fresh.push (held ++ s) := push_push _ _ _
  have head : parseHead (fresh.push (held ++ s)) = .ok .incomplete := by
    have buffer : (fresh.push (held ++ s)).buffer = held ++ s := rfl
    simp only [parseHead, buffer, unended]
  rw [← pushed] at head ⊢
  exact parseRequest_of_incomplete rfl head

/-- The state after the read that ends the block: complete, with all that is
buffered behind the block as the body. -/
theorem parseRequest_whole {held s behind : Bytes} (complete : held ++ s = block ++ behind) :
    ∃ c', parseRequest (fresh.push held) s = .ok (true, c') ∧ c'.completeRequest = true ∧
      c'.request.body = behind ∧ c'.buffer = [] := by
  have pushed : (fresh.push held).push s = (fresh.push block).push behind := by
    rw [push_push, push_push, complete]
  have head := parseHead_push closing.parses (by simp) behind
  rw [← pushed] at head
  have body : c.request.body = [] := parseHead_body closing.parses
  have notChunked : ¬ chunked (c.push behind).request = true := by
    rw [push_request, chunked, closing.untransferred]
    simp
  have called : parseRequest (fresh.push held) s =
      .ok (true, finish { c.push behind with contentLength := (c.push behind).buffer.length }) := by
    refine (parseRequest_of_head rfl head).trans ?_
    show parseBody (c.push behind) = _
    rw [parseBody, if_neg notChunked, push_request, if_pos closing.closing]
    rfl
  have held : (c.push behind).buffer = behind := by
    rw [push_buffer, closing.ends, List.nil_append]
  refine ⟨_, called, ?_⟩
  rw [held]
  by_cases positive : 0 < behind.length
  · rw [finish, if_pos positive]
    refine ⟨rfl, ?_, ?_⟩
    · show (c.push behind).buffer.take behind.length = behind
      rw [held, List.take_length]
    · show (c.push behind).buffer.drop behind.length = []
      rw [held, List.drop_length]
  · have empty : behind = [] := by simpa using positive
    rw [finish, if_neg positive, empty]
    exact ⟨rfl, body, by rw [push_nil, closing.ends]⟩

/-- **The calls on a closing request** complete it at the read that ends the block. -/
theorem feed_closing {before after : List Bytes} {read following : Bytes}
    (stream : (before ++ read :: after).flatten = block ++ following)
    (short : before.flatten.length < block.length)
    (reaches : block.length ≤ before.flatten.length + read.length) :
    ∃ c', feed fresh (before ++ read :: after) = (.ok (true, c'), after) ∧
      c'.completeRequest = true ∧
      c'.request.body = (before.flatten ++ read).drop block.length ∧ c'.buffer = [] := by
  have split : (before ++ read :: after).flatten = before.flatten ++ read ++ after.flatten := by
    simp
  have ended : block <+: before.flatten ++ read := by
    refine List.prefix_of_prefix_length_le ⟨following, stream.symm⟩ ?_ (by simpa using reaches)
    exact ⟨after.flatten, split.symm⟩
  obtain ⟨behind, ended⟩ := ended
  have parts : before.flatten <+: block ++ following := by
    rw [← stream, split, List.append_assoc]
    exact List.prefix_append _ _
  -- the segments in front of that read leave the context they are pushed to
  have waits : ∀ (held : Bytes) (segments : List Bytes),
      held ++ segments.flatten = before.flatten →
      feed (fresh.push held) (segments ++ read :: after) =
        feed (fresh.push before.flatten) (read :: after) := by
    intro held segments
    induction segments generalizing held with
    | nil =>
        intro whole
        rw [List.flatten_nil, List.append_nil] at whole
        rw [whole, List.nil_append]
    | cons s segments ih =>
        intro whole
        rw [List.flatten_cons, ← List.append_assoc] at whole
        have part : held ++ s <+: before.flatten := ⟨segments.flatten, whole⟩
        have called := closing.parseRequest_part (part.trans parts)
          (lt_of_le_of_lt part.length_le short)
        rw [List.cons_append, feed, called]
        exact ih (held ++ s) whole
  obtain ⟨c', called, complete, body, buffer⟩ := closing.parseRequest_whole ended.symm
  refine ⟨c', ?_, complete, ?_, buffer⟩
  · have fed := waits [] before (List.nil_append _)
    rw [push_nil] at fed
    rw [fed, feed, called]
    simp only [complete, if_true]
  · rw [body, ← ended, List.drop_left' rfl]

end ClosingBlock

/-! ## The declared length -/

/-- **A declared length on a closing request** frames the body exactly if the read
that brings the end of the header block brings that many bytes behind it. -/
theorem declared_frames_iff {block : Bytes} {n : Nat} {c : HttpContext}
    (closing : ClosingBlock block n c) {following : Bytes} {segments : List Bytes}
    (stream : segments.flatten = block ++ following) :
    DeclaredFrames block n segments ↔ ArrivesTogether block n segments := by
  obtain ⟨e, -, length⟩ := closing.find_block
  constructor
  · rintro ⟨used, unfed, c', parts, fed, framing⟩
    obtain ⟨before, read, after, cut, short, reaches⟩ :=
      read_reaching (k := block.length) (by omega) (by rw [stream]; simp)
    subst cut
    obtain ⟨c'', fed', complete, body, buffer⟩ := closing.feed_closing stream short reaches
    rw [fed', Prod.mk.injEq, Except.ok.injEq, Prod.mk.injEq] at fed
    obtain ⟨⟨-, rfl⟩, rfl⟩ := fed
    have same : used = before ++ [read] := by
      rw [List.append_cons] at parts
      exact (List.append_cancel_right parts).symm
    have arrived := framing.arrived.mp complete
    have rest := (framing.behind complete).symm.trans buffer
    rw [List.drop_eq_nil_iff] at rest
    have total : used.flatten.length = before.flatten.length + read.length := by
      simp [same]
    exact ⟨before, read, after, rfl, short, by omega⟩
  · rintro ⟨before, read, after, cut, short, exactly⟩
    subst cut
    obtain ⟨c', fed, complete, body, buffer⟩ := closing.feed_closing stream short (by omega)
    have read_all : (before ++ [read]).flatten = before.flatten ++ read := by simp
    have total : (before ++ [read]).flatten.length = block.length + n := by
      rw [read_all, List.length_append, exactly]
    refine ⟨before ++ [read], after, c', List.append_cons before read after, fed, ?_, ?_, ?_, ?_⟩
    · exact ⟨fun _ => total.ge, fun _ => complete⟩
    · intro part isPart proper
      rcases List.prefix_concat_iff.mp isPart with whole | inside
      · exact absurd whole proper
      · have := inside.flatten.length_le
        omega
    · intro _
      rw [body, read_all, List.take_of_length_le]
      rw [List.length_drop, List.length_append]
      omega
    · intro _
      rw [buffer, ← total, List.drop_length]

/-- A request of version 1.0 that asks to be kept alive. -/
def keptAlive : Bytes :=
  ascii "POST /u HTTP/1.0\r\nConnection: Keep-Alive\r\nContent-Length: 5\r\n\r\n"

/-- Its body in a read of its own is left for the next request. -/
theorem body_in_next_read : ¬ DeclaredFrames keptAlive 5 [keptAlive, ascii "hello"] := by
  rintro ⟨used, unfed, c, parts, fed, framing⟩
  have complete : ((feed fresh [keptAlive, ascii "hello"]).1.toOption.map
      (·.2.completeRequest)) = some true := by decide +kernel
  have left : (feed fresh [keptAlive, ascii "hello"]).2 = [ascii "hello"] := by decide +kernel
  rw [fed] at complete left
  have one : used = [keptAlive] := by
    rw [show unfed = [ascii "hello"] from left] at parts
    exact (List.append_cancel_right (show [keptAlive] ++ _ = _ from parts)).symm
  have arrived := framing.arrived.mp (Option.some.inj complete)
  rw [one] at arrived
  exact absurd arrived (by decide +kernel)

/-- In the same read it is framed. -/
theorem declared_frames_together :
    DeclaredFrames keptAlive 5 [ascii "POST /u HT",
      ascii "TP/1.0\r\nConnection: Keep-Alive\r\nContent-Length: 5\r\n\r\nhello"] := by
  obtain ⟨head, parses, c, rfl, ends, closing, untransferred, declares⟩ :
      ∃ head, parseHead (fresh.push keptAlive) = .ok head ∧ ∃ c, head = .parsed c ∧
        c.buffer = [] ∧ readsBuffered c.request = true ∧
        c.request.hasHeader (ascii "Transfer-Encoding") = false ∧
        c.request.headers (ascii "Content-Length") = some (ascii "5") :=
    ⟨_, rfl, _, rfl, by decide +kernel, by decide +kernel, by decide +kernel, by decide +kernel⟩
  have block : ClosingBlock keptAlive 5 c :=
    ⟨parses, ends, closing, untransferred, ascii "5", declares, by decide +kernel, by decide,
      by decide⟩
  have stream : [ascii "POST /u HT",
      ascii "TP/1.0\r\nConnection: Keep-Alive\r\nContent-Length: 5\r\n\r\nhello"].flatten =
        keptAlive ++ ascii "hello" := by decide +kernel
  apply (declared_frames_iff block stream).mpr
  exact ⟨[ascii "POST /u HT"], _, [], rfl, by decide +kernel, by decide +kernel⟩

end HttpContext

end CppFileServer.Http
