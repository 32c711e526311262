/-
# Http.LetterCase -- framing and the letter case of field names

`headers_` is a map from the bytes of a name, and nothing between the wire and the
three lookups that frame a request, or the one that decides whether the connection
is kept, folds the case of a letter.  A `Recasing` is two streams with one request
line and the same bytes behind the header block, whose field lines differ in the
letter case of names, or of the coding `chunked`.  However the two are cut, they
are framed alike if those four texts are spelled alike (`framed_alike`), and need
not be otherwise.
-/
import CppFileServer.Http.HttpServer
import CppFileServer.Http.RequestLine
import CppFileServer.Http.Segmentation
import CppFileServer.Theory.TwoRuns

namespace CppFileServer.Http

set_option autoImplicit false

open CppFileServer.Cpp CppFileServer.Theory

/-! ## Streams that differ in letter case -/

def lowered (b : UInt8) : UInt8 := if 65 ≤ b ∧ b ≤ 90 then b + 32 else b

def SameLetters (s s' : Bytes) : Prop := s.map lowered = s'.map lowered

instance (s s' : Bytes) : Decidable (SameLetters s s') :=
  inferInstanceAs (Decidable (s.map lowered = s'.map lowered))

/-- Values that differ at most in the letter case of codings named `chunked`. -/
inductive RecasedCoding : Bytes → Bytes → Prop
  | nil : RecasedCoding [] []
  | byte (b : UInt8) {value value' : Bytes} (behind : RecasedCoding value value') :
      RecasedCoding (b :: value) (b :: value')
  | coding {coding coding' value value' : Bytes} (coded : SameLetters coding (ascii "chunked"))
      (coded' : SameLetters coding' (ascii "chunked")) (behind : RecasedCoding value value') :
      RecasedCoding (coding ++ value) (coding' ++ value')

/-- Field lines that differ at most in the letter case of the name, or of the coding
`chunked` in the value of a `Transfer-Encoding`. -/
inductive Recased : Bytes → Bytes → Prop
  | same (line : Bytes) : Recased line line
  | name {name name' : Bytes} (plain : (58 : UInt8) ∉ name) (letters : SameLetters name name')
      (value : Bytes) : Recased (name ++ ascii ":" ++ value) (name' ++ ascii ":" ++ value)
  | coding {name name' value value' : Bytes}
      (letters : SameLetters name (ascii "Transfer-Encoding"))
      (letters' : SameLetters name' (ascii "Transfer-Encoding"))
      (coded : RecasedCoding value value') :
      Recased (name ++ ascii ":" ++ value) (name' ++ ascii ":" ++ value')

structure Recasing where
  requestLine : Bytes
  fields : List Bytes
  fields' : List Bytes
  rest : Bytes
  recased : List.Forall₂ Recased fields fields'
  first : ¬ crlf <:+: requestLine
  unbroken : ∀ line ∈ fields, ¬ crlf <:+: line ∧ line ≠ []

def requestStream (requestLine : Bytes) (fields : List Bytes) (rest : Bytes) : Bytes :=
  block (requestLine :: fields) ++ crlf ++ rest

def Recasing.stream (v : Recasing) : Bytes := requestStream v.requestLine v.fields v.rest

def Recasing.stream' (v : Recasing) : Bytes := requestStream v.requestLine v.fields' v.rest

/-- A stream cut into segments of the given lengths; what is behind them has not come yet. -/
def segments (s : Bytes) : List Nat → List Bytes
  | [] => []
  | n :: lengths => s.take n :: segments (s.drop n) lengths

/-- The fields that are looked up by the parser or the close decision. -/
def framingKeys : List Bytes :=
  [ascii "Transfer-Encoding", ascii "Connection", ascii "Content-Length"]

/-- Each of these names, and `chunked` where the parser would see it, stands in both lines
letter for letter or in neither. -/
structure SpelledAlike (line line' : Bytes) : Prop where
  names : ∀ key ∈ framingKeys, key ++ ascii ":" <+: line ↔ key ++ ascii ":" <+: line'
  coding : (∃ b, line = ascii "Transfer-Encoding" ++ ascii ":" ++ b :: ascii "chunked") ↔
    ∃ b, line' = ascii "Transfer-Encoding" ++ ascii ":" ++ b :: ascii "chunked"

theorem SpelledAlike.refl (line : Bytes) : SpelledAlike line line :=
  ⟨fun _ _ => Iff.rfl, Iff.rfl⟩

/-- Lines of other fields may be spelled as they like. -/
theorem SpelledAlike.of_other {line line' : Bytes}
    (other : ∀ key ∈ framingKeys, ¬ key ++ ascii ":" <+: line)
    (other' : ∀ key ∈ framingKeys, ¬ key ++ ascii ":" <+: line') : SpelledAlike line line' := by
  refine ⟨fun key among => iff_of_false (other key among) (other' key among), ?_⟩
  apply iff_of_false
  · rintro ⟨b, rfl⟩
    exact other (ascii "Transfer-Encoding") (by decide) (List.prefix_append _ _)
  · rintro ⟨b, rfl⟩
    exact other' (ascii "Transfer-Encoding") (by decide) (List.prefix_append _ _)

namespace HttpContext

/-- Two streams were framed alike: as many segments are left over, and the calls came to the
same; a request completed with the same body, the same bytes left and the same close
decision, an incomplete one is in the same phase with as many bytes. -/
def FramedAlike (fed fed' : Result (Bool × HttpContext) × List Bytes) : Prop :=
  fed.2.length = fed'.2.length ∧
    match outcome fed.1, outcome fed'.1 with
    | .rejected, .rejected => True
    | .thrown f, .thrown g => f = g
    | .complete c, .complete d =>
        c.request.body = d.request.body ∧ c.buffer = d.buffer ∧
          HttpServer.closes c.request = HttpServer.closes d.request
    | .incomplete c, .incomplete d =>
        c.request.body = d.request.body ∧ c.completeHeaders = d.completeHeaders ∧
          c.buffer.length = d.buffer.length
    | _, _ => False

end HttpContext

/-! ## Letters and symbols -/

theorem lowered_eq_symbol {b symbol : UInt8} (among : symbol ∈ [10, 13, (58 : UInt8)]) :
    lowered b = symbol ↔ b = symbol := by
  unfold lowered
  simp only [List.mem_cons, List.not_mem_nil, or_false] at among
  rcases among with rfl | rfl | rfl <;> grind

theorem SameLetters.length {s s' : Bytes} (letters : SameLetters s s') : s.length = s'.length := by
  have lengths := congrArg List.length letters
  rwa [List.length_map, List.length_map] at lengths

theorem SameLetters.append {s s' t t' : Bytes} (front : SameLetters s s')
    (back : SameLetters t t') : SameLetters (s ++ t) (s' ++ t') := by
  unfold SameLetters at *
  rw [List.map_append, List.map_append, front, back]

theorem SameLetters.colon {s s' : Bytes} (letters : SameLetters s s') (plain : (58 : UInt8) ∉ s) :
    (58 : UInt8) ∉ s' := by
  intro inside
  have lowered : (58 : UInt8) ∈ s'.map lowered := List.mem_map.mpr ⟨58, inside, by decide⟩
  rw [← letters] at lowered
  obtain ⟨b, member, symbol⟩ := List.mem_map.mp lowered
  exact plain ((lowered_eq_symbol (by decide)).mp symbol ▸ member)

/-- A CRLF is no letter. -/
theorem crlf_infix_lowered {s : Bytes} : crlf <:+: s.map lowered ↔ crlf <:+: s := by
  constructor
  · intro inside
    obtain ⟨part, within, same⟩ := List.infix_map_iff.mp inside
    obtain ⟨cr, tail, rfl, isCr, more⟩ := List.map_eq_cons_iff.mp same.symm
    obtain ⟨lf, last, rfl, isLf, ended⟩ := List.map_eq_cons_iff.mp more
    rw [List.map_eq_nil_iff.mp ended, (lowered_eq_symbol (by decide)).mp isCr,
      (lowered_eq_symbol (by decide)).mp isLf] at within
    exact within
  · intro inside
    exact inside.map lowered

theorem RecasedCoding.letters {value value' : Bytes} (coded : RecasedCoding value value') :
    SameLetters value value' := by
  induction coded with
  | nil => rfl
  | byte b _ ih => exact congrArg (lowered b :: ·) ih
  | coding coded coded' _ ih => exact SameLetters.append (coded.trans coded'.symm) ih

/-- The whole lines differ in letter case only. -/
theorem Recased.letters {line line' : Bytes} (recased : Recased line line') :
    SameLetters line line' := by
  cases recased with
  | same => rfl
  | name plain letters value => exact (letters.append rfl).append rfl
  | coding letters letters' coded =>
      have names := SameLetters.append (letters.trans letters'.symm) (Eq.refl ((ascii ":").map lowered))
      exact names.append coded.letters

/-! ## What the parser keeps of two fields -/

/-- Requests that differ in their fields only, and agree on the lookups that count. -/
structure Alike (r r' : HttpRequest) : Prop where
  rest : r' = { r with headers := r'.headers }
  connection : r.headers (ascii "Connection") = r'.headers (ascii "Connection")
  contentLength : r.headers (ascii "Content-Length") = r'.headers (ascii "Content-Length")
  transferEncoding : r.headers (ascii "Transfer-Encoding") = some (ascii "chunked") ↔
    r'.headers (ascii "Transfer-Encoding") = some (ascii "chunked")

theorem Alike.refl (r : HttpRequest) : Alike r r := ⟨rfl, rfl, rfl, Iff.rfl⟩

variable {r r' : HttpRequest}

theorem Alike.setHeader {name name' value value' : Bytes} (alike : Alike r r')
    (names : ∀ key ∈ framingKeys, name = key ↔ name' = key)
    (connection : name = ascii "Connection" → value = value')
    (contentLength : name = ascii "Content-Length" → value = value')
    (transferEncoding : name = ascii "Transfer-Encoding" →
      (value = ascii "chunked" ↔ value' = ascii "chunked")) :
    Alike (r.setHeader name value) (r'.setHeader name' value') := by
  have keep {key : Bytes} (among : key ∈ framingKeys) (agree : name = key → value = value')
      (same : r.headers key = r'.headers key) :
      (r.setHeader name value).headers key = (r'.setHeader name' value').headers key := by
    simp only [HttpRequest.setHeader, eq_comm (a := key), ← names key among]
    split_ifs with isKey
    · rw [agree isKey]
    · exact same
  refine ⟨?_, keep (by decide) connection alike.connection,
    keep (by decide) contentLength alike.contentLength, ?_⟩
  · rw [alike.rest]
    rfl
  · simp only [HttpRequest.setHeader, eq_comm (a := ascii "Transfer-Encoding"),
      ← names (ascii "Transfer-Encoding") (by decide)]
    split_ifs with isKey
    · simp only [Option.some.injEq, transferEncoding isKey]
    · exact alike.transferEncoding

theorem Alike.withBody (alike : Alike r r') (body : Bytes) :
    Alike { r with body := body } { r' with body := body } := by
  refine ⟨?_, alike.connection, alike.contentLength, alike.transferEncoding⟩
  rw [alike.rest]

theorem Alike.body (alike : Alike r r') : r.body = r'.body := by
  rw [alike.rest]

namespace HttpContext

theorem chunked_iff : chunked r = true ↔
    r.headers (ascii "Transfer-Encoding") = some (ascii "chunked") := by
  unfold chunked HttpRequest.hasHeader HttpRequest.getHeaderString
  cases r.headers (ascii "Transfer-Encoding") <;> simp

theorem chunked_alike (alike : Alike r r') : chunked r = chunked r' :=
  Bool.eq_iff_iff.mpr (chunked_iff.trans (alike.transferEncoding.trans chunked_iff.symm))

theorem readsBuffered_alike (alike : Alike r r') : readsBuffered r = readsBuffered r' := by
  rw [alike.rest]
  simp only [readsBuffered, HttpRequest.hasHeader, HttpRequest.getHeaderString, alike.connection]

theorem closes_alike (alike : Alike r r') : HttpServer.closes r = HttpServer.closes r' := by
  rw [alike.rest]
  simp only [HttpServer.closes, HttpRequest.getHeaderString, alike.connection]

/-! ## The field lines -/

theorem parseFieldLine_named {name name' value value' : Bytes} (plain : (58 : UInt8) ∉ name)
    (plain' : (58 : UInt8) ∉ name') (empty : value = [] ↔ value' = []) (alike : Alike r r')
    (names : ∀ key ∈ framingKeys, name = key ↔ name' = key)
    (connection : name = ascii "Connection" → value = value')
    (contentLength : name = ascii "Content-Length" → value = value')
    (transferEncoding : name = ascii "Transfer-Encoding" →
      (value.drop 1 = ascii "chunked" ↔ value'.drop 1 = ascii "chunked")) :
    Follows (Option.Rel Alike) (parseFieldLine r (name ++ ascii ":" ++ value))
      (parseFieldLine r' (name' ++ ascii ":" ++ value')) := by
  rw [parseFieldLine_colon plain, parseFieldLine_colon plain']
  simp only [← empty]
  split_ifs
  · exact .error _
  · apply Follows.ok
    apply Option.Rel.some
    apply alike.setHeader names _ _ transferEncoding
    · exact fun isKey => congrArg (List.drop 1) (connection isKey)
    · exact fun isKey => congrArg (List.drop 1) (contentLength isKey)

/-- The name of a line is read off its beginning. -/
theorem key_prefix_iff {key name : Bytes} (plain : (58 : UInt8) ∉ key)
    (plain' : (58 : UInt8) ∉ name) (value : Bytes) :
    key ++ ascii ":" <+: name ++ ascii ":" ++ value ↔ name = key := by
  constructor
  · rintro ⟨behind, same⟩
    rw [List.append_assoc, List.append_assoc] at same
    exact (Search.append_cons_inj_of_absent plain plain' same).1.symm
  · rintro rfl
    exact List.prefix_append _ _

theorem chunked_line_iff {name value : Bytes} (isKey : name = ascii "Transfer-Encoding")
    (nonempty : value ≠ []) :
    (∃ b, name ++ ascii ":" ++ value =
      ascii "Transfer-Encoding" ++ ascii ":" ++ b :: ascii "chunked") ↔
      value.drop 1 = ascii "chunked" := by
  obtain ⟨b, kept, rfl⟩ := List.exists_cons_of_ne_nil nonempty
  rw [isKey]
  simp

theorem parseFieldLine_alike {line line' : Bytes} (alike : Alike r r')
    (recased : Recased line line') (spelled : SpelledAlike line line') :
    Follows (Option.Rel Alike) (parseFieldLine r line) (parseFieldLine r' line') := by
  have colonless : ∀ key ∈ framingKeys, (58 : UInt8) ∉ key := by decide
  cases recased with
  | same =>
      by_cases colon : (58 : UInt8) ∈ line
      · obtain ⟨name, value, rfl, plain⟩ := List.eq_append_cons_of_mem colon
        have cut : name ++ 58 :: value = name ++ ascii ":" ++ value := List.append_cons ..
        rw [cut]
        exact parseFieldLine_named plain plain Iff.rfl alike (fun _ _ => Iff.rfl) (fun _ => rfl)
          (fun _ => rfl) (fun _ => Iff.rfl)
      · have nowhere : find (ascii ":") line = none :=
          Search.find_eq_none_iff.mpr fun inside => colon (inside.subset (by simp [ascii]))
        rw [parseFieldLine_of_colonless nowhere, parseFieldLine_of_colonless nowhere]
        exact .ok .none
  | @name name name' plain letters value =>
      have plain' := letters.colon plain
      refine parseFieldLine_named plain plain' Iff.rfl alike ?_ (fun _ => rfl) (fun _ => rfl)
        (fun _ => Iff.rfl)
      intro key among
      rw [← key_prefix_iff (colonless key among) plain value, spelled.names key among,
        key_prefix_iff (colonless key among) plain' value]
  | @coding name name' value value' letters letters' coded =>
      have encoding : (58 : UInt8) ∉ ascii "Transfer-Encoding" := by decide
      have plain := SameLetters.colon letters.symm encoding
      have plain' := SameLetters.colon letters'.symm encoding
      have empty : value = [] ↔ value' = [] := by
        have lengths := coded.letters.length
        rw [← List.length_eq_zero_iff, lengths, List.length_eq_zero_iff]
      have names : ∀ key ∈ framingKeys, name = key ↔ name' = key := by
        intro key among
        rw [← key_prefix_iff (colonless key among) plain value, spelled.names key among,
          key_prefix_iff (colonless key among) plain' value']
      -- only a field with the letters of `Transfer-Encoding` has a coding
      refine parseFieldLine_named plain plain' empty alike names ?_ ?_ ?_
      · rintro rfl
        exact absurd letters (by decide)
      · rintro rfl
        exact absurd letters (by decide)
      · intro isKey
        have isKey' := (names _ (by decide)).mp isKey
        by_cases blank : value = []
        · rw [blank, empty.mp blank]
        · rw [← chunked_line_iff isKey blank, spelled.coding,
            chunked_line_iff isKey' (fun blank' => blank (empty.mpr blank'))]

/-- What two related calls answer: the same flag, with related results. -/
def Answer {A : Type} (rel : A → A → Prop) (answer answer' : Bool × A) : Prop :=
  answer.1 = answer'.1 ∧ rel answer.2 answer'.2

theorem parseFields_alike {fields fields' : List Bytes} (alike : Alike r r')
    (recased : List.Forall₂ Recased fields fields')
    (spelled : List.Forall₂ SpelledAlike fields fields') :
    Follows (Answer Alike) (parseFields r fields) (parseFields r' fields') := by
  induction recased generalizing r r' with
  | nil => exact .ok ⟨rfl, alike⟩
  | @cons line line' fields fields' here _ ih =>
      obtain ⟨spelledHere, spelledBehind⟩ := List.forall₂_cons.mp spelled
      have parsed := parseFieldLine_alike alike here spelledHere
      rw [parseFields, parseFields]
      generalize parseFieldLine r line = first at parsed ⊢
      generalize parseFieldLine r' line' = first' at parsed ⊢
      cases parsed with
      | error f => exact .error f
      | ok kept =>
          cases kept with
          | none => exact .ok ⟨rfl, alike⟩
          | some later => exact ih later spelledBehind

theorem parseHeader_alike {requestLine : Bytes} {fields fields' : List Bytes}
    (first : ¬ crlf <:+: requestLine) (unbroken : ∀ line ∈ fields, ¬ crlf <:+: line)
    (unbroken' : ∀ line ∈ fields', ¬ crlf <:+: line)
    (recased : List.Forall₂ Recased fields fields')
    (spelled : List.Forall₂ SpelledAlike fields fields') (r : HttpRequest) :
    Follows (Answer Alike) (parseHeader r (block (requestLine :: fields)))
      (parseHeader r (block (requestLine :: fields'))) := by
  rw [parseHeader_lines, parseHeader_lines,
    crlfLines_block (List.forall_mem_cons.mpr ⟨first, unbroken⟩),
    crlfLines_block (List.forall_mem_cons.mpr ⟨first, unbroken'⟩)]
  simp only
  split_ifs
  · exact .ok ⟨rfl, .refl r⟩
  · cases parseRequestLine r requestLine with
    | error f => exact .error f
    | ok answer =>
        obtain ⟨passed, r₁⟩ := answer
        cases passed with
        | false => exact .ok ⟨rfl, .refl r₁⟩
        | true => exact parseFields_alike (.refl r₁) recased spelled

/-! ## The body -/

/-- Contexts behind the header block that differ in fields only. -/
structure AlikeBehind (c c' : HttpContext) : Prop where
  request : Alike c.request c'.request
  rest : c' = { c with request := c'.request }
  headers : c.completeHeaders = true

theorem AlikeBehind.cases {c c' : HttpContext} (behind : AlikeBehind c c') :
    ∃ r', Alike c.request r' ∧ c' = { c with request := r' } :=
  ⟨c'.request, behind.request, behind.rest⟩

theorem chunkTurn_alike {c c' : HttpContext} (behind : AlikeBehind c c') :
    Follows (Turn.Follows AlikeBehind (Answer AlikeBehind)) (chunkTurn c) (chunkTurn c') := by
  obtain ⟨r', alike, rfl⟩ := behind.cases
  unfold chunkTurn parseChunk
  cases found : find crlf c.buffer with
  | none =>
      exact .ok (.done ⟨rfl, behind⟩)
  | some chunkSizeEnd =>
      cases parsed : stoul 16 (c.buffer.take chunkSizeEnd) with
      | error f =>
          simp only [parsed]
          exact .error f
      | ok chunkSize =>
          simp only [parsed]
          by_cases short : c.buffer.length < sizeT (chunkSizeEnd + 2 + chunkSize + 2)
          · simp only [if_pos short]
            exact .ok (.done ⟨rfl, behind⟩)
          simp only [if_neg short]
          by_cases last : chunkSize = 0
          · simp only [if_pos last]
            exact .ok (.done ⟨rfl, alike, rfl, behind.headers⟩)
          · simp only [if_neg last, HttpRequest.addBody, ← alike.body]
            exact .ok (.again ⟨alike.withBody _, rfl, behind.headers⟩)

theorem parseChunkedBody_alike {c c' : HttpContext} (behind : AlikeBehind c c') :
    Follows (Answer AlikeBehind) (parseChunkedBody c) (parseChunkedBody c') := by
  have buffer : c'.buffer = c.buffer := by rw [behind.rest]
  unfold parseChunkedBody
  rw [buffer]
  exact loop_follows _ (fun _ _ => chunkTurn_alike) _ behind

theorem finish_alike {c c' : HttpContext} (behind : AlikeBehind c c') :
    AlikeBehind (finish c) (finish c') := by
  obtain ⟨r', alike, rfl⟩ := behind.cases
  unfold finish
  split_ifs
  · exact ⟨alike.withBody _, rfl, behind.headers⟩
  · exact ⟨alike, rfl, behind.headers⟩

theorem AlikeBehind.withLength {c c' : HttpContext} (behind : AlikeBehind c c') (n : Nat) :
    AlikeBehind { c with contentLength := n } { c' with contentLength := n } := by
  refine ⟨behind.request, ?_, behind.headers⟩
  rw [behind.rest]

theorem AlikeBehind.answer {c c' : HttpContext} (behind : AlikeBehind c c') (ok : Bool) :
    Follows (Answer AlikeBehind) (Except.ok (ok, c) : Result (Bool × HttpContext))
      (.ok (ok, c')) := by
  apply Follows.ok
  exact ⟨rfl, behind⟩

theorem parseBody_alike {c c' : HttpContext} (behind : AlikeBehind c c') :
    Follows (Answer AlikeBehind) (parseBody c) (parseBody c') := by
  have isChunked := chunked_alike behind.request
  have isBuffered := readsBuffered_alike behind.request
  have hasLength : c.request.hasHeader (ascii "Content-Length") =
      c'.request.hasHeader (ascii "Content-Length") :=
    congrArg Option.isSome behind.request.contentLength
  have length : c.request.getHeaderString (ascii "Content-Length") =
      c'.request.getHeaderString (ascii "Content-Length") :=
    congrArg (Option.getD · []) behind.request.contentLength
  have buffered : c'.buffer.length = c.buffer.length := by rw [behind.rest]
  unfold parseBody
  rw [← isChunked, ← isBuffered, ← hasLength, ← length, buffered]
  by_cases chunks : chunked c.request = true
  · rw [if_pos chunks, if_pos chunks]
    exact parseChunkedBody_alike behind
  rw [if_neg chunks, if_neg chunks]
  by_cases reads : readsBuffered c.request = true
  · rw [if_pos reads, if_pos reads]
    exact (finish_alike (behind.withLength c.buffer.length)).answer true
  rw [if_neg reads, if_neg reads]
  by_cases sized : c.request.hasHeader (ascii "Content-Length") = true
  · rw [if_pos sized, if_pos sized]
    cases stoul 10 (c.request.getHeaderString (ascii "Content-Length")) with
    | error f => exact behind.answer false
    | ok n =>
        by_cases short : c.buffer.length < n
        · simp only [if_pos short]
          exact (behind.withLength n).answer true
        · simp only [if_neg short]
          exact (finish_alike (behind.withLength n)).answer true
  · rw [if_neg sized, if_neg sized]
    exact (finish_alike behind).answer true

/-! ## The calls -/

theorem parseRequest_alike {c c' : HttpContext} (behind : AlikeBehind c c') (s : Bytes) :
    Follows (Answer AlikeBehind) (parseRequest c s) (parseRequest c' s) := by
  obtain ⟨r', alike, rfl⟩ := behind.cases
  have pushed : AlikeBehind (c.push s) { c.push s with request := r' } :=
    ⟨alike, rfl, behind.headers⟩
  rw [parseRequest_eq, parseRequest_eq, if_pos behind.headers, if_pos behind.headers]
  exact parseBody_alike pushed

/-- A call that is followed, and then the calls on the same segments. -/
theorem feed_cons_alike {c c' : HttpContext} {s s' : Bytes} {rest : List Bytes}
    (call : Follows (Answer AlikeBehind) (parseRequest c s) (parseRequest c' s'))
    (later : ∀ d d', AlikeBehind d d' →
      Follows (Answer AlikeBehind) (feed d rest).1 (feed d' rest).1 ∧
        (feed d rest).2 = (feed d' rest).2) :
    Follows (Answer AlikeBehind) (feed c (s :: rest)).1 (feed c' (s' :: rest)).1 ∧
      (feed c (s :: rest)).2 = (feed c' (s' :: rest)).2 := by
  rw [feed, feed]
  generalize parseRequest c s = answer at call ⊢
  generalize parseRequest c' s' = answer' at call ⊢
  cases call with
  | error f => exact ⟨.error f, rfl⟩
  | @ok p p' related =>
      obtain ⟨ok, d⟩ := p
      obtain ⟨ok', d'⟩ := p'
      obtain ⟨rfl, behind⟩ : ok = ok' ∧ AlikeBehind d d' := related
      have complete : d'.completeRequest = d.completeRequest := by rw [behind.rest]
      cases ok with
      | false => exact ⟨behind.answer false, rfl⟩
      | true =>
          simp only [complete]
          by_cases done : d.completeRequest = true
          · simp only [if_pos done]
            exact ⟨behind.answer true, trivial⟩
          · simp only [if_neg done]
            exact later d d' behind

/-- The calls on the same segments, behind the header block. -/
theorem feed_alike {c c' : HttpContext} (behind : AlikeBehind c c') (segments : List Bytes) :
    Follows (Answer AlikeBehind) (feed c segments).1 (feed c' segments).1 ∧
      (feed c segments).2 = (feed c' segments).2 := by
  induction segments generalizing c c' with
  | nil => exact ⟨behind.answer true, rfl⟩
  | cons s rest ih => exact feed_cons_alike (parseRequest_alike behind s) fun _ _ => ih

theorem framedAlike_of_alike {fed fed' : Result (Bool × HttpContext) × List Bytes}
    (answers : Follows (Answer AlikeBehind) fed.1 fed'.1) (left : fed.2 = fed'.2) :
    FramedAlike fed fed' := by
  refine ⟨congrArg List.length left, ?_⟩
  obtain ⟨answer, unfed⟩ := fed
  obtain ⟨answer', unfed'⟩ := fed'
  cases answers with
  | error f => rfl
  | @ok p p' related =>
      obtain ⟨ok, c⟩ := p
      obtain ⟨ok', c'⟩ := p'
      obtain ⟨rfl, behind⟩ := related
      obtain ⟨r', alike, rfl⟩ := behind.cases
      cases ok with
      | false => trivial
      | true =>
          simp only [outcome]
          by_cases complete : c.completeRequest = true
          · simp only [if_pos complete]
            exact ⟨alike.body, trivial, closes_alike alike⟩
          · simp only [if_neg complete]
            exact ⟨alike.body, trivial, trivial⟩

/-! ## The header block -/

/-- Where the header block of a stream ends, its empty line included. -/
def headLength (requestLine : Bytes) (fields : List Bytes) : Nat :=
  (block (requestLine :: fields)).length + 2

variable {requestLine rest : Bytes} {fields : List Bytes}

theorem find_requestStream (first : ¬ crlf <:+: requestLine)
    (unbroken : ∀ line ∈ fields, ¬ crlf <:+: line ∧ line ≠ []) (rest : Bytes) :
    find crlfcrlf (requestStream requestLine fields rest) =
      some (headLength requestLine fields - 4) := by
  obtain ⟨n, length, found⟩ := SentRequest.find_crlfcrlf_lines first unbroken rest
  rw [requestStream, found, headLength, length]
  rfl

/-- As long as the header block is cut off, no empty line has come. -/
theorem find_take_none (first : ¬ crlf <:+: requestLine)
    (unbroken : ∀ line ∈ fields, ¬ crlf <:+: line ∧ line ≠ []) {n : Nat}
    (short : n < headLength requestLine fields) :
    find crlfcrlf ((requestStream requestLine fields rest).take n) = none := by
  cases found : find crlfcrlf ((requestStream requestLine fields rest).take n) with
  | none => rfl
  | some e =>
      have stays := Search.find_append found ((requestStream requestLine fields rest).drop n)
      rw [List.take_append_drop] at stays
      have whole : find crlfcrlf (requestStream requestLine fields rest) = some e := stays
      have bound := Search.find_le found
      rw [find_requestStream first unbroken, Option.some.injEq] at whole
      rw [List.length_take, crlfcrlf_length] at bound
      omega

theorem take_requestStream {n : Nat} (enough : headLength requestLine fields ≤ n) :
    (requestStream requestLine fields rest).take n =
      requestStream requestLine fields (rest.take (n - headLength requestLine fields)) := by
  have length : (block (requestLine :: fields) ++ crlf).length = headLength requestLine fields := by
    rw [List.length_append, crlf_length, headLength]
  rw [requestStream, requestStream, List.take_append, length, List.take_of_length_le (by omega)]

theorem parseRequest_whole (first : ¬ crlf <:+: requestLine)
    (unbroken : ∀ line ∈ fields, ¬ crlf <:+: line ∧ line ≠ []) {front s : Bytes}
    (pushed : front ++ s = requestStream requestLine fields rest) :
    parseRequest { fresh with buffer := front } s =
      match parseHeader fresh.request (block (requestLine :: fields)) with
      | .error f => .error f
      | .ok (false, r) => .ok (false, { fresh with request := r, buffer := rest })
      | .ok (true, r) =>
          parseBody { fresh with request := r, buffer := rest, completeHeaders := true } := by
  obtain ⟨n, length, found⟩ := SentRequest.find_crlfcrlf_lines first unbroken rest
  have buffer : ({ fresh with buffer := front } : HttpContext).push s =
      { fresh with buffer := requestStream requestLine fields rest } := by
    rw [← pushed]
    rfl
  have header : (requestStream requestLine fields rest).take (n + 2) =
      block (requestLine :: fields) := by
    rw [requestStream, List.append_assoc]
    exact List.take_left' length
  have behind : (requestStream requestLine fields rest).drop (n + 4) = rest := by
    rw [requestStream]
    exact List.drop_left' (by rw [List.length_append, length, crlf_length])
  rw [parseRequest_eq, buffer, parseHead]
  simp only [show find crlfcrlf (requestStream requestLine fields rest) = some n from found, header,
    behind]
  rw [if_neg (by simp [fresh])]
  cases parseHeader fresh.request (block (requestLine :: fields)) with
  | error f => rfl
  | ok answer =>
      obtain ⟨ok, r⟩ := answer
      cases ok <;> rfl

theorem drop_requestStream {n : Nat} (enough : headLength requestLine fields ≤ n) :
    (requestStream requestLine fields rest).drop n =
      rest.drop (n - headLength requestLine fields) := by
  have length : (block (requestLine :: fields) ++ crlf).length = headLength requestLine fields := by
    rw [List.length_append, crlf_length, headLength]
  rw [requestStream, List.drop_append, length, List.drop_of_length_le (by omega), List.nil_append]

/-- A call as long as the header block is cut off. -/
theorem parseRequest_short (first : ¬ crlf <:+: requestLine)
    (unbroken : ∀ line ∈ fields, ¬ crlf <:+: line ∧ line ≠ []) (rest : Bytes) {n k : Nat}
    (short : n + k < headLength requestLine fields) :
    parseRequest { fresh with buffer := (requestStream requestLine fields rest).take n }
        (((requestStream requestLine fields rest).drop n).take k) =
      .ok (true, { fresh with buffer := (requestStream requestLine fields rest).take (n + k) }) := by
  have buffer : ({ fresh with
      buffer := (requestStream requestLine fields rest).take n } : HttpContext).push
        (((requestStream requestLine fields rest).drop n).take k) =
      { fresh with buffer := (requestStream requestLine fields rest).take (n + k) } := by
    rw [List.take_add]
    rfl
  rw [parseRequest_eq, buffer, parseHead]
  simp only [find_take_none first unbroken short]
  rfl

end HttpContext

namespace Recasing

variable (v : Recasing)

theorem block_recased {fields fields' : List Bytes} (recased : List.Forall₂ Recased fields fields') :
    (block fields).length = (block fields').length := by
  induction recased with
  | nil => rfl
  | cons here _ ih =>
      simp only [block_cons, List.length_append, ih, here.letters.length]

theorem unbroken' : ∀ line ∈ v.fields', ¬ crlf <:+: line ∧ line ≠ [] := by
  have each := v.unbroken
  have recased := v.recased
  generalize v.fields = fields at each recased
  generalize v.fields' = fields' at recased
  induction recased with
  | nil => exact fun line member => absurd member List.not_mem_nil
  | @cons line line' fields fields' here _ ih =>
      obtain ⟨⟨unbroken, nonempty⟩, behind⟩ := List.forall_mem_cons.mp each
      apply List.forall_mem_cons.mpr ⟨⟨?_, ?_⟩, ih behind⟩
      · rw [← crlf_infix_lowered, ← here.letters, crlf_infix_lowered]
        exact unbroken
      · rw [← List.length_pos_iff, ← here.letters.length, List.length_pos_iff]
        exact nonempty

open HttpContext

theorem headLength_eq : headLength v.requestLine v.fields' = headLength v.requestLine v.fields := by
  simp only [headLength, block_cons, List.length_append, block_recased v.recased]

theorem stream_length : v.stream'.length = v.stream.length := by
  simp only [stream, stream', requestStream, block_cons, List.length_append,
    block_recased v.recased]

/-- From the moment the header block is complete the two runs follow each other. -/
theorem framed_alike_whole (spelled : List.Forall₂ SpelledAlike v.fields v.fields')
    (lengths : List Nat) {n k : Nat} (enough : headLength v.requestLine v.fields ≤ n + k) :
    FramedAlike
      (feed { fresh with buffer := v.stream.take n } (segments (v.stream.drop n) (k :: lengths)))
      (feed { fresh with buffer := v.stream'.take n }
        (segments (v.stream'.drop n) (k :: lengths))) := by
  have enough' : headLength v.requestLine v.fields' ≤ n + k := v.headLength_eq ▸ enough
  obtain ⟨rest', isRest⟩ : ∃ rest', rest' =
      v.rest.take (n + k - headLength v.requestLine v.fields) := ⟨_, rfl⟩
  have pushed : v.stream.take n ++ (v.stream.drop n).take k =
      requestStream v.requestLine v.fields rest' := by
    rw [← List.take_add, stream, take_requestStream enough, isRest]
  have pushed' : v.stream'.take n ++ (v.stream'.drop n).take k =
      requestStream v.requestLine v.fields' rest' := by
    rw [← List.take_add, stream', take_requestStream enough', headLength_eq, isRest]
  have behind : (v.stream.drop n).drop k = (v.stream'.drop n).drop k := by
    rw [List.drop_drop, List.drop_drop, stream, stream', drop_requestStream enough,
      drop_requestStream enough', headLength_eq]
  have call := parseRequest_whole v.first v.unbroken pushed
  have call' := parseRequest_whole v.first v.unbroken' pushed'
  have header := parseHeader_alike v.first (fun l among => (v.unbroken l among).1)
    (fun l among => (v.unbroken' l among).1) v.recased spelled fresh.request
  rw [segments, segments, ← behind]
  generalize parseHeader fresh.request (block (v.requestLine :: v.fields)) = head at call header
  generalize parseHeader fresh.request (block (v.requestLine :: v.fields')) = head' at call' header
  cases header with
  | error f =>
      rw [feed, feed, call, call']
      exact ⟨rfl, rfl⟩
  | @ok p p' related =>
      obtain ⟨ok, r⟩ := p
      obtain ⟨ok', r'⟩ := p'
      obtain ⟨rfl, alike⟩ : ok = ok' ∧ Alike r r' := related
      cases ok with
      | false =>
          rw [feed, feed, call, call']
          exact ⟨rfl, trivial⟩
      | true =>
          have followed : Follows (Answer AlikeBehind)
              (parseRequest { fresh with buffer := v.stream.take n } ((v.stream.drop n).take k))
              (parseRequest { fresh with buffer := v.stream'.take n }
                ((v.stream'.drop n).take k)) := by
            rw [call, call']
            exact parseBody_alike ⟨alike, rfl, rfl⟩
          have fed := feed_cons_alike followed fun _ _ later =>
            feed_alike later (segments ((v.stream.drop n).drop k) lengths)
          exact framedAlike_of_alike fed.1 fed.2

theorem framed_alike_from (spelled : List.Forall₂ SpelledAlike v.fields v.fields')
    (lengths : List Nat) {n : Nat} (short : n < headLength v.requestLine v.fields) :
    FramedAlike
      (feed { fresh with buffer := v.stream.take n } (segments (v.stream.drop n) lengths))
      (feed { fresh with buffer := v.stream'.take n } (segments (v.stream'.drop n) lengths)) := by
  induction lengths generalizing n with
  | nil =>
      refine ⟨rfl, rfl, rfl, ?_⟩
      simp only [List.length_take, stream_length]
  | cons k lengths ih =>
      by_cases more : n + k < headLength v.requestLine v.fields
      · have call := parseRequest_short v.first v.unbroken v.rest more
        have call' := parseRequest_short v.first v.unbroken' v.rest
          (v.headLength_eq ▸ more)
        have later := ih more
        rw [← List.drop_drop, ← List.drop_drop] at later
        rw [segments, segments, feed, feed, stream, stream', call, call']
        exact later
      · exact v.framed_alike_whole spelled lengths (by omega)

/-- **Streams that spell the framing fields alike are framed alike**, however they are cut. -/
theorem framed_alike (v : Recasing) (spelled : List.Forall₂ SpelledAlike v.fields v.fields')
    (lengths : List Nat) :
    FramedAlike (feed fresh (segments v.stream lengths)) (feed fresh (segments v.stream' lengths)) :=
  v.framed_alike_from spelled lengths (Nat.zero_lt_succ _)

/-- `Host` and `HOST`. -/
def recasedHost : Recasing where
  requestLine := ascii "POST /a HTTP/1.1"
  fields := [ascii "Host" ++ ascii ":" ++ ascii " b", ascii "Content-Length: 5"]
  fields' := [ascii "HOST" ++ ascii ":" ++ ascii " b", ascii "Content-Length: 5"]
  rest := ascii "hello"
  recased := .cons (.name (by decide) (by decide) _) (.cons (.same _) .nil)
  first := by decide
  unbroken := by decide

theorem framed_alike_host :
    List.Forall₂ SpelledAlike recasedHost.fields recasedHost.fields' ∧
      FramedAlike (feed fresh (segments recasedHost.stream [20, 100]))
        (feed fresh (segments recasedHost.stream' [20, 100])) := by
  have spelled : List.Forall₂ SpelledAlike recasedHost.fields recasedHost.fields' :=
    .cons (.of_other (by decide) (by decide)) (.cons (.refl _) .nil)
  exact ⟨spelled, framed_alike recasedHost spelled [20, 100]⟩

/-- `Content-Length` and `content-length`. -/
def recasedLength : Recasing where
  requestLine := ascii "POST /a HTTP/1.1"
  fields := [ascii "Content-Length" ++ ascii ":" ++ ascii " 5"]
  fields' := [ascii "content-length" ++ ascii ":" ++ ascii " 5"]
  rest := ascii "hello"
  recased := .cons (.name (by decide) (by decide) _) .nil
  first := by decide
  unbroken := by decide

/-- The length in small letters is overlooked: the body is left to be parsed as the next
request. -/
theorem small_letters_overlooked :
    ¬ FramedAlike (feed fresh (segments recasedLength.stream [100]))
      (feed fresh (segments recasedLength.stream' [100])) := by
  obtain ⟨⟨ok, c⟩, fed, seen⟩ : ∃ p, (feed fresh (segments recasedLength.stream [100])).1 = .ok p ∧
      (p.1, p.2.completeRequest, p.2.request.body, p.2.buffer) = (true, true, ascii "hello", []) :=
    eq_ok_of_map (by decide +kernel)
  obtain ⟨⟨ok', c'⟩, fed', seen'⟩ : ∃ p,
      (feed fresh (segments recasedLength.stream' [100])).1 = .ok p ∧
      (p.1, p.2.completeRequest, p.2.request.body, p.2.buffer) = (true, true, [], ascii "hello") :=
    eq_ok_of_map (by decide +kernel)
  simp only [Prod.mk.injEq] at seen seen'
  obtain ⟨rfl, complete, body, -⟩ := seen
  obtain ⟨rfl, complete', body', -⟩ := seen'
  rintro ⟨-, same⟩
  rw [fed, fed', outcome_of_complete complete, outcome_of_complete complete'] at same
  have bodies : ascii "hello" = [] := body.symm.trans (same.1.trans body')
  exact absurd bodies (by decide)

end Recasing

end CppFileServer.Http
