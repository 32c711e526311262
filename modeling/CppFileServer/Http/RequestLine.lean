/-
# Http.RequestLine -- which request lines the parser lets pass

`ParseRequestLine` cuts the line at its first two spaces and asks whether the
strings of the method and of the version it has set are empty.  They never are:
an unknown method is set to `kINVALID_METHOD`, which is the value of `kGET`, an
unknown version to that of `kHTTP_1_0`, and both have strings.  What is asked of a
line in effect is two spaces and a URL (`parseRequestLine_true_iff`), and an
unknown token passes for a known one.
-/
import CppFileServer.Http.Encoding
import CppFileServer.Http.ParserFaults

namespace CppFileServer.Http

set_option autoImplicit false

open CppFileServer.Cpp CppFileServer.Theory

def Version.encode : Version → Bytes
  | .kHttp10 => ascii "HTTP/1.0"
  | .kHttp11 => ascii "HTTP/1.1"

/-- `METHOD SP URL SP VERSION`, with whatever stands for the three. -/
def joinLine (method url version : Bytes) : Bytes :=
  method ++ ascii " " ++ (url ++ ascii " " ++ version)

/-- The request lines of the protocol. -/
def Grammatical (line : Bytes) : Prop :=
  ∃ (m : Method) (url : Bytes) (v : Version),
    url ≠ [] ∧ (32 : UInt8) ∉ url ∧ line = joinLine m.encode url v.encode

/-- The object tells the tokens of the line. -/
def Tells (r : HttpRequest) (line : Bytes) : Prop :=
  line = joinLine r.method.encode r.url r.version.encode

instance (r : HttpRequest) (line : Bytes) : Decidable (Tells r line) :=
  inferInstanceAs (Decidable (line = joinLine r.method.encode r.url r.version.encode))

/-- If the line is cut by its first two spaces, with a URL between them, then a
method of the protocol stands in front of them and a version behind them. -/
def TokensKnown (line : Bytes) : Prop :=
  ∀ method url version, (32 : UInt8) ∉ method → (32 : UInt8) ∉ url → url ≠ [] →
    line = joinLine method url version →
      (∃ m : Method, method = m.encode) ∧ ∃ v : Version, version = v.encode

namespace HttpContext

/-- `ParseRequest` gets past the request line of the header block that `str`
completes, with `r` as the request so far. -/
def Passes (c : HttpContext) (str : Bytes) (r : HttpRequest) : Prop :=
  ∃ line fields, c.headLines str = some (line :: fields) ∧ line ≠ [] ∧
    parseRequestLine c.request line = .ok (true, r)

/-- What is asked of a request line: it passes exactly if it is one of the
protocol, and then the object tells its tokens. -/
def TakesExactly (c : HttpContext) (str line : Bytes) : Prop :=
  ((∃ r, c.Passes str r) ↔ Grammatical line) ∧ ∀ r, c.Passes str r → Tells r line

/-! ## Cutting a line -/

/-- A line has two spaces to be cut by or is refused. -/
theorem parseRequestLine_cases (r : HttpRequest) (line : Bytes) :
    parseRequestLine r line = .ok (false, r) ∨
      ∃ method url version, (32 : UInt8) ∉ method ∧ (32 : UInt8) ∉ url ∧
        line = joinLine method url version := by
  by_cases first : (32 : UInt8) ∈ line
  · obtain ⟨method, rest, rfl, methodPlain⟩ := List.eq_append_cons_of_mem first
    by_cases second : (32 : UInt8) ∈ rest
    · obtain ⟨url, version, rfl, urlPlain⟩ := List.eq_append_cons_of_mem second
      exact Or.inr ⟨method, url, version, methodPlain, urlPlain, by simp [joinLine, ascii]⟩
    · apply Or.inl
      have here : find (ascii " ") (method ++ 32 :: rest) = some method.length := by
        have found : find (ascii " ") (method ++ ascii " " ++ rest) = some method.length :=
          Search.find_skip_here methodPlain rest
        rwa [List.append_assoc] at found
      have behind : (method ++ 32 :: rest).drop (method.length + 1) = rest := by
        rw [List.append_cons]
        exact List.drop_left' (by simp)
      have nowhere : find (ascii " ") rest = none :=
        Search.find_eq_none_iff.mpr fun inside => second (inside.subset (by simp [ascii]))
      simp only [parseRequestLine, here, findFrom, behind]
      rw [show Search.find (ascii " ") rest = none from nowhere]
      rfl
  · apply Or.inl
    have nowhere : find (ascii " ") line = none :=
      Search.find_eq_none_iff.mpr fun inside => first (inside.subset (by simp [ascii]))
    simp only [parseRequestLine, nowhere]

/-- **What the parser asks of a request line**: two spaces, and something between
them.  The method and the version may be anything. -/
theorem parseRequestLine_true_iff {r r' : HttpRequest} {line : Bytes} :
    parseRequestLine r line = .ok (true, r') ↔
      ∃ method url version, (32 : UInt8) ∉ method ∧ (32 : UInt8) ∉ url ∧ url ≠ [] ∧
        line = joinLine method url version ∧
        r' = ((r.setMethod method).setUrl url).setVersion version := by
  constructor
  · intro passed
    rcases parseRequestLine_cases r line with refused | ⟨method, url, version, mp, up, rfl⟩
    · rw [refused] at passed
      cases passed
    · rw [joinLine, SentRequest.parseRequestLine_split mp up] at passed
      simp only [Except.ok.injEq, Prod.mk.injEq, Bool.not_eq_true', List.isEmpty_eq_false_iff]
        at passed
      exact ⟨method, url, version, mp, up, passed.1, rfl, passed.2.symm⟩
  · rintro ⟨method, url, version, mp, up, nonempty, rfl, rfl⟩
    rw [joinLine, SentRequest.parseRequestLine_split mp up, List.isEmpty_eq_false_iff.mpr nonempty]
    rfl

theorem joinLine_eq (method url version : Bytes) :
    joinLine method url version = method ++ 32 :: (url ++ 32 :: version) := by
  simp [joinLine, ascii]

/-- A line has no second cut. -/
theorem joinLine_inj {m m' u u' v v' : Bytes} (mp : (32 : UInt8) ∉ m) (mp' : (32 : UInt8) ∉ m')
    (up : (32 : UInt8) ∉ u) (up' : (32 : UInt8) ∉ u') (same : joinLine m u v = joinLine m' u' v') :
    m = m' ∧ u = u' ∧ v = v' := by
  rw [joinLine_eq, joinLine_eq] at same
  obtain ⟨methods, rest⟩ := Search.append_cons_inj_of_absent mp mp' same
  obtain ⟨urls, versions⟩ := Search.append_cons_inj_of_absent up up' rest
  exact ⟨methods, urls, versions⟩

/-! ## Tokens -/

theorem setVersion_encode (r : HttpRequest) (v : Version) :
    r.setVersion v.encode = { r with version := v } := by
  cases v <;> rfl

/-- A method that is none of the protocol's is taken for a GET. -/
theorem setMethod_unknown {method : Bytes} (unknown : ∀ m : Method, method ≠ m.encode)
    (r : HttpRequest) : r.setMethod method = { r with method := .kGet } := by
  unfold HttpRequest.setMethod
  apply (if_neg (unknown .kGet)).trans
  apply (if_neg (unknown .kPost)).trans
  apply (if_neg (unknown .kHead)).trans
  apply (if_neg (unknown .kPut)).trans
  exact if_neg (unknown .kDelete)

/-- A version that is none of the protocol's is taken for HTTP/1.0. -/
theorem setVersion_unknown {version : Bytes} (unknown : ∀ v : Version, version ≠ v.encode)
    (r : HttpRequest) : r.setVersion version = { r with version := .kHttp10 } := by
  unfold HttpRequest.setVersion
  apply (if_neg (unknown .kHttp10)).trans
  exact if_neg (unknown .kHttp11)

/-! ## Passing -/

theorem passes_iff {c : HttpContext} {str line : Bytes} {fields : List Bytes}
    (head : c.headLines str = some (line :: fields)) (r : HttpRequest) :
    c.Passes str r ↔ parseRequestLine c.request line = .ok (true, r) := by
  constructor
  · rintro ⟨line', fields', head', -, passed⟩
    rw [head, Option.some.injEq, List.cons.injEq] at head'
    rwa [head'.1]
  · intro passed
    refine ⟨line, fields, head, ?_, passed⟩
    obtain ⟨method, url, version, -, -, -, rfl, -⟩ := parseRequestLine_true_iff.mp passed
    simp [joinLine_eq]

/-- The lines of a header block that arrives whole. -/
theorem headLines_block {line : Bytes} {fields : List Bytes}
    (unbroken : ∀ l ∈ line :: fields, ¬ crlf <:+: l) (nonempty : ∀ l ∈ line :: fields, l ≠ []) :
    fresh.headLines (block (line :: fields) ++ crlf) = some (line :: fields) := by
  obtain ⟨n, length, found⟩ := SentRequest.find_crlfcrlf_lines
    (unbroken line List.mem_cons_self) (fun l member =>
      ⟨unbroken l (List.mem_cons_of_mem _ member), nonempty l (List.mem_cons_of_mem _ member)⟩) []
  rw [List.append_nil] at found
  have header : (block (line :: fields) ++ crlf).take (n + 2) = block (line :: fields) :=
    List.take_left' length
  have buffer : (fresh.push (block (line :: fields) ++ crlf)).buffer =
      block (line :: fields) ++ crlf := rfl
  rw [headLines_of_find rfl (buffer ▸ found), buffer, header, crlfLines_block unbroken]

/-- A request line that does not pass is refused by the call. -/
theorem parseRequest_of_not_passes {c : HttpContext} {str line : Bytes} {fields : List Bytes}
    (head : c.headLines str = some (line :: fields)) (stays : ∀ r, ¬ c.Passes str r) :
    ∃ c', c.parseRequest str = .ok (false, c') := by
  obtain ⟨headless, e, found, lines⟩ := headLines_eq_some head
  obtain ⟨r, refused⟩ : ∃ r, parseHeader c.request ((c.push str).buffer.take (e + 2)) =
      .ok (false, r) := by
    rw [parseHeader_lines, lines]
    by_cases empty : line = []
    · exact ⟨c.request, by simp only [if_pos empty]⟩
    · obtain ⟨ok, r, answered⟩ := parseRequestLine_returns c.request line
      cases ok with
      | false => exact ⟨r, by simp only [if_neg empty, answered]⟩
      | true => exact absurd ⟨line, fields, head, empty, answered⟩ (stays r)
  refine ⟨{ c with request := r, buffer := (c.push str).buffer.drop (e + 4) }, ?_⟩
  rw [parseRequest_eq, if_neg (by simp [headless]), parseHead, found]
  simp only [push_request, refused]
  rfl

/-- Behind a request line that passes the call goes on with the fields. -/
theorem parseRequest_of_passes {c : HttpContext} {str line : Bytes} {fields : List Bytes}
    {r r' : HttpRequest} (head : c.headLines str = some (line :: fields)) (passes : c.Passes str r)
    (taken : parseFields r fields = .ok (true, r')) :
    ∃ rest, c.parseRequest str =
      parseBody { c with request := r', buffer := rest, completeHeaders := true } := by
  obtain ⟨headless, e, found, lines⟩ := headLines_eq_some head
  have passed := (passes_iff head r).mp passes
  have nonempty : line ≠ [] := by
    rintro rfl
    cases passed
  have parsed : parseHeader c.request ((c.push str).buffer.take (e + 2)) = .ok (true, r') := by
    rw [parseHeader_lines, lines]
    simp only [if_neg nonempty, passed, taken]
  refine ⟨(c.push str).buffer.drop (e + 4), ?_⟩
  rw [parseRequest_eq, if_neg (by simp [headless]), parseHead, found]
  simp only [push_request, parsed]
  rfl

/-- **Unknown tokens are served as GET and HTTP/1.0**, which the object then claims
were sent. -/
theorem parseRequestLine_unknown {method url version : Bytes} (methodPlain : (32 : UInt8) ∉ method)
    (urlPlain : (32 : UInt8) ∉ url) (nonempty : url ≠ [])
    (noMethod : ∀ m : Method, method ≠ m.encode) (noVersion : ∀ v : Version, version ≠ v.encode)
    (started : HttpRequest) :
    parseRequestLine started (joinLine method url version) =
      .ok (true, { started with method := .kGet, url := url, version := .kHttp10 }) := by
  rw [joinLine, SentRequest.parseRequestLine_split methodPlain urlPlain,
    setMethod_unknown noMethod, setVersion_unknown noVersion, List.isEmpty_eq_false_iff.mpr nonempty]
  rfl

/-- **A request line of the protocol passes and is told by the object.** -/
theorem parseRequestLine_grammatical (started : HttpRequest) {m : Method} {url : Bytes}
    {v : Version} (nonempty : url ≠ []) (plain : (32 : UInt8) ∉ url) :
    parseRequestLine started (joinLine m.encode url v.encode) =
      .ok (true, { started with method := m, url := url, version := v }) := by
  rw [joinLine, SentRequest.parseRequestLine_split (SentRequest.encode_method_plain m).1 plain,
    SentRequest.setMethod_encode, setVersion_encode, List.isEmpty_eq_false_iff.mpr nonempty]
  rfl

/-- **The parser takes a request line for what it is exactly if its tokens are
known**: a line that has the two spaces and a URL passes whatever its tokens. -/
theorem takesExactly_iff_tokensKnown {c : HttpContext} {str line : Bytes} {fields : List Bytes}
    (head : c.headLines str = some (line :: fields)) :
    c.TakesExactly str line ↔ TokensKnown line := by
  constructor
  · rintro ⟨exactly, -⟩ method url version mp up nonempty rfl
    have passed := (passes_iff head _).mpr
      (parseRequestLine_true_iff.mpr ⟨method, url, version, mp, up, nonempty, rfl, rfl⟩)
    obtain ⟨m, url', v, -, up', same⟩ := exactly.mp ⟨_, passed⟩
    obtain ⟨methods, -, versions⟩ :=
      joinLine_inj mp (SentRequest.encode_method_plain m).1 up up' same
    exact ⟨⟨m, methods⟩, ⟨v, versions⟩⟩
  · intro known
    have told : ∀ r, c.Passes str r → Grammatical line ∧ Tells r line := by
      intro r passes
      have passed := (passes_iff head r).mp passes
      obtain ⟨method, url, version, mp, up, nonempty, rfl, -⟩ :=
        parseRequestLine_true_iff.mp passed
      obtain ⟨⟨m, rfl⟩, ⟨v, rfl⟩⟩ := known method url version mp up nonempty rfl
      rw [parseRequestLine_grammatical _ nonempty up] at passed
      simp only [Except.ok.injEq, Prod.mk.injEq, true_and] at passed
      subst passed
      exact ⟨⟨m, url, v, nonempty, up, rfl⟩, rfl⟩
    refine ⟨⟨fun ⟨r, passes⟩ => (told r passes).1, ?_⟩, fun r passes => (told r passes).2⟩
    rintro ⟨m, url, v, nonempty, plain, rfl⟩
    exact ⟨_, (passes_iff head _).mpr (parseRequestLine_grammatical _ nonempty plain)⟩

theorem takesExactly_of_get :
    fresh.TakesExactly (block [ascii "GET /a HTTP/1.1"] ++ crlf) (ascii "GET /a HTTP/1.1") := by
  have head : fresh.headLines (block [ascii "GET /a HTTP/1.1"] ++ crlf) =
      some [ascii "GET /a HTTP/1.1"] := headLines_block (by decide) (by decide)
  apply (takesExactly_iff_tokensKnown head).mpr
  intro method url version mp up nonempty same
  have sent : ascii "GET /a HTTP/1.1" =
    joinLine Method.kGet.encode (ascii "/a") Version.kHttp11.encode := by decide
  obtain ⟨rfl, -, rfl⟩ := joinLine_inj mp (by decide) up (by decide) (same.symm.trans sent)
  exact ⟨⟨.kGet, rfl⟩, ⟨.kHttp11, rfl⟩⟩

/-- `BREW /pot HTTP/9` passes. -/
theorem brew_passes :
    fresh.headLines (block [ascii "BREW /pot HTTP/9"] ++ crlf) = some [ascii "BREW /pot HTTP/9"] ∧
      (∃ r, fresh.Passes (block [ascii "BREW /pot HTTP/9"] ++ crlf) r ∧ r.method = .kGet ∧
        r.version = .kHttp10) ∧
      ¬ fresh.TakesExactly (block [ascii "BREW /pot HTTP/9"] ++ crlf) (ascii "BREW /pot HTTP/9") := by
  have head : fresh.headLines (block [ascii "BREW /pot HTTP/9"] ++ crlf) =
      some [ascii "BREW /pot HTTP/9"] := headLines_block (by decide) (by decide)
  have passed : parseRequestLine fresh.request
      (joinLine (ascii "BREW") (ascii "/pot") (ascii "HTTP/9")) = _ :=
    parseRequestLine_unknown (by decide) (by decide) (by decide)
      (by intro m; cases m <;> decide) (by intro v; cases v <;> decide) {}
  have passes := (passes_iff head _).mpr passed
  refine ⟨head, ⟨_, passes, rfl, rfl⟩, ?_⟩
  rintro ⟨-, tells⟩
  exact absurd (tells _ passes) (by decide)

/-! ## No URL holds a line end -/

theorem parseRequestLine_url {r r' : HttpRequest} {line : Bytes} {ok : Bool}
    (unbroken : ¬ crlf <:+: line) (plain : ¬ crlf <:+: r.url)
    (parsed : parseRequestLine r line = .ok (ok, r')) : ¬ crlf <:+: r'.url := by
  rcases parseRequestLine_cases r line with refused | ⟨method, url, version, mp, up, rfl⟩
  · rw [refused] at parsed
    cases parsed
    exact plain
  · rw [joinLine, SentRequest.parseRequestLine_split mp up] at parsed
    cases parsed
    rw [HttpRequest.setVersion_url]
    intro inside
    apply unbroken
    rw [joinLine_eq]
    exact inside.trans ⟨method ++ [32], 32 :: version, by simp [HttpRequest.setUrl]⟩

theorem parseFields_url {r r' : HttpRequest} {lines : List Bytes} {ok : Bool}
    (parsed : parseFields r lines = .ok (ok, r')) : r'.url = r.url := by
  induction lines generalizing r with
  | nil =>
      cases parsed
      rfl
  | cons line lines ih =>
      rw [parseFields] at parsed
      cases turned : parseFieldLine r line with
      | error f =>
          rw [turned] at parsed
          cases parsed
      | ok kept =>
          rw [turned] at parsed
          cases kept with
          | none =>
              cases parsed
              rfl
          | some r₁ =>
              have set : r₁.url = r.url := by
                unfold parseFieldLine at turned
                split at turned
                · cases turned
                · obtain ⟨value, -, turned⟩ := bind_eq_ok turned
                  cases turned
                  rfl
              exact (ih parsed).trans set

theorem parseHeader_url {r r' : HttpRequest} {header : Bytes} {ok : Bool}
    (plain : ¬ crlf <:+: r.url) (parsed : parseHeader r header = .ok (ok, r')) :
    ¬ crlf <:+: r'.url := by
  rw [parseHeader_lines] at parsed
  cases lines : crlfLines header with
  | nil =>
      rw [lines] at parsed
      cases parsed
      exact plain
  | cons line fields =>
      have unbroken : ¬ crlf <:+: line := crlfLines_unbroken (by rw [lines]; exact List.mem_cons_self)
      rw [lines] at parsed
      simp only at parsed
      split_ifs at parsed
      · cases parsed
        exact plain
      · split at parsed
        · cases parsed
        · rename_i passed
          cases parsed
          exact parseRequestLine_url unbroken plain passed
        · rename_i passed
          rw [parseFields_url parsed]
          exact parseRequestLine_url unbroken plain passed

/-- A header block is accepted only with a URL. -/
theorem parseHeader_true_url {r r' : HttpRequest} {header : Bytes}
    (parsed : parseHeader r header = .ok (true, r')) : r'.url ≠ [] := by
  rw [parseHeader_lines] at parsed
  split at parsed
  · cases parsed
  · split_ifs at parsed
    · cases parsed
    · split at parsed
      · cases parsed
      · cases parsed
      · rename_i passed
        obtain ⟨method, url, version, -, -, nonempty, -, rfl⟩ :=
          parseRequestLine_true_iff.mp passed
        rw [parseFields_url parsed, HttpRequest.setVersion_url]
        exact nonempty

theorem parseBody_url {c c' : HttpContext} {ok : Bool} (parsed : parseBody c = .ok (ok, c')) :
    c'.request.url = c.request.url := by
  rw [(parseBody_frame parsed).1]

theorem parseRequest_url {c c' : HttpContext} {str : Bytes} {ok : Bool}
    (plain : ¬ crlf <:+: c.request.url) (parsed : c.parseRequest str = .ok (ok, c')) :
    ¬ crlf <:+: c'.request.url := by
  rw [parseRequest_eq] at parsed
  split_ifs at parsed
  · rwa [parseBody_url parsed]
  · split at parsed
    · cases parsed
    · cases parsed
      exact plain
    · rename_i refused
      cases parsed
      obtain ⟨e, r, -, header, rfl⟩ := parseHead_eq_refused refused
      exact parseHeader_url plain header
    · rename_i head
      obtain ⟨e, r, -, header, rfl⟩ := parseHead_eq_parsed head
      rw [parseBody_url parsed]
      exact parseHeader_url plain header

end HttpContext

theorem Reader.call_url {r r' : Reader} {call : ContextCall}
    (plain : ¬ crlf <:+: r.context.request.url) (called : r.call call = .ok r') :
    ¬ crlf <:+: r'.context.request.url := by
  cases call with
  | parseRequest str =>
      rw [Reader.call] at called
      split_ifs at called
      obtain ⟨⟨ok, c'⟩, parsed, called⟩ := bind_eq_ok called
      cases called
      exact HttpContext.parseRequest_url plain parsed
  | reset =>
      cases called
      intro inside
      cases List.infix_nil.mp inside

/-- **No URL holds a CRLF**, whatever a connection makes its context parse. -/
theorem Reader.url_unbroken {indeterminate : Bool} {calls : List ContextCall} {reader : Reader}
    (ran : run Reader.call (Reader.start indeterminate) calls = .ok reader) :
    ¬ crlf <:+: reader.context.request.url := by
  apply run_invariant (fun _ _ _ => Reader.call_url) ran
  intro inside
  cases List.infix_nil.mp inside

end CppFileServer.Http
