/-
# Http.Encoding -- the requests a peer sends

`SentRequest` is a request as its sender writes it: the five methods, a URL, the
fields in order, and a body that is absent, of a declared length, or chunked.
`WellFormed` is what makes it a request of this protocol.  `encode` lays out its
bytes and `toHttpRequest` is the object the server should see.  The main result
is that the parser reads the one back to the other and stops behind its last
byte (`encode_message`).
-/
import CppFileServer.Http.ChunkForm
import CppFileServer.Http.HeaderLines

namespace CppFileServer.Http

set_option autoImplicit false

open CppFileServer.Cpp CppFileServer.Theory

inductive SentBody
  | absent
  | sized (data : Bytes)
  /-- Size lines with their data, without the last chunk. -/
  | chunked (chunks : List (Bytes × Bytes))

structure SentRequest where
  method : Method
  url : Bytes
  fields : List (Bytes × Bytes)
  body : SentBody

def Method.encode : Method → Bytes
  | .kGet => ascii "GET"
  | .kPost => ascii "POST"
  | .kHead => ascii "HEAD"
  | .kPut => ascii "PUT"
  | .kDelete => ascii "DELETE"

namespace SentBody

def encodeChunk (chunk : Bytes × Bytes) : Bytes := chunk.1 ++ crlf ++ chunk.2 ++ crlf

def encode : SentBody → Bytes
  | .absent => []
  | .sized data => data
  | .chunked chunks => (chunks.map encodeChunk).flatten ++ ascii "0\r\n\r\n"

/-- The data, without its framing. -/
def data : SentBody → Bytes
  | .absent => []
  | .sized data => data
  | .chunked chunks => (chunks.map Prod.snd).flatten

end SentBody

namespace SentRequest

def requestLine (r : SentRequest) : Bytes :=
  r.method.encode ++ ascii " " ++ (r.url ++ ascii " " ++ ascii "HTTP/1.1")

def fieldLine (field : Bytes × Bytes) : Bytes := field.1 ++ ascii ":" ++ (ascii " " ++ field.2)

def encode (r : SentRequest) : Bytes :=
  block (r.requestLine :: r.fields.map fieldLine) ++ crlf ++ r.body.encode

def toHttpRequest (r : SentRequest) : HttpRequest where
  method := r.method
  version := .kHttp11
  url := r.url
  headers := fun key => r.fields.lookup key
  body := r.body.data

/-- The fields announce the body as it is sent.  The bounds say that a body of a
declared length, and a single chunk with its line, fit a `std::string`. -/
def Framed (r : SentRequest) : Prop :=
  match r.body with
  | .absent =>
      r.fields.lookup (ascii "Content-Length") = none ∧
        r.fields.lookup (ascii "Transfer-Encoding") ≠ some (ascii "chunked")
  | .sized data =>
      r.fields.lookup (ascii "Transfer-Encoding") ≠ some (ascii "chunked") ∧
        data.length < 2 ^ 64 ∧
        ∃ digits, r.fields.lookup (ascii "Content-Length") = some digits ∧
          Numeral 10 digits data.length
  | .chunked chunks =>
      r.fields.lookup (ascii "Transfer-Encoding") = some (ascii "chunked") ∧
        ∀ chunk ∈ chunks, Numeral 16 chunk.1 chunk.2.length ∧ chunk.2 ≠ [] ∧
          chunk.1.length + chunk.2.length + 4 < 2 ^ 64

structure WellFormed (r : SentRequest) : Prop where
  urlNonempty : r.url ≠ []
  urlPlain : ∀ b ∈ r.url, b ≠ 32 ∧ b ≠ 13 ∧ b ≠ 10
  keysDistinct : (r.fields.map Prod.fst).Nodup
  keysPlain : ∀ field ∈ r.fields, ∀ b ∈ field.1, b ≠ 58 ∧ b ≠ 13 ∧ b ≠ 10
  valuesPlain : ∀ field ∈ r.fields, ∀ b ∈ field.2, b ≠ 13 ∧ b ≠ 10
  keepsAlive : r.fields.lookup (ascii "Connection") ≠ some (ascii "close")
  framed : r.Framed

/-! ## Lines and the empty line behind them -/

/-- A line that holds no CRLF holds no beginning of an empty line either. -/
theorem find_crlfcrlf_unbroken {line : Bytes} (unbroken : ¬ crlf <:+: line) (rest : Bytes) :
    find crlfcrlf (line ++ crlf ++ rest) = (find crlfcrlf (crlf ++ rest)).map (· + line.length) := by
  induction line with
  | nil => simp
  | cons b line ih =>
      have tail : ¬ crlf <:+: line := fun inside => unbroken (List.infix_cons inside)
      have notHere : ¬ crlfcrlf <+: b :: (line ++ crlf ++ rest) := by
        rw [crlfcrlf_eq, List.cons_prefix_cons]
        rintro ⟨isCr, more⟩
        cases line with
        | nil =>
            rw [List.nil_append, crlf_eq, List.cons_append, List.cons_prefix_cons] at more
            exact absurd more.1 (by decide)
        | cons d line =>
            rw [List.cons_append, List.cons_append, List.cons_prefix_cons] at more
            apply unbroken
            rw [crlf_eq, ← isCr, ← more.1]
            exact (List.prefix_append [13, 10] line).isInfix
      have later : Search.find crlfcrlf (line ++ crlf ++ rest) = _ := ih tail
      rw [List.cons_append, List.cons_append]
      show Search.find crlfcrlf _ = _
      rw [Search.find_cons_skip notHere, later, Option.map_map]
      rfl

/-- The empty line is found behind the last of the lines. -/
theorem find_crlfcrlf_lines {line : Bytes} {lines : List Bytes} (first : ¬ crlf <:+: line)
    (unbroken : ∀ l ∈ lines, ¬ crlf <:+: l ∧ l ≠ []) (rest : Bytes) :
    ∃ n, (block (line :: lines)).length = n + 2 ∧
      find crlfcrlf (block (line :: lines) ++ crlf ++ rest) = some n := by
  induction lines generalizing line with
  | nil =>
      refine ⟨line.length, by simp [block_cons, block_nil], ?_⟩
      have here : Search.find crlfcrlf (crlf ++ (crlf ++ rest)) = some 0 :=
        Search.find_head ⟨rest, rfl⟩
      have skipped := find_crlfcrlf_unbroken first (crlf ++ rest)
      rw [show find crlfcrlf (crlf ++ (crlf ++ rest)) = some 0 from here] at skipped
      simpa [block_cons, block_nil] using skipped
  | cons next lines ih =>
      obtain ⟨n, length, found⟩ := ih (unbroken next List.mem_cons_self).1
        (fun l member => unbroken l (List.mem_cons_of_mem _ member))
      refine ⟨line.length + 2 + n, ?_, ?_⟩
      · rw [block_cons, List.length_append, List.length_append, length, crlf_length]
        omega
      · obtain ⟨nextUnbroken, nextNonempty⟩ := unbroken next (by simp)
        obtain ⟨b, next', rfl⟩ := List.exists_cons_of_ne_nil nextNonempty
        -- the CRLF that ends this line is not followed by another one
        have notHere : ¬ ([13, 10, 13, 10] : Bytes) <+:
            13 :: 10 :: (block ((b :: next') :: lines) ++ crlf ++ rest) := by
          simp only [block_cons, List.cons_append, List.cons_prefix_cons]
          rintro ⟨-, -, isCr, more⟩
          cases next' with
          | nil =>
              rw [crlf_eq, List.nil_append, List.cons_append, List.cons_append, List.cons_append,
                List.cons_prefix_cons] at more
              exact absurd more.1 (by decide)
          | cons d next' =>
              rw [List.cons_append, List.cons_append, List.cons_append, List.cons_append,
                List.cons_prefix_cons] at more
              apply nextUnbroken
              rw [crlf_eq, isCr, more.1]
              exact (List.prefix_append [b, d] next').isInfix
        have notNext : ¬ ([13, 10, 13, 10] : Bytes) <+:
            10 :: (block ((b :: next') :: lines) ++ crlf ++ rest) := by
          simp [List.cons_prefix_cons]
        have later : Search.find [13, 10, 13, 10]
            (block ((b :: next') :: lines) ++ crlf ++ rest) = some n := found
        have ended : find crlfcrlf (crlf ++ (block ((b :: next') :: lines) ++ crlf ++ rest)) =
            some (n + 2) := by
          show Search.find [13, 10, 13, 10]
            (13 :: 10 :: (block ((b :: next') :: lines) ++ crlf ++ rest)) = some (n + 2)
          rw [Search.find_cons_skip notHere, Search.find_cons_skip notNext, later]
          rfl
        have skipped := find_crlfcrlf_unbroken first
          (block ((b :: next') :: lines) ++ crlf ++ rest)
        rw [ended] at skipped
        rw [block_cons line, List.append_assoc (line ++ crlf), List.append_assoc (line ++ crlf),
          skipped]
        simp only [Option.map_some, Option.some.injEq]
        omega

theorem unbroken_of_noCr {line : Bytes} (noCr : (13 : UInt8) ∉ line) : ¬ crlf <:+: line :=
  fun inside => noCr (inside.subset (by simp [crlf_eq]))

/-- The empty line behind lines without CR. -/
theorem find_crlfcrlf_block {line : Bytes} {lines : List Bytes}
    (plain : ∀ l ∈ line :: lines, (13 : UInt8) ∉ l ∧ l ≠ []) (rest : Bytes) :
    ∃ n, (block (line :: lines)).length = n + 2 ∧
      find crlfcrlf (block (line :: lines) ++ crlf ++ rest) = some n :=
  find_crlfcrlf_lines (unbroken_of_noCr (plain line List.mem_cons_self).1)
    (fun l inside => ⟨unbroken_of_noCr (plain l (List.mem_cons_of_mem _ inside)).1,
      (plain l (List.mem_cons_of_mem _ inside)).2⟩) rest

/-! ## The header block is read back -/

theorem encode_method_plain (m : Method) :
    (32 : UInt8) ∉ m.encode ∧ (13 : UInt8) ∉ m.encode ∧ m.encode ≠ [] := by
  cases m <;> decide

theorem setMethod_encode (r : HttpRequest) (m : Method) :
    r.setMethod m.encode = { r with method := m } := by
  cases m <;> rfl

/-- What stands between the first two spaces of a line, in front of them and behind them. -/
theorem parseRequestLine_split {method url : Bytes} (methodPlain : (32 : UInt8) ∉ method)
    (urlPlain : (32 : UInt8) ∉ url) (version : Bytes) (started : HttpRequest) :
    HttpContext.parseRequestLine started (method ++ ascii " " ++ (url ++ ascii " " ++ version)) =
      .ok (!url.isEmpty, ((started.setMethod method).setUrl url).setVersion version) := by
  have first : find (ascii " ") (method ++ ascii " " ++ (url ++ ascii " " ++ version)) =
      some method.length := Search.find_skip_here methodPlain _
  have afterMethod : (method ++ ascii " " ++ (url ++ ascii " " ++ version)).drop
      (method.length + 1) = url ++ ascii " " ++ version :=
    List.drop_left' (by simp [ascii])
  have second : findFrom (ascii " ") (method ++ ascii " " ++ (url ++ ascii " " ++ version))
      (method.length + 1) = some (url.length + (method.length + 1)) := by
    have here : Search.find (ascii " ") (url ++ ascii " " ++ version) = some url.length :=
      Search.find_skip_here urlPlain _
    rw [findFrom, afterMethod, here]
    rfl
  have afterUrl : (method ++ ascii " " ++ (url ++ ascii " " ++ version)).drop
      (url.length + (method.length + 1) + 1) = version := by
    rw [show url.length + (method.length + 1) + 1 =
      (method.length + 1) + (url.length + 1) by omega, ← List.drop_drop, afterMethod]
    exact List.drop_left' (by simp [ascii])
  have length : (method ++ ascii " " ++ (url ++ ascii " " ++ version)).length =
      method.length + 1 + (url.length + 1 + version.length) := by
    simp only [List.length_append]
    rfl
  have methodTaken : (method ++ ascii " " ++ (url ++ ascii " " ++ version)).take method.length =
      method := by
    rw [List.append_assoc]
    exact List.take_left' rfl
  have urlTaken : (url ++ ascii " " ++ version).take
      (url.length + (method.length + 1) - method.length - 1) = url := by
    rw [List.append_assoc]
    exact List.take_left' (by omega)
  unfold HttpContext.parseRequestLine
  simp only [first, second]
  rw [substr_of_le (by omega), substr_of_le (by omega), afterMethod, afterUrl, methodTaken]
  show Except.ok _ = _
  rw [urlTaken]
  have kept : (((started.setMethod method).setUrl url).setVersion version).url = url := by
    rw [HttpRequest.setVersion_url]
    rfl
  rw [kept, List.isEmpty_eq_false_iff.mpr (HttpRequest.getMethodString_ne_nil _),
    List.isEmpty_eq_false_iff.mpr (HttpRequest.getVersionString_ne_nil _), Bool.false_or,
    Bool.or_false]

theorem parseRequestLine_encode {r : SentRequest} (wellFormed : WellFormed r)
    (started : HttpRequest) :
    HttpContext.parseRequestLine started r.requestLine =
      .ok (true, { started with method := r.method, url := r.url, version := .kHttp11 }) := by
  have noSpace : (32 : UInt8) ∉ r.url := fun member => (wellFormed.urlPlain 32 member).1 rfl
  have versioned (t : HttpRequest) :
      t.setVersion (ascii "HTTP/1.1") = { t with version := .kHttp11 } := rfl
  have nonempty := wellFormed.urlNonempty
  rw [requestLine, parseRequestLine_split (encode_method_plain r.method).1 noSpace,
    setMethod_encode, versioned]
  simp [HttpRequest.setUrl, nonempty]

theorem parseFieldLine_encode {field : Bytes × Bytes} (plain : (58 : UInt8) ∉ field.1)
    (started : HttpRequest) :
    HttpContext.parseFieldLine started (fieldLine field) =
      .ok (some (started.setHeader field.1 field.2)) := by
  have nonempty : ascii " " ++ field.2 ≠ [] := List.append_ne_nil_of_left_ne_nil (by decide) _
  rw [fieldLine, HttpContext.parseFieldLine_colon plain, if_neg nonempty]
  rfl

/-- The header loop sets the fields in order. -/
theorem parseFields_encode {fields : List (Bytes × Bytes)}
    (plain : ∀ field ∈ fields, (58 : UInt8) ∉ field.1) (started : HttpRequest) :
    HttpContext.parseFields started (fields.map fieldLine) =
      .ok (true, fields.foldl (fun r field => r.setHeader field.1 field.2) started) := by
  induction fields generalizing started with
  | nil => rfl
  | cons field fields ih =>
      simp only [List.map_cons, HttpContext.parseFields,
        parseFieldLine_encode (plain field (by simp))]
      exact ih (fun f member => plain f (List.mem_cons_of_mem _ member)) _

/-- Distinct fields set one after another are looked up in the list of them. -/
theorem foldl_setHeader {fields : List (Bytes × Bytes)}
    (distinct : (fields.map Prod.fst).Nodup) (started : HttpRequest) :
    fields.foldl (fun r field => r.setHeader field.1 field.2) started =
      { started with headers := fun key => (fields.lookup key).or (started.headers key) } := by
  induction fields generalizing started with
  | nil => simp
  | cons field fields ih =>
      obtain ⟨name, value⟩ := field
      rw [List.map_cons, List.nodup_cons] at distinct
      obtain ⟨absent, distinct⟩ := distinct
      rw [List.foldl_cons, ih distinct]
      simp only [HttpRequest.setHeader, HttpRequest.mk.injEq, true_and, and_true]
      funext key
      by_cases same : key = name
      · have notLater : fields.lookup name = none := by
          rw [List.lookup_eq_none_iff]
          intro p member
          rw [bne_iff_ne]
          intro equal
          exact absent (List.mem_map.mpr ⟨p, member, equal.symm⟩)
        subst same
        simp [notLater]
      · simp [List.lookup_cons, same, beq_false_of_ne same]

/-- The request the header block alone makes. -/
def headRequest (r : SentRequest) : HttpRequest := { r.toHttpRequest with body := [] }

theorem requestLine_plain {r : SentRequest} (wellFormed : WellFormed r) :
    (13 : UInt8) ∉ r.requestLine ∧ r.requestLine ≠ [] := by
  have noCr : (13 : UInt8) ∉ r.url := fun member => (wellFormed.urlPlain 13 member).2.1 rfl
  obtain ⟨-, methodNoCr, methodNonempty⟩ := encode_method_plain r.method
  refine ⟨?_, by simp [requestLine, methodNonempty]⟩
  simp only [requestLine, List.mem_append, methodNoCr, noCr, false_or]
  decide

theorem fieldLine_plain {r : SentRequest} (wellFormed : WellFormed r)
    {field : Bytes × Bytes} (member : field ∈ r.fields) :
    (58 : UInt8) ∉ field.1 ∧ (13 : UInt8) ∉ fieldLine field := by
  have keyNoCr : (13 : UInt8) ∉ field.1 :=
    fun inKey => (wellFormed.keysPlain field member 13 inKey).2.1 rfl
  have valueNoCr : (13 : UInt8) ∉ field.2 :=
    fun inValue => (wellFormed.valuesPlain field member 13 inValue).1 rfl
  refine ⟨fun inKey => (wellFormed.keysPlain field member 58 inKey).1 rfl, ?_⟩
  simp only [fieldLine, List.mem_append, keyNoCr, valueNoCr, false_or, or_false]
  decide

theorem fieldLine_nonempty (field : Bytes × Bytes) : fieldLine field ≠ [] := by
  simp [fieldLine, ascii]

theorem parseHeader_encode {r : SentRequest} (wellFormed : WellFormed r) :
    HttpContext.parseHeader {} (block (r.requestLine :: r.fields.map fieldLine)) =
      .ok (true, r.headRequest) := by
  obtain ⟨noCr, nonempty⟩ := requestLine_plain wellFormed
  have unbroken : ∀ l ∈ r.requestLine :: r.fields.map fieldLine, ¬ crlf <:+: l := by
    intro l member
    rcases List.mem_cons.mp member with rfl | member
    · exact unbroken_of_noCr noCr
    · obtain ⟨field, inFields, rfl⟩ := List.mem_map.mp member
      exact unbroken_of_noCr (fieldLine_plain wellFormed inFields).2
  rw [HttpContext.parseHeader_lines, crlfLines_block unbroken]
  simp only [if_neg nonempty, parseRequestLine_encode wellFormed]
  rw [parseFields_encode fun field member => (fieldLine_plain wellFormed member).1, foldl_setHeader wellFormed.keysDistinct]
  simp [headRequest, toHttpRequest]

/-- The state behind the header block. -/
def headed (r : SentRequest) : HttpContext where
  request := r.headRequest
  contentLength := 0
  completeHeaders := true
  completeRequest := false
  buffer := r.body.encode

theorem parseHead_encode {r : SentRequest} (wellFormed : WellFormed r) :
    HttpContext.parseHead (HttpContext.fresh.push r.encode) = .ok (.parsed r.headed) := by
  have plain : ∀ l ∈ r.requestLine :: r.fields.map fieldLine, (13 : UInt8) ∉ l ∧ l ≠ [] := by
    intro l member
    rcases List.mem_cons.mp member with rfl | member
    · exact requestLine_plain wellFormed
    · obtain ⟨field, inFields, rfl⟩ := List.mem_map.mp member
      exact ⟨(fieldLine_plain wellFormed inFields).2, fieldLine_nonempty field⟩
  obtain ⟨n, length, found⟩ := find_crlfcrlf_block plain r.body.encode
  have header : r.encode.take (n + 2) = block (r.requestLine :: r.fields.map fieldLine) := by
    rw [encode, List.append_assoc]
    exact List.take_left' length
  have rest : r.encode.drop (n + 4) = r.body.encode := by
    rw [encode]
    exact List.drop_left' (by rw [List.length_append, length, crlf_length])
  have buffer : (HttpContext.fresh.push r.encode).buffer = r.encode := rfl
  have started : (HttpContext.fresh.push r.encode).request = {} := rfl
  have found' : find crlfcrlf r.encode = some n := found
  unfold HttpContext.parseHead
  simp only [buffer, started, found', header, parseHeader_encode wellFormed, rest]
  rfl

/-! ## The body is read back -/

/-- What a sender writes for a list of chunks is a chunked encoding. -/
theorem encode_chunked {chunks : List (Bytes × Bytes)}
    (each : ∀ chunk ∈ chunks, Numeral 16 chunk.1 chunk.2.length ∧ chunk.2 ≠ [] ∧
      chunk.1.length + chunk.2.length + 4 < 2 ^ 64) :
    Chunked ((SentBody.chunked chunks).encode) ((SentBody.chunked chunks).data) := by
  induction chunks with
  | nil =>
      have zero : Numeral 16 (ascii "0") 0 := ⟨by decide +kernel, by decide, rfl⟩
      exact Chunked.last (zero.chunkLine (by decide))
  | cons chunk chunks ih =>
      obtain ⟨written, nonempty, fits⟩ := each chunk (by simp)
      have form := Chunked.more (written.chunkLine fits) nonempty
        (ih (fun k member => each k (List.mem_cons_of_mem _ member)))
      simpa [SentBody.encode, SentBody.data, SentBody.encodeChunk] using form

/-- The state a well-formed request leaves. -/
def completed (r : SentRequest) : HttpContext where
  request := r.toHttpRequest
  contentLength := match r.body with
    | .sized data => data.length
    | _ => 0
  completeHeaders := true
  completeRequest := true
  buffer := []

theorem hasHeader_headRequest (r : SentRequest) (key : Bytes) :
    r.headRequest.hasHeader key = (r.fields.lookup key).isSome := rfl

theorem getHeaderString_headRequest (r : SentRequest) (key : Bytes) :
    r.headRequest.getHeaderString key = (r.fields.lookup key).getD [] := rfl

theorem chunked_headRequest (r : SentRequest) :
    HttpContext.chunked r.headRequest = true ↔
      r.fields.lookup (ascii "Transfer-Encoding") = some (ascii "chunked") := by
  rw [HttpContext.chunked, hasHeader_headRequest, getHeaderString_headRequest]
  cases r.fields.lookup (ascii "Transfer-Encoding") with
  | none => simp
  | some value => simp

theorem readsBuffered_headRequest {r : SentRequest} (wellFormed : WellFormed r) :
    HttpContext.readsBuffered r.headRequest = false := by
  have notClose := wellFormed.keepsAlive
  rw [HttpContext.readsBuffered, hasHeader_headRequest, getHeaderString_headRequest]
  have version : (r.headRequest.version == Version.kHttp10) = false := rfl
  rw [version]
  cases found : r.fields.lookup (ascii "Connection") with
  | none => simp
  | some value =>
      rw [found] at notClose
      simpa using notClose

theorem drain_encode {r : SentRequest} (wellFormed : WellFormed r) :
    HttpContext.requestDecoder.drain (HttpContext.fresh.push r.encode) =
      .stopped (.complete r.completed) := by
  have passes : HttpContext.requestDecoder.pass (HttpContext.fresh.push r.encode) =
      HttpContext.passFraming r.headed := by
    show HttpContext.passHead _ = _
    rw [HttpContext.passHead, parseHead_encode wellFormed]
  have framed := wellFormed.framed
  have notBuffered : ¬ HttpContext.readsBuffered r.headed.request = true := by
    rw [show r.headed.request = r.headRequest from rfl, readsBuffered_headRequest wellFormed]
    simp
  have request : r.headed.request = r.headRequest := rfl
  unfold HttpContext.passFraming at passes
  unfold Framed at framed
  cases body : r.body with
  | absent =>
      simp only [body] at framed
      obtain ⟨noLength, notChunked⟩ := framed
      rw [if_neg (by rw [request, chunked_headRequest]; exact notChunked), if_neg notBuffered,
        if_neg (by rw [request, hasHeader_headRequest, noLength]; simp)] at passes
      rw [Decoder.drain_of_stop passes]
      simp [headed, completed, headRequest, toHttpRequest, body, SentBody.encode, SentBody.data]
  | sized data =>
      simp only [body] at framed
      obtain ⟨notChunked, fits, digits, length, written⟩ := framed
      have stoul_digits : stoul 10 digits = .ok data.length := by
        have read := written.stoul fits (Or.inl rfl)
        rwa [List.append_nil] at read
      rw [if_neg (by rw [request, chunked_headRequest]; exact notChunked), if_neg notBuffered,
        if_pos (by rw [request, hasHeader_headRequest, length]; rfl), request,
        getHeaderString_headRequest, length, Option.getD_some, stoul_digits] at passes
      have notChunked' : HttpContext.chunked r.headRequest ≠ true := by
        rw [ne_eq, chunked_headRequest]
        exact notChunked
      have enough : data.length ≤ r.headed.buffer.length := by simp [headed, body, SentBody.encode]
      rw [Decoder.drain_of_next passes, HttpContext.drain_sized rfl notChunked' enough]
      unfold HttpContext.finish
      split_ifs with positive
      · simp [headed, completed, headRequest, toHttpRequest, body, SentBody.encode,
          SentBody.data, HttpRequest.setBody]
      · have empty : data = [] := by simpa using positive
        simp [headed, completed, headRequest, toHttpRequest, body, SentBody.encode,
          SentBody.data, empty]
  | chunked chunks =>
      simp only [body] at framed
      obtain ⟨isChunked, each⟩ := framed
      rw [if_pos (by rw [request, chunked_headRequest]; exact isChunked)] at passes
      have buffer : r.headed.buffer = (SentBody.chunked chunks).encode ++ [] := by
        rw [headed, body, List.append_nil]
      rw [Decoder.drain_of_next passes, HttpContext.drain_chunked (encode_chunked each) rfl
        ((chunked_headRequest r).mpr isChunked) buffer]
      simp [HttpContext.bodyRead, headed, completed, headRequest, toHttpRequest, body,
        HttpRequest.addBody]

/-- **A well-formed request is a message of the parser**: its bytes, and no part of
them, complete it, and none is left over. -/
theorem encode_message {r : SentRequest} (wellFormed : WellFormed r) :
    HttpContext.requestDecoder.Message HttpContext.fresh r.encode (.complete r.completed) where
  drains := drain_encode wellFormed
  clean := by
    intro stop xs behind
    cases stop with
    | complete c =>
        have buffers := congrArg HttpContext.Stop.held behind
        exact (List.append_eq_nil_iff.mp buffers).2
    | _ => cases behind

end SentRequest

end CppFileServer.Http
