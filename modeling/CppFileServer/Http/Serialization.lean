/-
# Http.Serialization -- a response read back, and what a URL can put into it

A message is read back when no text of the response holds a CRLF and no key a
colon: the first empty line ends the header, every line in front of it is one that
was emitted, and the parser's own header loop finds the fields, of which the later
one of two with one name counts (`message_reads_back`).

The texts that come from a request are names behind the last slash of a URL, and no
URL that was parsed holds a CRLF.  What stands in front of the name is the last
component of `root_path_`, which is empty for a directory that ends with a slash.
-/
import CppFileServer.Http.Delimiting
import CppFileServer.Http.RequestLine

namespace CppFileServer.Http

set_option autoImplicit false

open CppFileServer.Cpp CppFileServer.Theory CppFileServer.Utils
open SentRequest (fieldLine parseFields_encode foldl_setHeader)

namespace HttpResponse

variable {r r' : HttpResponse}

/-- No text of the response holds a CRLF, and no key a colon. -/
structure Plain (r : HttpResponse) : Prop where
  statusMessage : ¬ crlf <:+: r.statusMessage
  keys : ∀ header ∈ r.headers, ¬ crlf <:+: header.1 ∧ (58 : UInt8) ∉ header.1
  values : ∀ header ∈ r.headers, ¬ crlf <:+: header.2

/-- `headers_` is a map: no key stands twice. -/
def Mapped (r : HttpResponse) : Prop := (r.headers.map Prod.fst).Nodup

def connectionValue (r : HttpResponse) : Bytes :=
  if r.closeConnection then ascii "close" else ascii "Keep-Alive"

def cacheValue : Bytes := ascii "no-cache, no-store, must-revalidate"

/-- The fields of the header, in the order of their lines. -/
def emitted (r : HttpResponse) : List (Bytes × Bytes) :=
  (ascii "Connection", r.connectionValue) ::
    (r.headers ++ [(ascii "Cache-Control", cacheValue)])

/-- What a reader of the header finds under a key, over what it had before. -/
def found (r : HttpResponse) (before : Bytes → Option Bytes) (key : Bytes) : Option Bytes :=
  if key = ascii "Cache-Control" then some cacheValue
  else (r.header key).or
    (if key = ascii "Connection" then some r.connectionValue else before key)

/-- The message comes apart as it was put together: at the first empty line, into a
status line and one line for each field, which the parser reads. -/
structure ReadsBack (r : HttpResponse) (headerEnd lineEnd : Nat) : Prop where
  ends : find crlfcrlf r.message = some headerEnd
  header : r.message.take (headerEnd + 4) = r.getHeaderString
  body : r.message.drop (headerEnd + 4) = r.body
  lines : crlfLines (r.message.take (headerEnd + 2)) = r.statusLine :: r.emitted.map fieldLine
  line : find crlf (r.message.take (headerEnd + 2)) = some lineEnd
  fields : ∀ started : HttpRequest, HttpContext.parseRequestHeaders started
    ((r.message.take (headerEnd + 2)).drop (lineEnd + 2)) =
      .ok (true, { started with headers := r.found started.headers })

/-! ## The header read back -/

theorem headerLines_eq (r : HttpResponse) : r.headerLines = r.emitted.map fieldLine := by
  have lines : r.headers.map headerLine = r.headers.map fieldLine := by
    apply List.map_congr_left
    intro header _
    rw [headerLine, fieldLine, List.append_assoc, List.append_assoc]
    rfl
  have connection : r.connectionLine = fieldLine (ascii "Connection", r.connectionValue) := by
    unfold connectionLine connectionValue
    split_ifs <;> decide
  have cache : ascii "Cache-Control: no-cache, no-store, must-revalidate" =
      fieldLine (ascii "Cache-Control", cacheValue) := by decide +kernel
  rw [headerLines, lines, connection, cache, emitted, List.map_cons, List.map_append]
  rfl

theorem Plain.lines (plain : r.Plain) :
    ∀ l ∈ r.statusLine :: r.headerLines, ¬ crlf <:+: l ∧ l ≠ [] :=
  lines_unbroken plain.statusMessage fun header among =>
    ⟨(plain.keys header among).1, plain.values header among⟩

theorem Plain.emitted_colonless (plain : r.Plain) :
    ∀ field ∈ r.emitted, (58 : UInt8) ∉ field.1 := by
  intro field among
  rw [emitted, List.mem_cons, List.mem_append, List.mem_singleton] at among
  rcases among with rfl | among | rfl
  · exact (by decide : (58 : UInt8) ∉ ascii "Connection")
  · exact (plain.keys field among).2
  · exact (by decide : (58 : UInt8) ∉ ascii "Cache-Control")

/-- Of two fields with one name the reader keeps the later one. -/
theorem foldl_emitted (mapped : r.Mapped) (started : HttpRequest) :
    r.emitted.foldl (fun request field => request.setHeader field.1 field.2) started =
      { started with headers := r.found started.headers } := by
  rw [emitted, List.foldl_cons, List.foldl_append, foldl_setHeader mapped]
  simp only [List.foldl_cons, List.foldl_nil, HttpRequest.setHeader]
  rfl

/-- **A plain response is read back.** -/
theorem readsBack_of_plain (mapped : r.Mapped) (plain : r.Plain) :
    ∃ headerEnd, r.ReadsBack headerEnd r.statusLine.length := by
  obtain ⟨n, length, ends⟩ := SentRequest.find_crlfcrlf_lines
    (List.forall_mem_cons.mp plain.lines).1.1 (List.forall_mem_cons.mp plain.lines).2 r.body
  have whole : r.getHeaderString = block (r.statusLine :: r.headerLines) ++ crlf :=
    r.getHeaderString_eq
  have headerLength : r.getHeaderString.length = n + 4 := by
    rw [whole, List.length_append, length, crlf_length]
  have unbroken : ∀ l ∈ r.statusLine :: r.headerLines, ¬ crlf <:+: l :=
    fun l among => (plain.lines l among).1
  have lines : r.message.take (n + 2) = block (r.statusLine :: r.headerLines) := by
    rw [message, whole, List.append_assoc]
    exact List.take_left' length
  refine ⟨n, ?_, ?_, ?_, ?_, ?_, ?_⟩
  · rw [message, whole]
    exact ends
  · exact List.take_left' headerLength
  · exact List.drop_left' headerLength
  · rw [lines, crlfLines_block unbroken, headerLines_eq]
  · rw [lines, block_cons]
    exact find_crlf_unbroken (unbroken _ List.mem_cons_self) _
  · intro started
    have rest : (block (r.statusLine :: r.headerLines)).drop (r.statusLine.length + 2) =
        block r.headerLines := by
      rw [block_cons]
      exact List.drop_left' (by simp)
    rw [lines, rest, HttpContext.parseRequestHeaders_lines,
      crlfLines_block fun l among => unbroken l (List.mem_cons_of_mem _ among), headerLines_eq,
      parseFields_encode plain.emitted_colonless, foldl_emitted mapped]

/-! ## The message determines the response -/

theorem statusCode_encode_injective {code code' : StatusCode} (same : code.encode = code'.encode) :
    code = code' := by
  cases code <;> cases code' <;> first | rfl | exact absurd same (by decide)

theorem fieldLine_inj {field field' : Bytes × Bytes} (colonless : (58 : UInt8) ∉ field.1)
    (colonless' : (58 : UInt8) ∉ field'.1) (same : fieldLine field = fieldLine field') :
    field = field' := by
  unfold fieldLine at same
  rw [List.append_assoc, List.append_assoc] at same
  obtain ⟨keys, values⟩ := Search.append_cons_inj_of_absent colonless colonless' same
  exact Prod.ext keys (List.append_cancel_left values)

theorem map_fieldLine_inj {fields fields' : List (Bytes × Bytes)}
    (colonless : ∀ field ∈ fields, (58 : UInt8) ∉ field.1)
    (colonless' : ∀ field ∈ fields', (58 : UInt8) ∉ field.1)
    (same : fields.map fieldLine = fields'.map fieldLine) : fields = fields' := by
  induction fields generalizing fields' with
  | nil => exact (List.map_eq_nil_iff.mp same.symm).symm
  | cons field fields ih =>
      cases fields' with
      | nil => cases same
      | cons field' fields' =>
          obtain ⟨here, later⟩ := List.cons.inj same
          have heads := fieldLine_inj (colonless field List.mem_cons_self)
            (colonless' field' List.mem_cons_self) here
          have tails := ih (fun f among => colonless f (List.mem_cons_of_mem _ among))
            (fun f among => colonless' f (List.mem_cons_of_mem _ among)) later
          rw [heads, tails]

theorem connectionValue_inj (same : r.connectionValue = r'.connectionValue) :
    r.closeConnection = r'.closeConnection := by
  have differ : ascii "close" ≠ ascii "Keep-Alive" := by decide
  unfold connectionValue at same
  cases first : r.closeConnection <;> cases second : r'.closeConnection <;>
    simp_all

theorem statusLine_inj (same : r.statusLine = r'.statusLine) :
    r.statusCode = r'.statusCode ∧ r.statusMessage = r'.statusMessage := by
  have noSpace (code : StatusCode) : (32 : UInt8) ∉ code.encode := by cases code <;> decide
  unfold statusLine at same
  rw [List.append_assoc, List.append_assoc, List.append_assoc, List.append_assoc] at same
  have behind := List.append_cancel_left same
  obtain ⟨codes, messages⟩ := Search.append_cons_inj_of_absent (noSpace _) (noSpace _) behind
  exact ⟨statusCode_encode_injective codes, messages⟩

/-- **Two plain responses with one message are one response.** -/
theorem message_injective (mapped : r.Mapped) (plain : r.Plain) (mapped' : r'.Mapped)
    (plain' : r'.Plain) (same : r.message = r'.message) : r = r' := by
  obtain ⟨n, reads⟩ := readsBack_of_plain mapped plain
  obtain ⟨n', reads'⟩ := readsBack_of_plain mapped' plain'
  have sameEnd : n = n' := by
    have ends := reads.ends
    rw [same, reads'.ends, Option.some.injEq] at ends
    exact ends.symm
  have bodies : r.body = r'.body := by
    rw [← reads.body, ← reads'.body, same, sameEnd]
  have lines : r.statusLine :: r.emitted.map fieldLine =
      r'.statusLine :: r'.emitted.map fieldLine := by
    rw [← reads.lines, ← reads'.lines, same, sameEnd]
  obtain ⟨statusLines, fieldLines⟩ := List.cons.inj lines
  obtain ⟨codes, messages⟩ := statusLine_inj statusLines
  have fields : r.emitted = r'.emitted :=
    map_fieldLine_inj plain.emitted_colonless plain'.emitted_colonless fieldLines
  obtain ⟨connections, rest⟩ := List.cons.inj fields
  have headers : r.headers = r'.headers := List.append_cancel_right rest
  have closes : r.closeConnection = r'.closeConnection :=
    connectionValue_inj (Prod.ext_iff.mp connections).2
  cases r
  cases r'
  simp_all

theorem addHeader_mapped (mapped : r.Mapped) (key value : Bytes) : (r.addHeader key value).Mapped := by
  unfold Mapped addHeader
  split_ifs with present
  · have names : (r.headers.map fun header => if header.1 = key then (key, value) else header).map
        Prod.fst = r.headers.map Prod.fst := by
      rw [List.map_map]
      apply List.map_congr_left
      intro header _
      rw [Function.comp_apply]
      split_ifs with isKey
      · exact isKey.symm
      · rfl
    rw [names]
    exact mapped
  · rw [List.map_cons, List.nodup_cons]
    refine ⟨?_, mapped⟩
    intro inside
    obtain ⟨header, among, isKey⟩ := List.mem_map.mp inside
    exact present (List.any_eq_true.mpr ⟨header, among, by simpa using isKey⟩)

end HttpResponse

namespace FileServer

variable {fs : FileSystem} {server : FileServer} {r : HttpResponse}

/-! ## What a URL can put into a response -/

theorem Built.mapped (built : Built r) : r.Mapped := by
  induction built with
  | construct closeConnection => exact List.nodup_nil
  | setStatus code plain built ih => exact ih
  | setBody body built ih => exact ih
  | setCloseConnection on built ih => exact ih
  | addHeader known plain built ih => exact HttpResponse.addHeader_mapped ih _ _

theorem Built.plain (built : Built r) : r.Plain := by
  induction built with
  | construct closeConnection =>
      refine ⟨?_, ?_, ?_⟩
      · exact SentRequest.unbroken_of_noCr List.not_mem_nil
      · intro header impossible
        cases impossible
      · intro header impossible
        cases impossible
  | setStatus code plain built ih => exact ⟨plain, ih.keys, ih.values⟩
  | setBody body built ih => exact ⟨ih.statusMessage, ih.keys, ih.values⟩
  | setCloseConnection on built ih => exact ⟨ih.statusMessage, ih.keys, ih.values⟩
  | @addHeader r key value known plain built ih =>
      have names : ∀ key ∈ fieldNames, (13 : UInt8) ∉ key ∧ (58 : UInt8) ∉ key := by decide
      obtain ⟨noCr, colonless⟩ := names key known
      refine ⟨ih.statusMessage, ?_, ?_⟩
      · intro header inside
        rcases HttpResponse.mem_addHeader inside with rfl | among
        · exact ⟨SentRequest.unbroken_of_noCr noCr, colonless⟩
        · exact ih.keys header among
      · intro header inside
        rcases HttpResponse.mem_addHeader inside with rfl | among
        · exact plain
        · exact ih.values header among

/-- The last component of `root_path_` holds no CRLF and does not end with half of one. -/
def RootWhole (server : FileServer) : Prop :=
  ¬ crlf <:+: afterLast 47 server.rootPath ∧ ¬ [13] <:+ afterLast 47 server.rootPath

theorem getFileName_filePath (server : FileServer) (request : HttpRequest) :
    PathUtils.getFileName (server.filePath request) =
      afterLast 47 server.rootPath ++ afterLast 47 request.url :=
  afterLast_append (afterLast_absent 47 request.url) server.rootPath

/-- The name in a response holds no CRLF when the URL holds none. -/
theorem getFileName_unbroken (whole : server.RootWhole) {request : HttpRequest}
    (plain : ¬ crlf <:+: request.url) :
    ¬ crlf <:+: PathUtils.getFileName (server.filePath request) := by
  rw [getFileName_filePath]
  apply unbroken_seam whole.1
  · exact fun inside => plain (inside.trans (afterLast_suffix 47 request.url).isInfix)
  · exact fun ends => absurd ends whole.2

end FileServer

/-- **Serialisation is injective and no URL splits a response.**  A plain response is
read back from its message and is the only one with it; and the responses to requests
that a connection has had parsed are plain. -/
theorem message_reads_back :
    (∀ r : HttpResponse, r.Mapped → r.Plain →
      (∃ headerEnd, r.ReadsBack headerEnd r.statusLine.length) ∧
        ∀ r' : HttpResponse, r'.Mapped → r'.Plain → r'.message = r.message → r' = r) ∧
    ∀ (indeterminate : Bool) (calls : List ContextCall) (reader : Reader),
      run Reader.call (Reader.start indeterminate) calls = .ok reader →
      ∀ (server : FileServer) (fs : FileSystem) (closeConnection : Bool) (r : HttpResponse)
        (change : Option Change), server.RootWhole →
      server.analyzeRequest fs reader.context.request (.construct closeConnection) =
        .ok (r, change) →
      r.Mapped ∧ r.Plain := by
  refine ⟨?_, ?_⟩
  · intro r mapped plain
    refine ⟨HttpResponse.readsBack_of_plain mapped plain, ?_⟩
    intro r' mapped' plain' same
    exact HttpResponse.message_injective mapped' plain' mapped plain same
  · intro indeterminate calls reader ran server fs closeConnection r change whole returned
    have built := FileServer.analyzeRequest_built
      (FileServer.getFileName_unbroken whole (Reader.url_unbroken ran)) returned
    exact ⟨built.mapped, built.plain⟩

/-- A connection that has read the request for a file. -/
def fileReader (url : Bytes) : Result Reader :=
  run Reader.call (Reader.start false)
    [.parseRequest (block [joinLine (ascii "GET") url (ascii "HTTP/1.1")] ++ crlf)]

theorem message_reads_back_download :
    ∃ reader r change, fileReader (ascii "/a.txt") = .ok reader ∧
      ({} : FileServer).analyzeRequest
        (.oneFile (ascii "../files/a.txt") ⟨ascii "hello", by decide⟩)
        reader.context.request (.construct false) = .ok (r, change) ∧
      r.body = ascii "hello" ∧ ∃ headerEnd, r.ReadsBack headerEnd r.statusLine.length := by
  have answered : (fileReader (ascii "/a.txt")).toOption.map (fun reader =>
      (({} : FileServer).analyzeRequest
        (.oneFile (ascii "../files/a.txt") ⟨ascii "hello", by decide⟩)
        reader.context.request (.construct false)).toOption.map fun p => p.1.body) =
      some (some (ascii "hello")) := by decide +kernel
  obtain ⟨reader, ran, answered⟩ := eq_ok_of_map answered
  obtain ⟨⟨r, change⟩, returned, body⟩ := eq_ok_of_map answered
  have whole : ({} : FileServer).RootWhole := ⟨by decide, by decide⟩
  obtain ⟨mapped, plain⟩ :=
    message_reads_back.2 false _ reader ran {} _ false r change whole returned
  exact ⟨reader, r, change, ran, returned, body, (message_reads_back.1 r mapped plain).1⟩

/-- A root directory `x\r`, and a URL whose name begins with `\n`: the two halves meet. -/
theorem message_reads_back_fails :
    ∃ reader r change, fileReader (ascii "/\nA:b") = .ok reader ∧
      (FileServer.mk (ascii "x\r")).analyzeRequest
        (.oneFile (ascii "x\r\nA:b") ⟨ascii "hello", by decide⟩)
        reader.context.request (.construct false) = .ok (r, change) ∧
      crlf ++ ascii "A:b" ++ crlf <:+: r.getHeaderString ∧ ¬ r.Plain := by
  have answered : (fileReader (ascii "/\nA:b")).toOption.map (fun reader =>
      ((FileServer.mk (ascii "x\r")).analyzeRequest
        (.oneFile (ascii "x\r\nA:b") ⟨ascii "hello", by decide⟩)
        reader.context.request (.construct false)).toOption.map fun p =>
          p.1.header (ascii "Content-Disposition")) =
      some (some (some (ascii "attachment; filename=x\r\nA:b"))) := by decide +kernel
  obtain ⟨reader, ran, answered⟩ := eq_ok_of_map answered
  obtain ⟨⟨r, change⟩, returned, disposition⟩ := eq_ok_of_map answered
  refine ⟨reader, r, change, ran, returned, ?_, ?_⟩
  · have cut : ascii "Content-Disposition" ++ ascii ": " ++
        ascii "attachment; filename=x\r\nA:b" ++ crlf =
        ascii "Content-Disposition: attachment; filename=x" ++ (crlf ++ ascii "A:b" ++ crlf) := by
      decide +kernel
    have line := HttpResponse.headerLine_of_header disposition
    rw [cut] at line
    exact List.infix_append_right.trans line
  · intro plain
    obtain ⟨before, after, split, -⟩ := List.lookup_eq_some_iff.mp disposition
    exact plain.values (ascii "Content-Disposition", ascii "attachment; filename=x\r\nA:b")
      (by rw [split]; simp) (by decide +kernel)

end CppFileServer.Http
