/-
# Http.Delimiting -- which kept-open responses a client can delimit

A client that keeps its connection reads a response up to the first empty line and
then as many bytes as `Content-Length` says.  The first empty line of a message is
the end of its header as long as no line of the header holds a CRLF, which is so
for every path without one.  The number is right for the list and for whole files;
the other handlers write one byte less than they announce, or announce nothing.
-/
import CppFileServer.Http.Encoding
import CppFileServer.Http.FileReplies

namespace CppFileServer.Http

set_option autoImplicit false

open CppFileServer.Cpp CppFileServer.Theory CppFileServer.Utils
open SentRequest (find_crlfcrlf_lines unbroken_of_noCr)

theorem unbroken_append {front line : Bytes} (noCr : (13 : UInt8) ∉ front)
    (unbroken : ¬ crlf <:+: line) : ¬ crlf <:+: front ++ line := by
  have absent : Search.find [13, 10] line = none := Search.find_eq_none_iff.mpr unbroken
  apply Search.find_eq_none_iff.mp
  show Search.find [13, 10] (front ++ line) = none
  rw [Search.find_skip noCr, absent]
  rfl

namespace HttpResponse

variable {r : HttpResponse}

/-! ## The header as lines -/

def statusLine (r : HttpResponse) : Bytes :=
  ascii "HTTP/1.1 " ++ r.statusCode.encode ++ ascii " " ++ r.statusMessage

def connectionLine (r : HttpResponse) : Bytes :=
  if r.closeConnection then ascii "Connection: close" else ascii "Connection: Keep-Alive"

def headerLine (header : Bytes × Bytes) : Bytes := header.1 ++ ascii ": " ++ header.2

def headerLines (r : HttpResponse) : List Bytes :=
  r.connectionLine :: (r.headers.map headerLine ++
    [ascii "Cache-Control: no-cache, no-store, must-revalidate"])

theorem block_append (lines lines' : List Bytes) :
    block (lines ++ lines') = block lines ++ block lines' := by
  simp [block]

theorem getHeaderString_eq (r : HttpResponse) :
    r.getHeaderString = block (r.statusLine :: r.headerLines) ++ crlf := by
  have connection : (if r.closeConnection then ascii "Connection: close\r\n"
      else ascii "Connection: Keep-Alive\r\n") = r.connectionLine ++ crlf := by
    unfold connectionLine
    split_ifs <;> decide +kernel
  have cache : ascii "Cache-Control: no-cache, no-store, must-revalidate\r\n" =
      block [ascii "Cache-Control: no-cache, no-store, must-revalidate"] := by decide +kernel
  have fields : (r.headers.map fun header => header.1 ++ ascii ": " ++ header.2 ++ crlf).flatten =
      block (r.headers.map headerLine) := by
    rw [block, List.map_map]
    rfl
  rw [getHeaderString, connection, cache, fields, block_cons r.statusLine, headerLines,
    block_cons r.connectionLine, block_append, statusLine]
  simp only [List.append_assoc]

/-- A field that is there after another was set. -/
theorem mem_addHeader {key value : Bytes} {header : Bytes × Bytes}
    (inside : header ∈ (r.addHeader key value).headers) :
    header = (key, value) ∨ header ∈ r.headers := by
  unfold addHeader at inside
  simp only at inside
  split_ifs at inside
  · obtain ⟨old, among, rfl⟩ := List.mem_map.mp inside
    split_ifs
    · exact Or.inl rfl
    · exact Or.inr among
  · exact List.mem_cons.mp inside

/-- No line of the header is broken by a CRLF. -/
structure Unbroken (r : HttpResponse) : Prop where
  statusMessage : ¬ crlf <:+: r.statusMessage
  headers : ∀ header ∈ r.headers, (13 : UInt8) ∉ header.1 ∧ ¬ crlf <:+: header.2

theorem encode_noCr (code : StatusCode) : (13 : UInt8) ∉ code.encode := by
  cases code <;> decide

/-- Pieces that hold no CRLF make no line that does. -/
theorem lines_unbroken (statusMessage : ¬ crlf <:+: r.statusMessage)
    (headers : ∀ header ∈ r.headers, ¬ crlf <:+: header.1 ∧ ¬ crlf <:+: header.2) :
    ∀ l ∈ r.statusLine :: r.headerLines, ¬ crlf <:+: l ∧ l ≠ [] := by
  intro l inside
  rw [headerLines, List.mem_cons, List.mem_cons, List.mem_append, List.mem_singleton] at inside
  rcases inside with rfl | rfl | field | rfl
  · have start : ascii "HTTP/1.1 " ≠ [] := by decide
    refine ⟨?_, by simp [statusLine, start]⟩
    unfold statusLine
    apply unbroken_append _ statusMessage
    have noCr := encode_noCr r.statusCode
    simp [noCr, show (13 : UInt8) ∉ ascii "HTTP/1.1 " from by decide,
      show (13 : UInt8) ∉ ascii " " from by decide]
  · unfold connectionLine
    split_ifs
    · exact ⟨unbroken_of_noCr (by decide), by decide⟩
    · exact ⟨unbroken_of_noCr (by decide), by decide⟩
  · obtain ⟨header, among, rfl⟩ := List.mem_map.mp field
    obtain ⟨key, value⟩ := headers header among
    have colon : ascii ": " ≠ [] := by decide
    refine ⟨?_, by simp [headerLine, colon]⟩
    rw [headerLine, List.append_assoc]
    apply unbroken_seam key (unbroken_append (by decide) value)
    intro _ starts
    exact absurd (List.cons_prefix_cons.mp starts).1 (by decide)
  · exact ⟨unbroken_of_noCr (by decide), by decide⟩

/-- **The first empty line of a message ends its header.** -/
theorem find_header_end (lines : ∀ l ∈ r.statusLine :: r.headerLines, ¬ crlf <:+: l ∧ l ≠ []) :
    find crlfcrlf r.message = some (r.getHeaderString.length - 4) := by
  obtain ⟨n, length, found⟩ := find_crlfcrlf_lines (List.forall_mem_cons.mp lines).1.1
    (List.forall_mem_cons.mp lines).2 r.body
  rw [message, getHeaderString_eq, found, List.length_append, length, crlf_length]
  rfl

theorem Unbroken.find_header_end (unbroken : r.Unbroken) :
    find crlfcrlf r.message = some (r.getHeaderString.length - 4) := by
  apply HttpResponse.find_header_end
  apply lines_unbroken unbroken.statusMessage
  intro header among
  obtain ⟨noCr, plain⟩ := unbroken.headers header among
  exact ⟨unbroken_of_noCr noCr, plain⟩

/-- A field of the response is a line of its header. -/
theorem headerLine_of_header {key value : Bytes} (found : r.header key = some value) :
    key ++ ascii ": " ++ value ++ crlf <:+: r.getHeaderString := by
  obtain ⟨before, after, split, -⟩ := List.lookup_eq_some_iff.mp found
  have line : block [headerLine (key, value)] <:+: block (r.headers.map headerLine) := by
    refine ⟨block (before.map headerLine), block (after.map headerLine), ?_⟩
    rw [split, List.map_append, List.map_cons, ← block_append, ← block_append, List.append_assoc]
    rfl
  have whole : block (r.headers.map headerLine) <:+: r.getHeaderString := by
    rw [getHeaderString_eq, headerLines]
    refine ⟨block [r.statusLine, r.connectionLine],
      block [ascii "Cache-Control: no-cache, no-store, must-revalidate"] ++ crlf, ?_⟩
    rw [← List.append_assoc, ← block_append, ← block_append]
    rfl
  have same : block [headerLine (key, value)] = key ++ ascii ": " ++ value ++ crlf := by
    simp [block, headerLine]
  exact same ▸ line.trans whole

/-- The message carries the line of a `Content-Length` field, and its value is the number of
bytes behind the header. -/
def Delimited (r : HttpResponse) : Prop :=
  ∃ value, r.header (ascii "Content-Length") = some value ∧
    ascii "Content-Length" ++ ascii ": " ++ value ++ crlf <:+: r.getHeaderString ∧
    value = toDecimal (r.message.length - r.getHeaderString.length)

theorem delimited_iff : r.Delimited ↔
    r.header (ascii "Content-Length") = some (toDecimal r.body.length) := by
  have length : r.message.length - r.getHeaderString.length = r.body.length := by
    rw [message, List.length_append, Nat.add_sub_cancel_left]
  unfold Delimited
  rw [length]
  constructor
  · rintro ⟨value, found, -, rfl⟩
    exact found
  · intro found
    exact ⟨_, found, headerLine_of_header found, rfl⟩

/-- The same of what a client takes for the header, which goes on to the first empty line. -/
def ReadByLength (r : HttpResponse) : Prop :=
  ∃ headerEnd value, find crlfcrlf r.message = some headerEnd ∧
    r.header (ascii "Content-Length") = some value ∧
    ascii "Content-Length" ++ ascii ": " ++ value ++ crlf <:+: r.message.take (headerEnd + 4) ∧
    value = toDecimal (r.message.length - (headerEnd + 4))

theorem readByLength_iff (ends : find crlfcrlf r.message = some (r.getHeaderString.length - 4)) :
    r.ReadByLength ↔ r.Delimited := by
  have long : 4 ≤ r.getHeaderString.length := by
    rw [getHeaderString_eq, List.length_append, block_cons]
    simp only [List.length_append, crlf_length]
    omega
  have whole : r.getHeaderString.length - 4 + 4 = r.getHeaderString.length := by omega
  have header : r.message.take (r.getHeaderString.length - 4 + 4) = r.getHeaderString := by
    rw [whole, message, List.take_left]
  constructor
  · rintro ⟨headerEnd, value, found, present, line, length⟩
    rw [ends, Option.some.injEq] at found
    subst found
    rw [header] at line
    rw [whole] at length
    exact ⟨value, present, line, length⟩
  · rintro ⟨value, present, line, length⟩
    refine ⟨_, value, ends, present, ?_, ?_⟩
    · rw [header]
      exact line
    · rw [whole]
      exact length

end HttpResponse

namespace FileServer

variable {fs : FileSystem} {response r : HttpResponse} {path : Bytes}

/-! ## No handler breaks a line -/

theorem getMimeType_noCr (path : Bytes) : (13 : UInt8) ∉ PathUtils.getMimeType path := by
  have all : ∀ entry ∈ PathUtils.mimeTypes, (13 : UInt8) ∉ entry.2 := by decide
  unfold PathUtils.getMimeType
  cases found : PathUtils.mimeTypes.lookup (PathUtils.getExtension path) with
  | none => decide
  | some type =>
      obtain ⟨before, after, split, -⟩ := List.lookup_eq_some_iff.mp found
      exact all (PathUtils.getExtension path, type) (by rw [split]; simp)

theorem toDecimal_noCr (n : Nat) : (13 : UInt8) ∉ toDecimal n :=
  fun inside => isDigit_ne_cr (toDecimal_isDigit inside) rfl

theorem intToDecimal_noCr (n : Int) : (13 : UInt8) ∉ intToDecimal n := by
  unfold intToDecimal
  split_ifs
  · simp [toDecimal_noCr]
  · exact toDecimal_noCr _

/-- The fields that handlers set. -/
def fieldNames : List Bytes :=
  [ascii "Content-Type", ascii "Content-Length", ascii "Content-Disposition",
    ascii "Cache-Control", ascii "Content-Range"]

/-- A response that handlers may have worked on: known fields, and no CRLF in any text. -/
inductive Built : HttpResponse → Prop
  | construct (closeConnection : Bool) : Built (.construct closeConnection)
  | setStatus {r : HttpResponse} (code : StatusCode) {text : Bytes} (plain : ¬ crlf <:+: text)
      (built : Built r) : Built ((r.setStatusCode code).setStatusMessage text)
  | setBody {r : HttpResponse} (body : Bytes) (built : Built r) : Built (r.setBody body)
  | setCloseConnection {r : HttpResponse} (on : Bool) (built : Built r) :
      Built (r.setCloseConnection on)
  | addHeader {r : HttpResponse} {key value : Bytes} (known : key ∈ fieldNames)
      (plain : ¬ crlf <:+: value) (built : Built r) : Built (r.addHeader key value)

theorem Built.unbroken (built : Built r) : r.Unbroken := by
  induction built with
  | construct closeConnection =>
      exact ⟨unbroken_of_noCr List.not_mem_nil, fun _ impossible => by cases impossible⟩
  | setStatus code plain built ih => exact ⟨plain, ih.headers⟩
  | setBody body built ih => exact ⟨ih.statusMessage, ih.headers⟩
  | setCloseConnection on built ih => exact ⟨ih.statusMessage, ih.headers⟩
  | @addHeader r key value known plain built ih =>
      have noCr : ∀ key ∈ fieldNames, (13 : UInt8) ∉ key := by decide
      refine ⟨ih.statusMessage, ?_⟩
      intro header inside
      rcases HttpResponse.mem_addHeader inside with rfl | among
      · exact ⟨noCr key known, plain⟩
      · exact ih.headers header among

theorem setContentLength_built (built : Built r) (length : Nat) :
    Built (r.setContentLength length) :=
  built.addHeader (by decide) (unbroken_of_noCr (toDecimal_noCr length))

theorem handleList_built (built : Built response)
    (returned : handleList fs response = .ok r) : Built r := by
  obtain ⟨html, -, returned⟩ := FileResult.bind_eq_ok returned
  cases returned
  have plain {text : Bytes} (noCr : (13 : UInt8) ∉ text) := unbroken_of_noCr noCr
  have status := built.setStatus .k200OK (plain (show (13 : UInt8) ∉ ascii "OK" from by decide))
  have type := status.addHeader (show ascii "Content-Type" ∈ fieldNames from by decide)
    (plain (show (13 : UInt8) ∉ ascii "text/html" from by decide))
  have length := setContentLength_built type html.length
  apply Built.setBody
  exact length.addHeader (by decide) (plain (by decide))

theorem buildDownloadResponse_built (built : Built response) {isFile : Bool}
    (plain : ¬ crlf <:+: PathUtils.getFileName path)
    (returned : buildDownloadResponse fs response path isFile = .ok r) : Built r := by
  obtain ⟨body, -, returned⟩ := FileResult.bind_eq_ok returned
  obtain ⟨size, -, returned⟩ := FileResult.bind_eq_ok returned
  cases returned
  have disposition : ¬ crlf <:+: (if isFile then
      ascii "attachment; filename=" ++ PathUtils.getFileName path else ascii "inline") := by
    split_ifs
    · exact unbroken_append (by decide) plain
    · exact unbroken_of_noCr (by decide)
  have status := built.setStatus .k200OK
    (unbroken_of_noCr (show (13 : UInt8) ∉ ascii "OK" from by decide))
  have type := status.addHeader (show ascii "Content-Type" ∈ fieldNames from by decide)
    (unbroken_of_noCr (getMimeType_noCr path))
  have length := setContentLength_built (type.setBody body) size
  apply Built.addHeader (by decide) (unbroken_of_noCr (by decide))
  exact length.addHeader (by decide) disposition

theorem buildRangeDownloadResponse_built (built : Built response) {first last : Int}
    (returned : buildRangeDownloadResponse fs response path first last = .ok r) : Built r := by
  obtain ⟨difference, -, returned⟩ := FileResult.bind_eq_ok returned
  obtain ⟨length, -, returned⟩ := FileResult.bind_eq_ok returned
  obtain ⟨body, -, returned⟩ := FileResult.bind_eq_ok returned
  obtain ⟨size, -, returned⟩ := FileResult.bind_eq_ok returned
  cases returned
  have status := built.setStatus .k206PartialContent
    (unbroken_of_noCr (show (13 : UInt8) ∉ ascii "Partial Content" from by decide))
  have type := status.addHeader (show ascii "Content-Type" ∈ fieldNames from by decide)
    (unbroken_of_noCr (getMimeType_noCr path))
  have length := setContentLength_built type (FileSystem.sizeOfInt length)
  have cache := (length.setBody body).addHeader
    (show ascii "Cache-Control" ∈ fieldNames from by decide)
    (unbroken_of_noCr (show (13 : UInt8) ∉ ascii "no-cache" from by decide))
  apply cache.addHeader (by decide)
  apply unbroken_of_noCr
  simp only [List.mem_append, intToDecimal_noCr, toDecimal_noCr, or_false]
  decide

variable {server : FileServer} {request : HttpRequest} {closeConnection : Bool}

theorem handleDownload_built (built : Built response)
    (plain : ¬ crlf <:+: PathUtils.getFileName (server.filePath request))
    (returned : server.handleDownload fs request response = .ok r) : Built r := by
  obtain ⟨found, -, returned⟩ := FileResult.bind_eq_ok returned
  split at returned
  · obtain ⟨⟨first, last⟩, -, returned⟩ := FileResult.bind_eq_ok returned
    exact buildRangeDownloadResponse_built built returned
  · exact buildDownloadResponse_built built plain returned

theorem handleUpload_built {change : Option Change} (built : Built response)
    (returned : server.handleUpload fs request response = .ok (r, change)) :
    Built r ∧ r.headers = response.headers := by
  obtain ⟨found, -, returned⟩ := FileResult.bind_eq_ok returned
  cases found with
  | true =>
      cases returned
      exact ⟨built.setStatus .k409Conflict (unbroken_of_noCr (by decide)), rfl⟩
  | false =>
      obtain ⟨wrote, -, returned⟩ := FileResult.bind_eq_ok returned
      cases returned
      exact ⟨built.setStatus .k201Created (unbroken_of_noCr (by decide)), rfl⟩

theorem handleDelete_built {change : Option Change} (built : Built response)
    (returned : server.handleDelete fs request response = .ok (r, change)) : Built r := by
  obtain ⟨found, -, returned⟩ := FileResult.bind_eq_ok returned
  cases found with
  | true =>
      obtain ⟨removed, -, returned⟩ := FileResult.bind_eq_ok returned
      cases returned
      exact built
  | false =>
      cases returned
      exact built

/-- **Every response is built of known fields and unbroken texts.** -/
theorem analyzeRequest_built {change : Option Change}
    (plain : ¬ crlf <:+: PathUtils.getFileName (server.filePath request))
    (returned : server.analyzeRequest fs request (.construct closeConnection) = .ok (r, change)) :
    Built r := by
  have initial := Built.construct closeConnection
  unfold analyzeRequest at returned
  split_ifs at returned
  · exact handleList_built initial (unchanged_eq_ok.mp returned).1
  · exact buildDownloadResponse_built initial (unbroken_of_noCr (by decide))
      (unchanged_eq_ok.mp returned).1
  · exact handleDownload_built initial plain (unchanged_eq_ok.mp returned).1
  · exact (handleUpload_built initial returned).1
  · exact handleDelete_built initial returned
  · cases returned
    have noCr : (13 : UInt8) ∉ ascii "Not Found" := by decide
    exact (initial.setStatus .k404NotFound (unbroken_of_noCr noCr)).setCloseConnection true

/-! ## Which handlers announce the length -/

theorem delimited_of_shows {code : StatusCode} {body : Bytes}
    (shows : r.Shows code closeConnection body (some (toDecimal body.length))) : r.Delimited := by
  rw [HttpResponse.delimited_iff, shows.body]
  exact shows.length

/-- Without fields there is no length. -/
theorem not_delimited_of_headers (bare : r.headers = []) : ¬ r.Delimited := by
  rw [HttpResponse.delimited_iff, HttpResponse.header, bare]
  simp

theorem handleList_delimited (returned : handleList fs response = .ok r) : r.Delimited := by
  obtain ⟨html, built, -⟩ := FileResult.bind_eq_ok returned
  obtain ⟨r', returned', shows⟩ := handleList_of_html response built
  rw [returned, Except.ok.injEq] at returned'
  subst returned'
  exact delimited_of_shows shows

theorem buildDownloadResponse_delimited {isFile : Bool}
    (returned : buildDownloadResponse fs response path isFile = .ok r) : r.Delimited := by
  obtain ⟨content, holds⟩ := holds_of_buildDownloadResponse returned
  obtain ⟨r', returned', shows⟩ := buildDownloadResponse_of_holds response holds isFile
  rw [returned, Except.ok.injEq] at returned'
  subst returned'
  exact delimited_of_shows shows

/-- A range announces one byte more than it has. -/
theorem handleDownload_delimited_iff (returned : server.handleDownload fs request response = .ok r) :
    r.Delimited ↔ request.headers (ascii "Range") = none := by
  have downloadable := downloadable_of_handleDownload returned
  unfold Downloadable at downloadable
  cases header : request.headers (ascii "Range") with
  | none =>
      obtain ⟨found, -, built⟩ := FileResult.bind_eq_ok returned
      simp only [header] at built
      simp only [buildDownloadResponse_delimited built]
  | some range =>
      rw [header] at downloadable
      obtain ⟨⟨bytes, offers⟩, first, last, parsed, spans⟩ := downloadable
      obtain ⟨r', body, returned', -, short, shows, -⟩ :=
        buildRangeDownloadResponse_of_offers response offers spans
      rw [handleDownload, FileSystem.pathExists_of_offers offers, FileResult.ok_bind] at returned
      simp only [header, parsed, liftFault, FileResult.ok_bind, returned', Except.ok.injEq]
        at returned
      subst returned
      have ordered := spans.1
      rw [HttpResponse.delimited_iff, shows.length, shows.body, short, Option.some.injEq,
        toDecimal_injective.eq_iff]
      simp only [reduceCtorEq, iff_false]
      omega

/-- The routes whose responses announce their length. -/
def AnnouncesLength (request : HttpRequest) : Prop :=
  request.url = ascii "/" ∨ request.url = ascii "/favicon.ico" ∨
    request.method = .kGet ∧ request.headers (ascii "Range") = none

/-- **Which kept-open responses are delimited**: those to the list, to the icon and to a
download without a `Range` field.  Where the path holds no CRLF, the header of each response
ends at the first empty line, and these are the ones that a client delimits there. -/
theorem kept_open_delimited_iff {change : Option Change}
    (returned : server.analyzeRequest fs request (.construct closeConnection) = .ok (r, change))
    (keptOpen : r.closeConnection = false) :
    (r.Delimited ↔ AnnouncesLength request) ∧
      (¬ crlf <:+: server.filePath request →
        find crlfcrlf r.message = some (r.getHeaderString.length - 4) ∧
          (r.ReadByLength ↔ AnnouncesLength request)) := by
  have headerEnd (plain : ¬ crlf <:+: server.filePath request) :
      find crlfcrlf r.message = some (r.getHeaderString.length - 4) := by
    apply HttpResponse.Unbroken.find_header_end
    apply Built.unbroken
    apply analyzeRequest_built _ returned
    exact fun inside => plain (inside.trans (afterLast_suffix 47 _).isInfix)
  suffices delimited : r.Delimited ↔ AnnouncesLength request by
    refine ⟨delimited, fun plain => ⟨headerEnd plain, ?_⟩⟩
    rw [HttpResponse.readByLength_iff (headerEnd plain), delimited]
  unfold AnnouncesLength
  unfold analyzeRequest at returned
  by_cases root : request.url = ascii "/"
  · rw [if_pos root] at returned
    have delimited := handleList_delimited (unchanged_eq_ok.mp returned).1
    simp only [delimited, root, true_or]
  rw [if_neg root] at returned
  by_cases icon : request.url = ascii "/favicon.ico"
  · rw [if_pos icon] at returned
    have delimited := buildDownloadResponse_delimited (unchanged_eq_ok.mp returned).1
    simp only [delimited, icon, true_or, or_true]
  rw [if_neg icon] at returned
  simp only [root, icon, false_or]
  cases method : request.method with
  | kGet =>
      rw [if_pos method] at returned
      rw [handleDownload_delimited_iff (unchanged_eq_ok.mp returned).1]
      simp
  | kPost =>
      simp only [method, reduceCtorEq, if_false, if_true] at returned
      have headers := (handleUpload_built (.construct closeConnection) returned).2
      simp [not_delimited_of_headers headers]
  | kDelete =>
      simp only [method, reduceCtorEq, if_false, if_true] at returned
      have headers := (handleDelete_statusCode returned).2
      simp [not_delimited_of_headers headers]
  | kHead =>
      simp only [method, reduceCtorEq, if_false] at returned
      cases returned
      cases keptOpen
  | kPut =>
      simp only [method, reduceCtorEq, if_false] at returned
      cases returned
      cases keptOpen

/-- An upload of a new file. -/
def uploadRequest : HttpRequest :=
  { method := .kPost, version := .kHttp11, url := ascii "/new.txt", body := ascii "data" }

/-- Its response has no `Content-Length` and keeps the connection open. -/
theorem kept_open_delimited_iff_fails :
    ∃ r change, ({} : FileServer).analyzeRequest
      (.oneFile (ascii "../files/a.txt") ⟨ascii "hello", by decide⟩)
      uploadRequest (.construct false) = .ok (r, change) ∧
      r.closeConnection = false ∧ ¬ r.Delimited := by
  refine ⟨_, _, rfl, rfl, ?_⟩
  rw [HttpResponse.delimited_iff]
  decide

/-- A download of a whole file. -/
def downloadRequest : HttpRequest :=
  { method := .kGet, version := .kHttp11, url := ascii "/download/a.txt" }

theorem kept_open_delimited_iff_download :
    ∃ r change, ({} : FileServer).analyzeRequest
      (.oneFile (ascii "../files/a.txt") ⟨ascii "hello", by decide⟩)
      downloadRequest (.construct false) = .ok (r, change) ∧ r.body = ascii "hello" ∧ r.Delimited := by
  have announces : AnnouncesLength downloadRequest := Or.inr (Or.inr ⟨rfl, rfl⟩)
  have answered : ∃ answer, ({} : FileServer).analyzeRequest
      (.oneFile (ascii "../files/a.txt") ⟨ascii "hello", by decide⟩) downloadRequest
      (.construct false) = .ok answer ∧ answer.1.closeConnection = false ∧
      answer.1.body = ascii "hello" := ⟨_, rfl, rfl, by decide⟩
  obtain ⟨⟨r, change⟩, returned, keptOpen, body⟩ := answered
  exact ⟨r, change, returned, body, (kept_open_delimited_iff returned keptOpen).1.mpr announces⟩

end FileServer

end CppFileServer.Http
