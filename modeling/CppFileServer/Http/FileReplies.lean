/-
# Http.FileReplies -- which requests are answered

Each handler returns exactly in some states of the file system.  `Answerable`
collects these states for the routes; outside of it an exception escapes, or the
response keeps the status `kUnknown`.
-/
import CppFileServer.Http.FileServer

namespace CppFileServer.Http

set_option autoImplicit false

open CppFileServer.Cpp CppFileServer.Utils

/-- What a client acts on. -/
structure HttpResponse.Shows (r : HttpResponse) (statusCode : StatusCode) (closeConnection : Bool)
    (body : Bytes) (length : Option Bytes) : Prop where
  statusCode : r.statusCode = statusCode
  closeConnection : r.closeConnection = closeConnection
  body : r.body = body
  length : r.header (ascii "Content-Length") = length

namespace FileServer

variable {fs : FileSystem} {response r : HttpResponse} {path : Bytes} {content : FileContent}

/-! ## The list -/

/-- The page that has the list in place of the mark. -/
theorem filled_length {page : Bytes} {i : Nat} (found : find listMark page = some i)
    (list : Bytes) :
    (page.take i ++ list ++ page.drop (i + listMark.length)).length + listMark.length =
      page.length + list.length := by
  have inside := Theory.Search.find_le found
  simp only [List.length_append, List.length_take, List.length_drop]
  omega

/-- The mark is in the page, and with the list in its place the page is not too long. -/
def Fillable (page list : Bytes) : Prop :=
  listMark <:+: page ∧ page.length + list.length ≤ maxSize + listMark.length

theorem fillPage_returns_iff {page list : Bytes} :
    (∃ html, fillPage page list = .ok html) ↔ Fillable page list := by
  unfold fillPage Fillable
  cases found : find listMark page with
  | none => simp [Theory.Search.find_eq_none_iff.mp found]
  | some i =>
      have marked : listMark <:+: page := by
        by_contra unmarked
        have absent : find listMark page = none := Theory.Search.find_eq_none_iff.mpr unmarked
        rw [absent] at found
        cases found
      have length := filled_length found list
      simp only [marked, true_and]
      split_ifs with fits
      · simp only [Except.ok.injEq, exists_eq', true_iff]
        omega
      · simp only [exists_false, false_iff]
        omega

/-- A list that is too long by itself is too long in the page. -/
theorem Fillable.list {page list : Bytes} (fillable : Fillable page list) :
    list.length ≤ maxSize := by
  obtain ⟨marked, fits⟩ := fillable
  have length := marked.length_le
  omega

/-- What the list needs: the directory can be listed, and a stream on the page gives a text that
can be filled. -/
def ListReadable (fs : FileSystem) : Prop :=
  ∃ files page, fs.entries (ascii "../files") = some files ∧
    fs.Streams (ascii "../resources/fileserver.html") page ∧
    Fillable (page.take maxSize) (files.map fileItem).flatten

theorem buildFileHtml_returns_iff : (∃ html, buildFileHtml fs = .ok html) ↔ ListReadable fs := by
  constructor
  · rintro ⟨html, built⟩
    obtain ⟨files, listed, built⟩ := FileResult.bind_eq_ok built
    obtain ⟨-, -, built⟩ := FileResult.bind_eq_ok built
    obtain ⟨text, read, filled⟩ := FileResult.bind_eq_ok built
    obtain ⟨⟨page, size⟩, opened, isText⟩ := FileResult.bind_eq_ok read
    cases isText
    refine ⟨files, page, ?_, FileSystem.streams_of_openFile opened, ?_⟩
    · unfold FileSystem.listFiles at listed
      cases entries : fs.entries (ascii "../files") with
      | none => simp [entries] at listed
      | some found => simpa [entries] using listed
    · exact fillPage_returns_iff.mp ⟨html, FileResult.liftFault_eq_ok.mp filled⟩
  · rintro ⟨files, page, entries, streams, fillable⟩
    obtain ⟨html, filled⟩ := fillPage_returns_iff.mpr fillable
    obtain ⟨size, opened⟩ := FileSystem.openFile_of_streams streams
    refine ⟨html, ?_⟩
    have listed : fs.listFiles (ascii "../files") = .ok files := by
      rw [FileSystem.listFiles, entries]
    have read : fs.readFileText (ascii "../resources/fileserver.html") =
        .ok (page.take maxSize) := by
      rw [FileSystem.readFileText, opened]
      rfl
    have fits : FileSystem.checkSize (files.map fileItem).flatten.length = .ok () :=
      if_pos fillable.list
    rw [buildFileHtml, listed, FileResult.ok_bind]
    simp only [fits, read, FileResult.ok_bind, filled]
    rfl

theorem handleList_of_html (response : HttpResponse) {html : Bytes}
    (built : buildFileHtml fs = .ok html) :
    ∃ r, handleList fs response = .ok r ∧
      r.Shows .k200OK response.closeConnection html (some (toDecimal html.length)) := by
  rw [handleList, built, FileResult.ok_bind]
  exact ⟨_, rfl, rfl, rfl, rfl, by simp +decide⟩

/-! ## Downloads -/

theorem buildDownloadResponse_of_holds (response : HttpResponse) (holds : fs.Holds path content)
    (isFile : Bool) :
    ∃ r, buildDownloadResponse fs response path isFile = .ok r ∧
      r.Shows .k200OK response.closeConnection content.bytes
        (some (toDecimal content.bytes.length)) := by
  simp only [buildDownloadResponse, FileSystem.readFileBinary_of_holds holds,
    FileSystem.getFileSize_of_offers holds, FileResult.ok_bind]
  exact ⟨_, rfl, rfl, rfl, rfl, by simp +decide⟩

theorem holds_of_buildDownloadResponse {isFile : Bool}
    (returned : buildDownloadResponse fs response path isFile = .ok r) :
    ∃ content, fs.Holds path content := by
  obtain ⟨body, read, returned⟩ := FileResult.bind_eq_ok returned
  obtain ⟨size, sized, -⟩ := FileResult.bind_eq_ok returned
  obtain ⟨⟨bytes, position⟩, opens, read⟩ := FileResult.bind_eq_ok read
  obtain ⟨⟨⟩, fits, -⟩ := FileResult.bind_eq_ok read
  obtain ⟨offers, rfl⟩ := FileSystem.offers_of_open_of_size opens sized
  exact ⟨⟨bytes, FileSystem.checkSize_eq_ok.mp fits⟩, offers⟩

/-- The two numbers of a range that can be answered: they are in order, and the length of the
range is an `int`. -/
def Spans (first last : Int) : Prop := first ≤ last ∧ last - first + 1 < 2 ^ 31

theorem spans_of_buildRangeDownloadResponse {first last : Int}
    (returned : buildRangeDownloadResponse fs response path first last = .ok r) :
    (∃ bytes, fs.Offers path bytes) ∧ Spans first last := by
  obtain ⟨difference, subtracted, returned⟩ := FileResult.bind_eq_ok returned
  obtain ⟨length, added, returned⟩ := FileResult.bind_eq_ok returned
  obtain ⟨body, read, returned⟩ := FileResult.bind_eq_ok returned
  obtain ⟨size, sized, -⟩ := FileResult.bind_eq_ok returned
  obtain ⟨⟨bytes, past⟩, opens, read⟩ := FileResult.bind_eq_ok read
  refine ⟨⟨bytes, (FileSystem.offers_of_open_of_size opens sized).1⟩, ?_⟩
  obtain ⟨difference', subtracted', read⟩ := FileResult.bind_eq_ok read
  rw [subtracted] at subtracted'
  cases subtracted'
  obtain ⟨checked, fits, -⟩ := FileResult.bind_eq_ok read
  obtain ⟨⟨low, -⟩, isDifference⟩ := checkedInt_eq_ok.mp (FileResult.liftFault_eq_ok.mp subtracted)
  obtain ⟨⟨-, high⟩, -⟩ := checkedInt_eq_ok.mp (FileResult.liftFault_eq_ok.mp added)
  subst isDifference
  refine ⟨?_, high⟩
  by_contra reversed
  have large := FileSystem.sizeOfInt_of_negative low (by omega)
  rw [FileSystem.checkSize, if_neg (by omega)] at fits
  cases fits

theorem buildRangeDownloadResponse_of_offers (response : HttpResponse) {bytes : Bytes}
    (offers : fs.Offers path bytes) {first last : Int} (spans : Spans first last) :
    ∃ r body, buildRangeDownloadResponse fs response path first last = .ok r ∧
      fs.readFileRange path first last = .ok body ∧ body.length = (last - first).toNat ∧
      r.Shows .k206PartialContent response.closeConnection body
        (some (toDecimal (last - first + 1).toNat)) ∧
      r.header (ascii "Content-Range") = some (ascii "bytes " ++ intToDecimal first ++ ascii "-" ++
        intToDecimal last ++ ascii "/" ++ toDecimal bytes.length) := by
  obtain ⟨ordered, fits⟩ := spans
  have subtracted : checkedInt (last - first) = .ok (last - first) :=
    checkedInt_of_fits (by omega) (by omega)
  have added : checkedInt (last - first + 1) = .ok (last - first + 1) :=
    checkedInt_of_fits (by omega) fits
  have length : FileSystem.sizeOfInt (last - first + 1) = (last - first + 1).toNat :=
    FileSystem.sizeOfInt_of_fits (by omega) fits
  have read := FileSystem.readFileRange_of_offers offers ordered (by omega)
  simp only [buildRangeDownloadResponse, subtracted, added, liftFault, FileResult.ok_bind, read,
    FileSystem.getFileSize_of_offers offers, length]
  refine ⟨_, _, rfl, rfl, ?_, ⟨rfl, rfl, rfl, by simp +decide⟩, by simp⟩
  split_ifs
  · exact List.length_replicate
  · exact FileSystem.readInto_length _ _ _

/-! ## The routes -/

/-- Both numbers of a `Range` field are read, and span a range. -/
def RangeReadable (range : Bytes) : Prop :=
  ∃ first last, parseRange range = .ok (first, last) ∧ Spans first last

/-- What a download needs: a file that can be read, of which a whole one fits a string, and a
range that can be answered. -/
def Downloadable (server : FileServer) (fs : FileSystem) (request : HttpRequest) : Prop :=
  match request.headers (ascii "Range") with
  | none => ∃ content, fs.Holds (server.filePath request) content
  | some range => (∃ bytes, fs.Offers (server.filePath request) bytes) ∧ RangeReadable range

theorem downloadable_offers {server : FileServer} {request : HttpRequest}
    (downloadable : Downloadable server fs request) :
    ∃ bytes, fs.Offers (server.filePath request) bytes := by
  unfold Downloadable at downloadable
  split at downloadable
  · obtain ⟨content, holds⟩ := downloadable
    exact ⟨content.bytes, holds⟩
  · exact downloadable.1

/-- What a request needs to be answered. -/
def Answerable (server : FileServer) (fs : FileSystem) (request : HttpRequest) : Prop :=
  if request.url = ascii "/" then ListReadable fs
  else if request.url = ascii "/favicon.ico" then
    ∃ content, fs.Holds (ascii "../resources/cat.jpg") content
  else match request.method with
    | .kGet => Downloadable server fs request
    | .kPost => fs.pathExists (server.filePath request) = .ok true ∨
        fs.pathExists (server.filePath request) = .ok false ∧
          fs.creatable (server.filePath request) = true
    | .kDelete => False
    | .kHead => True
    | .kPut => True

variable {server : FileServer} {request : HttpRequest}

theorem handleDownload_returns (downloadable : Downloadable server fs request) :
    ∃ r, server.handleDownload fs request response = .ok r ∧ r.statusCode ≠ .kUnknown := by
  unfold Downloadable at downloadable
  cases header : request.headers (ascii "Range") with
  | none =>
      rw [header] at downloadable
      obtain ⟨content, holds⟩ := downloadable
      obtain ⟨r, returned, shows⟩ := buildDownloadResponse_of_holds response holds true
      rw [handleDownload, FileSystem.pathExists_of_offers holds, FileResult.ok_bind, header]
      exact ⟨r, returned, by rw [shows.statusCode]; decide⟩
  | some range =>
      rw [header] at downloadable
      obtain ⟨⟨bytes, offers⟩, first, last, parsed, spans⟩ := downloadable
      obtain ⟨r, body, returned, -, -, shows, -⟩ :=
        buildRangeDownloadResponse_of_offers response offers spans
      refine ⟨r, ?_, by rw [shows.statusCode]; decide⟩
      rw [handleDownload, FileSystem.pathExists_of_offers offers, FileResult.ok_bind, header]
      simp only [parsed, liftFault, FileResult.ok_bind]
      exact returned

theorem downloadable_of_handleDownload
    (returned : server.handleDownload fs request response = .ok r) :
    Downloadable server fs request := by
  obtain ⟨found, looked, returned⟩ := FileResult.bind_eq_ok returned
  unfold Downloadable
  split at returned
  · rename_i range header
    obtain ⟨⟨first, last⟩, parsed, returned⟩ := FileResult.bind_eq_ok returned
    obtain ⟨offers, spans⟩ := spans_of_buildRangeDownloadResponse returned
    rw [header]
    exact ⟨offers, first, last, FileResult.liftFault_eq_ok.mp parsed, spans⟩
  · rename_i noRange
    obtain ⟨content, holds⟩ := holds_of_buildDownloadResponse returned
    rw [FileSystem.pathExists_of_offers holds] at looked
    cases looked
    cases header : request.headers (ascii "Range") with
    | none => exact ⟨content, holds⟩
    | some range => exact absurd header (noRange range rfl)

/-- The returned pair of a handler that changes no file. -/
theorem unchanged_eq_ok {handled : FileResult HttpResponse} {change : Option Change} :
    unchanged handled = .ok (r, change) ↔ handled = .ok r ∧ change = none := by
  cases handled with
  | error e => simp [unchanged]
  | ok r' =>
      show (Except.ok (r', none) : FileResult (HttpResponse × Option Change)) = .ok (r, change) ↔ _
      simp [eq_comm]

theorem analyzeRequest_of_post (post : request.method = .kPost)
    (notRoot : request.url ≠ ascii "/") (notIcon : request.url ≠ ascii "/favicon.ico") :
    server.analyzeRequest fs request response = server.handleUpload fs request response := by
  rw [analyzeRequest, if_neg notRoot, if_neg notIcon, post]
  rfl

theorem handleUpload_returns_iff :
    (∃ r change, server.handleUpload fs request response = .ok (r, change) ∧
      r.statusCode ≠ .kUnknown) ↔
    fs.pathExists (server.filePath request) = .ok true ∨
      fs.pathExists (server.filePath request) = .ok false ∧
        fs.creatable (server.filePath request) = true := by
  unfold handleUpload FileSystem.writeFileBinary
  cases found : fs.pathExists (server.filePath request) with
  | error e => simp [found]
  | ok there =>
      cases there with
      | true =>
          simp only [found, FileResult.ok_bind, true_or, iff_true]
          exact ⟨_, _, rfl, by simp [HttpResponse.setStatusMessage, HttpResponse.setStatusCode]⟩
      | false =>
          simp only [found, FileResult.ok_bind]
          cases creatable : fs.creatable (server.filePath request) with
          | false => simp
          | true =>
              simp only [if_true, FileResult.ok_bind, Except.ok.injEq, Bool.false_eq_true, false_or,
                and_self, iff_true]
              exact ⟨_, _, rfl, by simp [HttpResponse.setStatusMessage, HttpResponse.setStatusCode]⟩

/-- A deletion leaves the status of the response as it was. -/
theorem handleDelete_statusCode {change : Option Change}
    (returned : server.handleDelete fs request response = .ok (r, change)) :
    r.statusCode = response.statusCode ∧ r.headers = response.headers := by
  obtain ⟨found, -, returned⟩ := FileResult.bind_eq_ok returned
  cases found with
  | true =>
      obtain ⟨removed, -, returned⟩ := FileResult.bind_eq_ok returned
      cases returned
      exact ⟨rfl, rfl⟩
  | false =>
      cases returned
      exact ⟨rfl, rfl⟩

theorem unchanged_returns_iff {handled : FileResult HttpResponse} :
    (∃ r change, unchanged handled = .ok (r, change) ∧ r.statusCode ≠ .kUnknown) ↔
      ∃ r, handled = .ok r ∧ r.statusCode ≠ .kUnknown := by
  simp only [unchanged_eq_ok]
  constructor
  · rintro ⟨r, change, ⟨returned, -⟩, known⟩
    exact ⟨r, returned, known⟩
  · rintro ⟨r, returned, known⟩
    exact ⟨r, none, ⟨returned, rfl⟩, known⟩

/-- **Exactly the answerable requests are answered**: for these `AnalyzeRequest` returns, and
the response has a status. -/
theorem answered_iff (server : FileServer) (fs : FileSystem) (request : HttpRequest)
    (closeConnection : Bool) :
    (∃ r change, server.analyzeRequest fs request (.construct closeConnection) = .ok (r, change) ∧
      r.statusCode ≠ .kUnknown) ↔ Answerable server fs request := by
  unfold analyzeRequest Answerable
  by_cases root : request.url = ascii "/"
  · -- the list
    rw [if_pos root, if_pos root, unchanged_returns_iff, ← buildFileHtml_returns_iff]
    constructor
    · rintro ⟨r, returned, -⟩
      obtain ⟨html, built, -⟩ := FileResult.bind_eq_ok returned
      exact ⟨html, built⟩
    · rintro ⟨html, built⟩
      obtain ⟨r, returned, shows⟩ := handleList_of_html (.construct closeConnection) built
      exact ⟨r, returned, by rw [shows.statusCode]; decide⟩
  rw [if_neg root, if_neg root]
  by_cases icon : request.url = ascii "/favicon.ico"
  · -- the icon
    rw [if_pos icon, if_pos icon, unchanged_returns_iff]
    constructor
    · rintro ⟨r, returned, -⟩
      exact holds_of_buildDownloadResponse returned
    · rintro ⟨content, holds⟩
      obtain ⟨r, returned, shows⟩ :=
        buildDownloadResponse_of_holds (.construct closeConnection) holds false
      exact ⟨r, returned, by rw [shows.statusCode]; decide⟩
  rw [if_neg icon, if_neg icon]
  cases method : request.method with
  | kGet =>
      simp only [if_true, unchanged_returns_iff]
      constructor
      · rintro ⟨r, returned, -⟩
        exact downloadable_of_handleDownload returned
      · exact handleDownload_returns
  | kPost =>
      simp only [reduceCtorEq, if_false, if_true]
      exact handleUpload_returns_iff
  | kDelete =>
      simp only [reduceCtorEq, if_false, if_true, iff_false]
      rintro ⟨r, change, returned, known⟩
      exact known (handleDelete_statusCode returned).1
  | kHead =>
      simp only [reduceCtorEq, if_false, iff_true]
      exact ⟨_, _, rfl, by simp [HttpResponse.setStatusMessage, HttpResponse.setStatusCode,
        HttpResponse.setCloseConnection]⟩
  | kPut =>
      simp only [reduceCtorEq, if_false, iff_true]
      exact ⟨_, _, rfl, by simp [HttpResponse.setStatusMessage, HttpResponse.setStatusCode,
        HttpResponse.setCloseConnection]⟩

/-- A request for a file that does not exist. -/
def missingRequest : HttpRequest :=
  { method := .kGet, version := .kHttp11, url := ascii "/missing.txt" }

/-- An exception escapes, with no response. -/
theorem answered_iff_fails :
    ({} : FileServer).analyzeRequest (.oneFile (ascii "../files/a.txt") ⟨ascii "hello", by decide⟩)
        missingRequest (.construct false) =
      .error (.runtimeError (ascii "Failed to open file: ../files/missing.txt")) ∧
    ¬ ∃ r change, ({} : FileServer).analyzeRequest
        (.oneFile (ascii "../files/a.txt") ⟨ascii "hello", by decide⟩) missingRequest
        (.construct false) = .ok (r, change) ∧ r.statusCode ≠ .kUnknown := by
  have escapes : ({} : FileServer).analyzeRequest
      (.oneFile (ascii "../files/a.txt") ⟨ascii "hello", by decide⟩) missingRequest
      (.construct false) =
        .error (.runtimeError (ascii "Failed to open file: ../files/missing.txt")) := rfl
  refine ⟨escapes, ?_⟩
  rintro ⟨r, change, returned, -⟩
  rw [escapes] at returned
  cases returned

end FileServer

end CppFileServer.Http
