/-
# Http.FileServer -- the list, the downloads, the upload and the deletion

`AnalyzeRequest` chooses a handler by URL and method; each sets the status, the
fields and the body of the response on its own.  Nothing on the way from here to
the event loop catches an exception, so one that is thrown here is the result.
The call of `BuildRangeDownloadResponse` has an argument `true` that its
declaration lacks; it is read without it.
-/
import CppFileServer.Http.HttpRequest
import CppFileServer.Http.HttpResponse
import CppFileServer.Utils.FileHandler

namespace CppFileServer.Http

set_option autoImplicit false

open CppFileServer.Cpp CppFileServer.Utils

structure FileServer where
  rootPath : Bytes := ascii "../files/"

namespace FileServer

/-! ## The page of the list -/

/-- The text of the link that downloads, in UTF-8. -/
def downloadText : Bytes := [0xE4, 0xB8, 0x8B, 0xE8, 0xBD, 0xBD]

/-- The text of the link that deletes. -/
def deleteText : Bytes := [0xE5, 0x88, 0xA0, 0xE9, 0x99, 0xA4]

def fileItem (filename : Bytes) : Bytes :=
  ascii "<tr><td>" ++ filename ++ ascii "</td>" ++ ascii "<td>" ++
    ascii "<a href=\"/download/" ++ filename ++ ascii "\">" ++ downloadText ++ ascii "</a>" ++
    ascii "<a href=\"/delete/" ++ filename ++ ascii "\">" ++ deleteText ++ ascii "</a>" ++
    ascii "</td></tr>" ++ ascii "\n"

/-- What the list stands for in the page. -/
def listMark : Bytes := ascii "<!--filelist-->"

/-- The replacement of the mark; `replace` throws when `find` returned `npos`, and when the
page gets too long. -/
def fillPage (page list : Bytes) : Result Bytes :=
  match find listMark page with
  | some i =>
      let filled := page.take i ++ list ++ page.drop (i + listMark.length)
      if filled.length ≤ maxSize then .ok filled else .error .lengthError
  | none => .error .outOfRange

def buildFileHtml (fs : FileSystem) : FileResult Bytes := do
  let filelist ← fs.listFiles (ascii "../files")
  let file := (filelist.map fileItem).flatten
  FileSystem.checkSize file.length
  let page ← fs.readFileText (ascii "../resources/fileserver.html")
  liftFault (fillPage page file)

def handleList (fs : FileSystem) (response : HttpResponse) : FileResult HttpResponse := do
  let filehtml ← buildFileHtml fs
  let response := response.setStatusCode .k200OK
  let response := response.setStatusMessage (ascii "OK")
  let response := response.setContentType (ascii "text/html")
  let response := response.setContentLength filehtml.length
  let response := response.addHeader (ascii "Content-Disposition") (ascii "inline")
  pure (response.setBody filehtml)

/-! ## Downloads -/

def buildDownloadResponse (fs : FileSystem) (response : HttpResponse) (filepath : Bytes)
    (isFile : Bool) : FileResult HttpResponse := do
  let response := response.setStatusCode .k200OK
  let response := response.setStatusMessage (ascii "OK")
  let response := response.setContentType (PathUtils.getMimeType filepath)
  let body ← fs.readFileBinary filepath
  let response := response.setBody body
  let size ← fs.getFileSize filepath
  let response := response.setContentLength size
  let disposition :=
    if isFile then ascii "attachment; filename=" ++ PathUtils.getFileName filepath
    else ascii "inline"
  let response := response.addHeader (ascii "Content-Disposition") disposition
  pure (response.addHeader (ascii "Cache-Control") (ascii "no-cache"))

def buildRangeDownloadResponse (fs : FileSystem) (response : HttpResponse) (filepath : Bytes)
    (first last : Int) : FileResult HttpResponse := do
  let response := response.setStatusCode .k206PartialContent
  let response := response.setStatusMessage (ascii "Partial Content")
  let response := response.setContentType (PathUtils.getMimeType filepath)
  let difference ← liftFault (checkedInt (last - first))
  let length ← liftFault (checkedInt (difference + 1))
  let response := response.setContentLength (FileSystem.sizeOfInt length)
  let body ← fs.readFileRange filepath first last
  let response := response.setBody body
  let response := response.addHeader (ascii "Cache-Control") (ascii "no-cache")
  let size ← fs.getFileSize filepath
  pure (response.addHeader (ascii "Content-Range")
    (ascii "bytes " ++ intToDecimal first ++ ascii "-" ++ intToDecimal last ++ ascii "/" ++
      toDecimal size))

/-- The text that the beginning of a range is read from. -/
def rangeFirst (range : Bytes) : Result Bytes :=
  let equals := position (find (ascii "=") range)
  let dash := position (find (ascii "-") range)
  substrCount range (sizeT (equals + 1)) (sizeSub (sizeSub dash equals) 1)

/-- The text that the end of a range is read from. -/
def rangeLast (range : Bytes) : Result Bytes :=
  substr range (sizeT (position (find (ascii "-") range) + 1))

/-- The two numbers of a `Range` field. -/
def parseRange (range : Bytes) : Result (Int × Int) := do
  let first ← rangeFirst range
  let first ← stoi first
  let last ← rangeLast range
  let last ← stoi last
  pure (first, last)

def filePath (server : FileServer) (request : HttpRequest) : Bytes :=
  server.rootPath ++ afterLast 47 request.url

def handleDownload (server : FileServer) (fs : FileSystem) (request : HttpRequest)
    (response : HttpResponse) : FileResult HttpResponse := do
  let filepath := server.filePath request
  let found ← fs.pathExists filepath
  match found, request.headers (ascii "Range") with
  | true, some range => do
      let (first, last) ← liftFault (parseRange range)
      buildRangeDownloadResponse fs response filepath first last
  | _, _ => buildDownloadResponse fs response filepath true

/-! ## Upload and deletion -/

def handleUpload (server : FileServer) (fs : FileSystem) (request : HttpRequest)
    (response : HttpResponse) : FileResult (HttpResponse × Option Change) := do
  let filepath := server.filePath request
  let found ← fs.pathExists filepath
  match found with
  | true =>
      let response := response.setStatusCode .k409Conflict
      pure (response.setStatusMessage (ascii "Conflict"), none)
  | false => do
      let change ← fs.writeFileBinary filepath request.body
      let response := response.setStatusCode .k201Created
      pure (response.setStatusMessage (ascii "Created"), some change)

/-- `HandleDelete`, which deletes the name and not the path it has looked for. -/
def handleDelete (server : FileServer) (fs : FileSystem) (request : HttpRequest)
    (response : HttpResponse) : FileResult (HttpResponse × Option Change) := do
  let found ← fs.pathExists (server.filePath request)
  match found with
  | true => do
      let change ← fs.deleteFile (afterLast 47 request.url)
      pure (response, change)
  | false => pure (response, none)

/-! ## AnalyzeRequest -/

/-- A handler that changes no file. -/
def unchanged (handled : FileResult HttpResponse) : FileResult (HttpResponse × Option Change) := do
  let response ← handled
  pure (response, none)

/-- `AnalyzeRequest`: the response, and what has changed. -/
def analyzeRequest (server : FileServer) (fs : FileSystem) (request : HttpRequest)
    (response : HttpResponse) : FileResult (HttpResponse × Option Change) :=
  if request.url = ascii "/" then unchanged (handleList fs response)
  else if request.url = ascii "/favicon.ico" then
    unchanged (buildDownloadResponse fs response (ascii "../resources/cat.jpg") false)
  else if request.method = .kGet then unchanged (server.handleDownload fs request response)
  else if request.method = .kPost then server.handleUpload fs request response
  else if request.method = .kDelete then server.handleDelete fs request response
  else
    let response := response.setStatusCode .k404NotFound
    let response := response.setStatusMessage (ascii "Not Found")
    .ok (response.setCloseConnection true, none)

end FileServer

end CppFileServer.Http
