/-
# Http.Listing -- the links of the list

`BuildFileHtml` walks through `../files`, whatever the root is, and prints the whole
path of each entry into a link that downloads and one that deletes.  Both are followed
by a GET, and a GET of any URL but two is a download of the last component of the URL
from `root_path_`: no link deletes, and a link downloads the file that is listed only
where the root and the last component lead back to it.
-/
import CppFileServer.Http.FileStore

namespace CppFileServer.Http

set_option autoImplicit false

open CppFileServer.Cpp CppFileServer.Utils

namespace FileServer

/-! ## What the page prints -/

def downloadLink (filename : Bytes) : Bytes := ascii "/download/" ++ filename

def deleteLink (filename : Bytes) : Bytes := ascii "/delete/" ++ filename

/-- The beginning of an anchor with this link. -/
def anchor (link : Bytes) : Bytes := ascii "<a href=\"" ++ link ++ ascii "\">"

theorem fileItem_links (filename : Bytes) :
    anchor (downloadLink filename) <:+: fileItem filename ∧
      anchor (deleteLink filename) <:+: fileItem filename := by
  have download : ascii "<a href=\"/download/" = ascii "<a href=\"" ++ ascii "/download/" := by decide
  have delete : ascii "<a href=\"/delete/" = ascii "<a href=\"" ++ ascii "/delete/" := by decide
  unfold anchor downloadLink deleteLink fileItem
  rw [download, delete]
  constructor
  · refine ⟨ascii "<tr><td>" ++ filename ++ ascii "</td>" ++ ascii "<td>",
      downloadText ++ ascii "</a>" ++ ascii "<a href=\"" ++ ascii "/delete/" ++ filename ++
        ascii "\">" ++ deleteText ++ ascii "</a>" ++ ascii "</td></tr>" ++ ascii "\n", ?_⟩
    simp only [List.append_assoc]
  · refine ⟨ascii "<tr><td>" ++ filename ++ ascii "</td>" ++ ascii "<td>" ++
      ascii "<a href=\"" ++ ascii "/download/" ++ filename ++ ascii "\">" ++ downloadText ++
      ascii "</a>", deleteText ++ ascii "</a>" ++ ascii "</td></tr>" ++ ascii "\n", ?_⟩
    simp only [List.append_assoc]

/-- The page has both links of every entry. -/
theorem links_printed {fs : FileSystem} {html : Bytes} (built : buildFileHtml fs = .ok html)
    {files : List Bytes} (entries : fs.entries (ascii "../files") = some files) {filename : Bytes}
    (inside : filename ∈ files) :
    anchor (downloadLink filename) <:+: html ∧ anchor (deleteLink filename) <:+: html := by
  obtain ⟨filelist, listed, built⟩ := FileResult.bind_eq_ok built
  obtain ⟨-, -, built⟩ := FileResult.bind_eq_ok built
  obtain ⟨page, -, filled⟩ := FileResult.bind_eq_ok built
  have same : filelist = files := by
    rw [FileSystem.listFiles, entries] at listed
    exact (Except.ok.inj listed).symm
  subst same
  have item : fileItem filename <:+: (filelist.map fileItem).flatten :=
    List.infix_of_mem_flatten (List.mem_map_of_mem inside)
  have list : (filelist.map fileItem).flatten <:+: html := by
    have replaced := FileResult.liftFault_eq_ok.mp filled
    unfold fillPage at replaced
    split at replaced
    · simp only at replaced
      split_ifs at replaced
      cases replaced
      exact ⟨_, _, rfl⟩
    · cases replaced
  obtain ⟨download, delete⟩ := fileItem_links filename
  exact ⟨(download.trans item).trans list, (delete.trans item).trans list⟩

/-! ## Following a link -/

/-- A URL that has one of its own handlers does not begin with such a text. -/
theorem ordinary_of_prefix {front : Bytes} (root : ¬ front <+: ascii "/")
    (icon : ¬ front <+: ascii "/favicon.ico") (filename : Bytes) :
    front ++ filename ≠ ascii "/" ∧ front ++ filename ≠ ascii "/favicon.ico" := by
  have begins : front <+: front ++ filename := List.prefix_append front filename
  exact ⟨fun same => root (same ▸ begins), fun same => icon (same ▸ begins)⟩

theorem downloadLink_ordinary (filename : Bytes) :
    downloadLink filename ≠ ascii "/" ∧ downloadLink filename ≠ ascii "/favicon.ico" :=
  ordinary_of_prefix (by decide) (by decide) filename

theorem deleteLink_ordinary (filename : Bytes) :
    deleteLink filename ≠ ascii "/" ∧ deleteLink filename ≠ ascii "/favicon.ico" :=
  ordinary_of_prefix (by decide) (by decide) filename

/-- The GET of a link. -/
def follow (link : Bytes) (ordinary : link ≠ ascii "/" ∧ link ≠ ascii "/favicon.ico") :
    FileRequest where
  request :=
    { method := .kGet
      version := .kHttp11
      url := link }
  method := Or.inl rfl
  notRoot := ordinary.1
  notIcon := ordinary.2
  noRange := rfl
  bounded := Nat.zero_le _

/-- The GET of the icon. -/
def icon : HttpRequest :=
  { method := .kGet
    version := .kHttp11
    url := ascii "/favicon.ico" }

/-- The path that a GET of this URL is answered from, when it is for a file. -/
def servedFrom (server : FileServer) (url : Bytes) : Option Bytes :=
  if url = ascii "/" then none
  else if url = ascii "/favicon.ico" then some (ascii "../resources/cat.jpg")
  else some (server.rootPath ++ afterLast 47 url)

variable {N : Type} {server : FileServer} {disk : Disk N}

/-- A GET that is answered found a plain file. -/
theorem file_of_served {request : HttpRequest} (get : request.method = .kGet) {path : Bytes}
    (served : server.servedFrom request.url = some path) {response : HttpResponse}
    {change : Option Change} (answered : server.answer disk request = .ok (response, change)) :
    ∃ content, disk.occupant path = some (.file content) := by
  have file {path : Bytes} (holds : ∃ content, disk.system.Holds path content) :
      ∃ content, disk.occupant path = some (.file content) := by
    obtain ⟨content, holds⟩ := holds
    exact ⟨content, Disk.holds_iff.mp holds⟩
  rw [answer, analyzeRequest] at answered
  unfold servedFrom at served
  split_ifs at served answered with root isIcon
  · cases served
    exact file (holds_of_buildDownloadResponse (unchanged_eq_ok.mp answered).1)
  · cases served
    obtain ⟨bytes, offers⟩ := downloadable_offers
      (downloadable_of_handleDownload (unchanged_eq_ok.mp answered).1)
    exact Disk.file_of_offers offers

/-- A plain file that the page lists. -/
structure Listed (disk : Disk N) (path : Bytes) (content : FileContent) : Prop where
  page : ∃ html, buildFileHtml disk.system = .ok html
  entry : ∃ files, disk.system.entries (ascii "../files") = some files ∧ path ∈ files
  file : disk.occupant path = some (.file content)

/-- The page and the routes agree. -/
structure Agrees [DecidableEq N] (server : FileServer) (disk : Disk N) : Prop where
  /-- The link of a file that is listed downloads it. -/
  download : ∀ path content, Listed disk path content → ∀ r : FileRequest,
    r.request.method = .kGet → r.request.url = downloadLink path →
    ∃ response change, server.answer disk r.request = .ok (response, change) ∧
      response.Shows .k200OK (HttpServer.closes r.request) content.bytes
        (some (toDecimal content.bytes.length))
  /-- The other link deletes it. -/
  delete : ∀ path content, Listed disk path content → ∀ r : FileRequest,
    r.request.method = .kGet → r.request.url = deleteLink path →
    (server.after disk r.request).occupant path = none
  /-- What a GET can download is listed. -/
  listed : ∀ request : HttpRequest, request.method = .kGet →
    ∀ path, server.servedFrom request.url = some path →
    ∀ response change, server.answer disk request = .ok (response, change) →
    ∃ content, Listed disk path content

/-- The path of a link that downloads has lost the directories of the entry. -/
theorem filePath_downloadLink (server : FileServer) {request : HttpRequest} {filename : Bytes}
    (url : request.url = downloadLink filename) :
    server.filePath request = server.rootPath ++ afterLast 47 filename := by
  rw [filePath, url, downloadLink, afterLast_append_of_nil (by decide)]

/-- **What the link that downloads shows**: the bytes of the entry exactly if the file of that
name at the root has them. -/
theorem downloadLink_shows_iff {r : FileRequest} (get : r.request.method = .kGet)
    {filename : Bytes} (url : r.request.url = downloadLink filename) (bytes : Bytes) :
    (∃ response change, server.answer disk r.request = .ok (response, change) ∧
      response.Shows .k200OK (HttpServer.closes r.request) bytes (some (toDecimal bytes.length))) ↔
    ∃ content, disk.occupant (server.rootPath ++ afterLast 47 filename) = some (.file content) ∧
      content.bytes = bytes := by
  have path := filePath_downloadLink server url
  constructor
  · rintro ⟨response, change, answered, shows⟩
    have served : server.servedFrom r.request.url = some (server.filePath r.request) := by
      rw [servedFrom, if_neg r.notRoot, if_neg r.notIcon, filePath]
    obtain ⟨content, held⟩ := file_of_served get served answered
    obtain ⟨response', answered', shows'⟩ := answer_get_file get held
    rw [answered] at answered'
    cases answered'
    exact ⟨content, path ▸ held, shows'.body.symm.trans shows.body⟩
  · rintro ⟨content, held, rfl⟩
    obtain ⟨response, answered, shows⟩ := answer_get_file get (path.symm ▸ held)
    exact ⟨response, none, answered, shows⟩

variable [DecidableEq N]

/-- **The page and the routes agree exactly if** no plain file is listed and none can be
downloaded: the link of a file that is listed does not delete it. -/
theorem listing_agrees_iff (server : FileServer) (disk : Disk N) :
    server.Agrees disk ↔
      (∀ path content, ¬ Listed disk path content) ∧
      (∀ content, disk.occupant (ascii "../resources/cat.jpg") ≠ some (.file content)) ∧
      ∀ name, 47 ∉ name → ∀ content, disk.occupant (server.rootPath ++ name) ≠ some (.file content) := by
  constructor
  · intro agrees
    have unlisted : ∀ path content, ¬ Listed disk path content := by
      intro path content listed
      have gone := agrees.delete path content listed
        (follow (deleteLink path) (deleteLink_ordinary path)) rfl rfl
      rw [after_of_get rfl, listed.file] at gone
      cases gone
    refine ⟨unlisted, ?_, ?_⟩
    · intro content held
      have holds := Disk.holds_iff.mpr held
      obtain ⟨response, built, -⟩ := buildDownloadResponse_of_holds
        (.construct (HttpServer.closes icon)) holds false
      have answered : server.answer disk icon = .ok (response, none) :=
        unchanged_eq_ok.mpr ⟨built, rfl⟩
      obtain ⟨content', listed⟩ := agrees.listed icon rfl _ rfl response none answered
      exact unlisted _ content' listed
    · intro name simple content held
      have path : afterLast 47 (downloadLink name) = name := by
        rw [downloadLink, afterLast_append simple]
        rfl
      rw [← path] at held
      have served : server.servedFrom (downloadLink name) =
          some (server.rootPath ++ afterLast 47 (downloadLink name)) := by
        rw [servedFrom, if_neg (downloadLink_ordinary name).1, if_neg (downloadLink_ordinary name).2]
      obtain ⟨response, answered, -⟩ :=
        answer_get_file (r := follow (downloadLink name) (downloadLink_ordinary name)) rfl held
      obtain ⟨content', listed⟩ := agrees.listed _ rfl _ served response none answered
      exact unlisted _ content' listed
  · rintro ⟨unlisted, noIcon, noFile⟩
    refine ⟨fun path content listed => absurd listed (unlisted path content),
      fun path content listed => absurd listed (unlisted path content), ?_⟩
    intro request get path served response change answered
    obtain ⟨content, held⟩ := file_of_served get served answered
    unfold servedFrom at served
    split_ifs at served with root isIcon
    · cases served
      exact absurd held (noIcon content)
    · cases served
      exact absurd held (noFile _ (afterLast_absent 47 request.url) content)

def hello : FileContent := .ofBytes (ascii "hello")

/-- A file of the default root, one in a subdirectory, and a page. -/
def tree : Disk Bytes where
  resolve := id
  held := fun path =>
    if path = ascii "../files/a.txt" then some (.file hello)
    else if path = ascii "../files/sub/b.txt" then some (.file hello)
    else if path = ascii "../resources/fileserver.html" then some (.file (.ofBytes listMark))
    else none
  entries := fun _ directory =>
    if directory = ascii "../files" then
      some [ascii "../files/a.txt", ascii "../files/sub", ascii "../files/sub/b.txt"]
    else none
  describe := fun _ => []

theorem tree_lists {path : Bytes}
    (inside : path ∈ [ascii "../files/a.txt", ascii "../files/sub/b.txt"]) :
    Listed tree path hello := by
  have held : tree.system.Holds (ascii "../resources/fileserver.html") (.ofBytes listMark) :=
    Disk.holds_iff.mpr rfl
  have page : ListReadable tree.system :=
    ⟨_, listMark, rfl, Or.inl held, by decide, by decide +kernel⟩
  simp only [List.mem_cons, List.not_mem_nil, or_false] at inside
  rcases inside with rfl | rfl
  · exact ⟨buildFileHtml_returns_iff.mpr page, ⟨_, rfl, by decide⟩, rfl⟩
  · exact ⟨buildFileHtml_returns_iff.mpr page, ⟨_, rfl, by decide⟩, rfl⟩

def followDelete : FileRequest :=
  follow (deleteLink (ascii "../files/a.txt")) (deleteLink_ordinary _)

def followDownload : FileRequest :=
  follow (downloadLink (ascii "../files/sub/b.txt")) (downloadLink_ordinary _)

/-- The first file is still there after its link for deletion has been followed, and the link of
the second leads to a file that does not exist. -/
theorem listing_agrees_fails :
    ¬ ({} : FileServer).Agrees tree ∧
      (∃ html, buildFileHtml tree.system = .ok html ∧
        anchor (deleteLink (ascii "../files/a.txt")) <:+: html ∧
        anchor (downloadLink (ascii "../files/sub/b.txt")) <:+: html) ∧
      Listed tree (ascii "../files/a.txt") hello ∧
      (({} : FileServer).after tree followDelete.request).occupant (ascii "../files/a.txt") =
        some (.file hello) ∧
      Listed tree (ascii "../files/sub/b.txt") hello ∧
      ({} : FileServer).answer tree followDownload.request =
        .error (.runtimeError (ascii "Failed to open file: ../files/b.txt")) := by
  have listed := tree_lists (List.mem_cons_self : ascii "../files/a.txt" ∈ _)
  have stays : (({} : FileServer).after tree followDelete.request).occupant
      (ascii "../files/a.txt") = some (.file hello) := by
    rw [after_of_get rfl]
    rfl
  obtain ⟨html, built⟩ := listed.page
  have deletes := (links_printed built rfl
    (by decide : ascii "../files/a.txt" ∈ [ascii "../files/a.txt", _, _])).2
  have downloads := (links_printed built rfl
    (by decide : ascii "../files/sub/b.txt" ∈ [ascii "../files/a.txt", ascii "../files/sub", _])).1
  refine ⟨?_, ⟨html, built, deletes, downloads⟩, listed, stays, tree_lists (by decide), rfl⟩
  intro agrees
  have gone := agrees.delete _ hello listed followDelete rfl rfl
  rw [stays] at gone
  cases gone

end FileServer

end CppFileServer.Http
