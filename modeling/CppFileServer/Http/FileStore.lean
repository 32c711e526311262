/-
# Http.FileStore -- POST and GET on a disk

Uploads and downloads without `Range` make the directory under `root_path_` a store in
which a name is written once.  `call` is what such a request asks of that store, with
the node of its path as the key; `after_held` says that the server does just this, so
what a name holds is a fact about the store.

An exception ends the server, and leaves the disk as it is for the next one.
-/
import CppFileServer.Http.FileReplies
import CppFileServer.Http.HttpServer
import CppFileServer.Utils.Disk

namespace CppFileServer.Http

set_option autoImplicit false

open CppFileServer.Cpp CppFileServer.Utils CppFileServer.Theory

/-- A POST or a GET without `Range` that is for a file. -/
structure FileRequest where
  request : HttpRequest
  method : request.method = .kGet ∨ request.method = .kPost
  notRoot : request.url ≠ ascii "/"
  notIcon : request.url ≠ ascii "/favicon.ico"
  noRange : request.headers (ascii "Range") = none
  /-- The body is an `std::string`. -/
  bounded : request.body.length ≤ maxSize

namespace FileServer

variable {N : Type} (server : FileServer) (disk : Disk N)

/-- The answer to a request, with what it changes. -/
def answer (request : HttpRequest) : FileResult (HttpResponse × Option Change) :=
  server.analyzeRequest disk.system request (.construct (HttpServer.closes request))

/-- What a request asks of the store. -/
def call (request : HttpRequest) : StoreCall N Occupant :=
  if request.method = .kPost then
    .put (disk.resolve (server.filePath request)) (.file (.ofBytes request.body))
  else .get (disk.resolve (server.filePath request))

def after [DecidableEq N] (request : HttpRequest) : Disk N :=
  match server.answer disk request with
  | .ok (_, change) => disk.apply change
  | .error _ => disk

def afterAll [DecidableEq N] (requests : List FileRequest) : Disk N :=
  requests.foldl (fun disk r => server.after disk r.request) disk

variable {server disk} {r : FileRequest}

/-! ## One request -/

theorem answer_of_post {request : HttpRequest} (post : request.method = .kPost)
    (notRoot : request.url ≠ ascii "/") (notIcon : request.url ≠ ascii "/favicon.ico") :
    server.answer disk request =
      server.handleUpload disk.system request (.construct (HttpServer.closes request)) :=
  analyzeRequest_of_post post notRoot notIcon

theorem answer_of_get (get : r.request.method = .kGet) :
    server.answer disk r.request = unchanged
      (server.handleDownload disk.system r.request (.construct (HttpServer.closes r.request))) := by
  rw [answer, analyzeRequest, if_neg r.notRoot, if_neg r.notIcon, if_pos get]

/-- An upload to a path where there is nothing. -/
theorem answer_post_free {request : HttpRequest} (post : request.method = .kPost)
    (notRoot : request.url ≠ ascii "/") (notIcon : request.url ≠ ascii "/favicon.ico")
    (free : disk.occupant (server.filePath request) = none) :
    ∃ response, server.answer disk request =
        .ok (response, some (.wrote (server.filePath request) request.body)) ∧
      response.statusCode = .k201Created := by
  rw [answer_of_post post notRoot notIcon, handleUpload, Disk.pathExists_eq, free]
  simp only [FileResult.ok_bind, Option.isSome_none, FileSystem.writeFileBinary,
    Disk.creatable_of_absent free, if_true]
  exact ⟨_, rfl, rfl⟩

/-- An upload to a path where there is something. -/
theorem answer_post_held (post : r.request.method = .kPost)
    (held : disk.occupant (server.filePath r.request) ≠ none) :
    ∃ response, server.answer disk r.request = .ok (response, none) ∧
      response.statusCode = .k409Conflict := by
  rw [answer_of_post post r.notRoot r.notIcon, handleUpload, Disk.pathExists_eq,
    Option.isSome_iff_ne_none.mpr held]
  exact ⟨_, rfl, rfl⟩

theorem answer_get_unchanged (get : r.request.method = .kGet) {response : HttpResponse}
    {change : Option Change} (answered : server.answer disk r.request = .ok (response, change)) :
    change = none := by
  rw [answer_of_get get] at answered
  exact (unchanged_eq_ok.mp answered).2

/-- A download of a plain file. -/
theorem answer_get_file (get : r.request.method = .kGet) {content : FileContent}
    (held : disk.occupant (server.filePath r.request) = some (.file content)) :
    ∃ response, server.answer disk r.request = .ok (response, none) ∧
      response.Shows .k200OK (HttpServer.closes r.request) content.bytes
        (some (toDecimal content.bytes.length)) := by
  have holds : disk.system.Holds (server.filePath r.request) content := Disk.holds_iff.mpr held
  obtain ⟨response, built, shows⟩ :=
    buildDownloadResponse_of_holds (.construct (HttpServer.closes r.request)) holds true
  refine ⟨response, ?_, shows⟩
  rw [answer_of_get get, unchanged_eq_ok, handleDownload, FileSystem.pathExists_of_offers holds,
    r.noRange]
  exact ⟨built, rfl⟩

/-- Only an upload to a free path is answered with 201. -/
theorem free_of_created (post : r.request.method = .kPost) {response : HttpResponse}
    {change : Option Change} (answered : server.answer disk r.request = .ok (response, change))
    (created : response.statusCode = .k201Created) :
    disk.occupant (server.filePath r.request) = none := by
  by_contra held
  obtain ⟨response', answered', conflict⟩ := answer_post_held post held
  rw [answered] at answered'
  cases answered'
  rw [created] at conflict
  cases conflict

theorem answer_confined {response : HttpResponse} {path data : Bytes}
    (answered : server.answer disk r.request = .ok (response, some (.wrote path data))) :
    ∃ name, 47 ∉ name ∧ path = server.rootPath ++ name := by
  rcases r.method with get | post
  · cases answer_get_unchanged get answered
  · by_cases free : disk.occupant (server.filePath r.request) = none
    · obtain ⟨response', answered', -⟩ := answer_post_free post r.notRoot r.notIcon free
      rw [answered] at answered'
      cases answered'
      exact ⟨_, afterLast_absent 47 r.request.url, rfl⟩
    · obtain ⟨response', answered', -⟩ := answer_post_held post free
      rw [answered] at answered'
      cases answered'

/-! ## The store -/

variable [DecidableEq N]

theorem after_of_answer {request : HttpRequest} {response : HttpResponse} {change : Option Change}
    (answered : server.answer disk request = .ok (response, change)) :
    server.after disk request = disk.apply change := by
  rw [after, answered]

theorem after_of_get (get : r.request.method = .kGet) : server.after disk r.request = disk := by
  rw [after]
  split
  · rename_i response change answered
    rw [answer_get_unchanged get answered]
    rfl
  · rfl

/-- **The server does what the store does**: a request leads to the disk that holds what the
store holds after the call. -/
theorem after_eq (server : FileServer) (disk : Disk N) (r : FileRequest) :
    server.after disk r.request =
      { disk with held := disk.held.after (server.call disk r.request) } := by
  rcases r.method with get | post
  · have noPost : r.request.method ≠ .kPost := by
      rw [get]
      decide
    rw [after_of_get get, call, if_neg noPost]
    rfl
  · rw [call, if_pos post]
    by_cases free : disk.occupant (server.filePath r.request) = none
    · have atNode : disk.held (disk.resolve (server.filePath r.request)) = none := free
      obtain ⟨response, answered, -⟩ := answer_post_free post r.notRoot r.notIcon free
      rw [after_of_answer answered, Store.after_put_free atNode]
      rfl
    · have atNode : disk.held (disk.resolve (server.filePath r.request)) ≠ none := free
      obtain ⟨response, answered, -⟩ := answer_post_held post free
      rw [after_of_answer answered, Store.after_put_held atNode]
      rfl

/-- **Run lemma**: a run is a run of the store. -/
theorem afterAll_eq (server : FileServer) (disk : Disk N) (requests : List FileRequest) :
    server.afterAll disk requests =
      { disk with held := disk.held.afterAll (requests.map fun r => server.call disk r.request) } := by
  induction requests generalizing disk with
  | nil => rfl
  | cons r requests ih =>
      have first := after_eq server disk r
      rw [afterAll, List.foldl_cons, ← afterAll, first, ih]
      rfl

/-- What a POST or a GET does, in a state of the disk that the requests `earlier` have led to. -/
structure WriteOnce (server : FileServer) (disk : Disk N) (earlier : List FileRequest)
    (r : FileRequest) : Prop where
  /-- A POST where there is nothing stores the body there, and nothing elsewhere. -/
  created : r.request.method = .kPost →
    (server.afterAll disk earlier).occupant (server.filePath r.request) = none →
    (∃ response change, server.answer (server.afterAll disk earlier) r.request =
        .ok (response, change) ∧ response.statusCode = .k201Created) ∧
      (server.after (server.afterAll disk earlier) r.request).system.Holds
        (server.filePath r.request) ⟨r.request.body, r.bounded⟩ ∧
      ∀ path, disk.resolve path ≠ disk.resolve (server.filePath r.request) →
        (server.after (server.afterAll disk earlier) r.request).occupant path =
          (server.afterAll disk earlier).occupant path
  /-- A POST where there is something changes nothing. -/
  conflict : r.request.method = .kPost →
    (server.afterAll disk earlier).occupant (server.filePath r.request) ≠ none →
    (∃ response change, server.answer (server.afterAll disk earlier) r.request =
        .ok (response, change) ∧ response.statusCode = .k409Conflict) ∧
      server.after (server.afterAll disk earlier) r.request = server.afterAll disk earlier
  unchanged : r.request.method = .kGet →
    server.after (server.afterAll disk earlier) r.request = server.afterAll disk earlier
  /-- A GET of a name that an earlier POST created is answered with the body of that POST. -/
  readBack : r.request.method = .kGet → ∀ before upload between,
    earlier = before ++ upload :: between → upload.request.method = .kPost →
    (∃ response change, server.answer (server.afterAll disk before) upload.request =
      .ok (response, change) ∧ response.statusCode = .k201Created) →
    afterLast 47 r.request.url = afterLast 47 upload.request.url →
    ∃ response change, server.answer (server.afterAll disk earlier) r.request =
        .ok (response, change) ∧
      response.Shows .k200OK (HttpServer.closes r.request) upload.request.body
        (some (toDecimal upload.request.body.length))
  /-- Whatever is written is under the root, at a name without a slash. -/
  confined : ∀ response path data, server.answer (server.afterAll disk earlier) r.request =
      .ok (response, some (.wrote path data)) →
    ∃ name, 47 ∉ name ∧ path = server.rootPath ++ name

/-- What an upload has stored is there after any requests. -/
theorem stored_stays (server : FileServer) (disk : Disk N) (before between : List FileRequest)
    {upload : FileRequest} (post : upload.request.method = .kPost)
    (free : (server.afterAll disk before).occupant (server.filePath upload.request) = none) :
    (server.afterAll disk (before ++ upload :: between)).occupant
      (server.filePath upload.request) = some (.file ⟨upload.request.body, upload.bounded⟩) := by
  have isPut : server.call disk upload.request =
      .put (disk.resolve (server.filePath upload.request))
        (.file ⟨upload.request.body, upload.bounded⟩) := by
    rw [call, if_pos post, FileContent.ofBytes_eq upload.bounded]
  rw [afterAll_eq] at free ⊢
  have atNode : disk.held.afterAll (before.map fun r => server.call disk r.request)
      (disk.resolve (server.filePath upload.request)) = none := free
  show (disk.held.afterAll _) _ = _
  rw [List.map_append, List.map_cons, Store.afterAll_append, isPut]
  exact Store.afterAll_put atNode _ _

/-- **POST and GET are a file store in which a name is written once**, whatever requests come
before and between. -/
theorem post_get_write_once (server : FileServer) (disk : Disk N) (earlier : List FileRequest)
    (r : FileRequest) : server.WriteOnce disk earlier r where
  created post free := by
    obtain ⟨response, answered, created⟩ := answer_post_free post r.notRoot r.notIcon free
    have later := after_of_answer answered
    refine ⟨⟨response, _, answered, created⟩, ?_, ?_⟩
    · rw [later, Disk.holds_iff]
      exact Disk.occupant_wrote r.bounded
    · intro path elsewhere
      rw [later]
      apply Disk.occupant_wrote_of_ne
      rwa [afterAll_eq]
  conflict post held := by
    obtain ⟨response, answered, conflict⟩ := answer_post_held post held
    exact ⟨⟨response, none, answered, conflict⟩, after_of_answer answered⟩
  unchanged get := after_of_get get
  readBack get before upload between same post created name := by
    obtain ⟨response, change, answered, isCreated⟩ := created
    have free := free_of_created post answered isCreated
    have stored := stored_stays server disk before between post free
    have path : server.filePath r.request = server.filePath upload.request := by
      rw [filePath, name, filePath]
    rw [← same, ← path] at stored
    obtain ⟨response, answered, shows⟩ := answer_get_file get stored
    exact ⟨response, none, answered, shows⟩
  confined _ _ _ := answer_confined

/-- A disk with nothing on it, where each path is its own node. -/
def emptyDisk : Disk Bytes where
  resolve := id
  held := fun _ => none
  entries := fun _ _ => none
  describe := fun _ => []

def storedUpload : FileRequest where
  request :=
    { method := .kPost
      version := .kHttp11
      url := ascii "/upload/a.txt"
      body := ascii "hello" }
  method := Or.inr rfl
  notRoot := by decide
  notIcon := by decide
  noRange := rfl
  bounded := by decide

/-- The same name behind another prefix. -/
def storedDownload : FileRequest where
  request :=
    { method := .kGet
      version := .kHttp11
      url := ascii "/download/x/a.txt" }
  method := Or.inl rfl
  notRoot := by decide
  notIcon := by decide
  noRange := rfl
  bounded := by decide

theorem post_get_write_once_reads_back :
    ∃ response change,
      ({} : FileServer).answer (({} : FileServer).afterAll emptyDisk [storedUpload])
        storedDownload.request = .ok (response, change) ∧
      response.Shows .k200OK false (ascii "hello") (some (ascii "5")) := by
  have created := ((post_get_write_once {} emptyDisk [] storedUpload).created rfl rfl).1
  exact (post_get_write_once {} emptyDisk [storedUpload] storedDownload).readBack rfl []
    storedUpload [] rfl rfl created (by decide)

end FileServer

end CppFileServer.Http
