/-
# Http.SharedStore -- the file server, from the first connection to the last

`AnalyzeRequest` behind `on_request_`: all connections read and change one disk.  By
`one_order` their calls come one after another, so what a name holds is a fact about the
whole history: an upload answered with 201 on one connection is what every later download of
the name gets on any connection, as long as no DELETE removes it (`upload_read_back`), and
nothing but the names under the root and in the working directory is ever changed
(`files_confined`).

An exception that leaves `AnalyzeRequest` ends the process; the state is `none` from there.
-/
import CppFileServer.Http.FileStore
import CppFileServer.Http.SharedServer

namespace CppFileServer.Http

set_option autoImplicit false

open CppFileServer.Cpp CppFileServer.Tcp CppFileServer.Theory CppFileServer.Utils

namespace FileServer

variable {N : Type} [DecidableEq N]

/-- `AnalyzeRequest` on a disk, until an exception ends the process. -/
def onRequest_ (server : FileServer) :
    Option (Disk N) → HttpRequest → HttpResponse → Option (Disk N) × HttpResponse
  | none, _, response => (none, response)
  | some disk, request, response =>
      match server.analyzeRequest disk.system request response with
      | .ok (response, change) => (some (disk.apply change), response)
      | .error _ => (none, response)

/-- The `HttpServer` that the constructor sets up, with the timeout in microseconds. -/
def httpServer (server : FileServer) (timeout : Int) : HttpServer (Option (Disk N)) where
  onRequest_ := server.onRequest_
  timeout := timeout

/-! ## What one request changes -/

variable {server : FileServer} {disk : Disk N} {request : HttpRequest} {response : HttpResponse}
  {change : Option Change}

omit [DecidableEq N] in
/-- A request writes where there was nothing, or removes what it names, or changes nothing. -/
theorem answer_change (answered : server.answer disk request = .ok (response, change)) :
    change = none ∨
      disk.occupant (server.filePath request) = none ∧
        change = some (.wrote (server.filePath request) request.body) ∨
      request.method = .kDelete ∧ change = some (.removed (afterLast 47 request.url)) := by
  rw [answer, analyzeRequest] at answered
  split_ifs at answered with atRoot atIcon get post delete
  · exact Or.inl (unchanged_eq_ok.mp answered).2
  · exact Or.inl (unchanged_eq_ok.mp answered).2
  · exact Or.inl (unchanged_eq_ok.mp answered).2
  · rw [handleUpload, Disk.pathExists_eq, FileResult.ok_bind] at answered
    cases held : disk.occupant (server.filePath request) with
    | some occupant =>
        simp only [held, Option.isSome_some] at answered
        cases answered
        exact Or.inl rfl
    | none =>
        simp only [held, Option.isSome_none, FileSystem.writeFileBinary,
          Disk.creatable_of_absent held, if_true, FileResult.ok_bind] at answered
        cases answered
        exact Or.inr (Or.inl ⟨rfl, rfl⟩)
  · rw [handleDelete, Disk.pathExists_eq, FileResult.ok_bind] at answered
    cases held : disk.occupant (server.filePath request) with
    | none =>
        simp only [held, Option.isSome_none] at answered
        cases answered
        exact Or.inl rfl
    | some occupant =>
        simp only [held, Option.isSome_some] at answered
        obtain ⟨removed, deleted, same⟩ := FileResult.bind_eq_ok answered
        cases same
        rcases FileSystem.deleteFile_eq_ok deleted with rfl | rfl
        · exact Or.inl rfl
        · exact Or.inr (Or.inr ⟨delete, rfl⟩)
  · cases answered
    exact Or.inl rfl

omit [DecidableEq N] in
theorem apply_resolve [DecidableEq N] (disk : Disk N) (change : Option Change) :
    (disk.apply change).resolve = disk.resolve := by
  cases change with
  | none => rfl
  | some change => cases change <;> rfl

/-- A file stays until a DELETE removes it. -/
theorem occupant_stays {path : Bytes} {content : FileContent}
    (held : disk.occupant path = some (.file content))
    (answered : server.answer disk request = .ok (response, change))
    (spared : request.method = .kDelete →
      disk.resolve (afterLast 47 request.url) ≠ disk.resolve path) :
    (disk.apply change).occupant path = some (.file content) := by
  rcases answer_change answered with rfl | ⟨free, rfl⟩ | ⟨delete, rfl⟩
  · exact held
  · have elsewhere : disk.resolve path ≠ disk.resolve (server.filePath request) := by
      intro same
      rw [Disk.occupant, ← same] at free
      rw [Disk.occupant, free] at held
      cases held
    rw [Disk.occupant_wrote_of_ne elsewhere, held]
  · rw [Disk.occupant_removed_of_ne (spared delete).symm, held]

/-- The server writes under the root, and removes names of the working directory. -/
structure Reachable (server : FileServer) (disk : Disk N) (path name : Bytes) : Prop where
  plain : 47 ∉ name
  leads : disk.resolve path = disk.resolve (server.rootPath ++ name) ∨
    disk.resolve path = disk.resolve name

/-- What the names do not lead to is left alone. -/
theorem occupant_unreachable {path : Bytes}
    (unreachable : ∀ name, ¬ Reachable server disk path name)
    (answered : server.answer disk request = .ok (response, change)) :
    (disk.apply change).occupant path = disk.occupant path := by
  have plain : 47 ∉ afterLast 47 request.url := afterLast_absent 47 request.url
  rcases answer_change answered with rfl | ⟨-, rfl⟩ | ⟨-, rfl⟩
  · rfl
  · exact Disk.occupant_wrote_of_ne fun same => unreachable _ ⟨plain, Or.inl same⟩
  · exact Disk.occupant_removed_of_ne fun same => unreachable _ ⟨plain, Or.inr same⟩

/-! ## Histories -/

section Histories

variable {timeout : Int} {disk' : Disk N} {calls later : List (Nat × HttpRequest)}

/-- A call that returns is an answer on the disk. -/
theorem serve_eq_some {world : Option (Disk N)} {request : HttpRequest}
    (running : ((server.httpServer timeout).serve world request).1 = some disk') :
    ∃ disk change, world = some disk ∧
      server.answer disk request =
        .ok (((server.httpServer timeout).serve world request).2, change) ∧
      disk' = disk.apply change := by
  cases world with
  | none => cases running
  | some disk =>
      have served : (server.httpServer timeout).serve (some disk) request =
          match server.answer disk request with
          | .ok (response, change) => (some (disk.apply change), response)
          | .error _ => (none, .construct (HttpServer.closes request)) := rfl
      rw [served] at running ⊢
      cases answered : server.answer disk request with
      | error fault =>
          rw [answered] at running
          cases running
      | ok result =>
          obtain ⟨response, change⟩ := result
          rw [answered] at running
          cases running
          exact ⟨disk, change, rfl, answered, rfl⟩

/-- **Run lemma**: what a request of a running process keeps, all of them keep. -/
theorem outcome_keeps {P : Disk N → Prop} {allowed : HttpRequest → Prop}
    (preserved : ∀ disk request response change, P disk → allowed request →
      server.answer disk request = .ok (response, change) → P (disk.apply change))
    {world : Option (Disk N)} (initial : ∀ disk, world = some disk → P disk)
    (all : ∀ call ∈ calls, allowed call.2)
    (ran : Serial.outcome (server.httpServer timeout).serve world calls = some disk') : P disk' := by
  induction calls using List.reverseRecOn generalizing disk' with
  | nil => exact initial disk' ran
  | append_singleton calls call ih =>
      obtain ⟨c, request⟩ := call
      rw [Serial.outcome_concat] at ran
      obtain ⟨disk, change, earlier, answered, rfl⟩ := serve_eq_some ran
      have before := ih (fun call inside => all call (List.mem_append_left _ inside)) earlier
      exact preserved disk request _ change before (all (c, request) (by simp)) answered

/-- A process that runs has run before. -/
theorem outcome_earlier {world : Option (Disk N)}
    (ran : Serial.outcome (server.httpServer timeout).serve world later = some disk') :
    ∃ disk, world = some disk := by
  induction later using List.reverseRecOn generalizing disk' with
  | nil => exact ⟨disk', ran⟩
  | append_singleton later call ih =>
      obtain ⟨c, request⟩ := call
      rw [Serial.outcome_concat] at ran
      obtain ⟨disk, -, earlier, -, -⟩ := serve_eq_some ran
      exact ih earlier

theorem outcome_resolve {start : Disk N}
    (ran : Serial.outcome (server.httpServer timeout).serve (some start) calls = some disk') :
    disk'.resolve = start.resolve := by
  have preserved (disk : Disk N) (request : HttpRequest) (response : HttpResponse)
      (change : Option Change) (same : disk.resolve = start.resolve) (_ : True)
      (_ : server.answer disk request = .ok (response, change)) :
      (disk.apply change).resolve = start.resolve := by
    rw [apply_resolve, same]
  have initial (disk : Disk N) (same : some start = some disk) : disk.resolve = start.resolve := by
    cases same
    rfl
  exact outcome_keeps preserved initial (fun _ _ => trivial) ran

/-- A file stays through all calls that spare it. -/
theorem outcome_stays {start : Disk N} {path : Bytes} {content : FileContent}
    (held : start.occupant path = some (.file content))
    (spared : ∀ call ∈ calls, call.2.method = .kDelete →
      start.resolve (afterLast 47 call.2.url) ≠ start.resolve path)
    (ran : Serial.outcome (server.httpServer timeout).serve (some start) calls = some disk') :
    disk'.occupant path = some (.file content) := by
  have preserved (disk : Disk N) (request : HttpRequest) (response : HttpResponse)
      (change : Option Change)
      (before : disk.resolve = start.resolve ∧ disk.occupant path = some (.file content))
      (spared : request.method = .kDelete →
        start.resolve (afterLast 47 request.url) ≠ start.resolve path)
      (answered : server.answer disk request = .ok (response, change)) :
      (disk.apply change).resolve = start.resolve ∧
        (disk.apply change).occupant path = some (.file content) := by
    obtain ⟨same, held⟩ := before
    rw [apply_resolve]
    exact ⟨same, occupant_stays held answered (by rw [same]; exact spared)⟩
  have initial (disk : Disk N) (same : some start = some disk) :
      disk.resolve = start.resolve ∧ disk.occupant path = some (.file content) := by
    cases same
    exact ⟨rfl, held⟩
  exact (outcome_keeps preserved initial spared ran).2

/-- An upload answered with 201 has stored its body. -/
theorem upload_stores {upload : FileRequest} (post : upload.request.method = .kPost)
    (answered : server.answer disk upload.request = .ok (response, change))
    (code : response.statusCode = .k201Created) :
    (disk.apply change).occupant (server.filePath upload.request) =
      some (.file ⟨upload.request.body, upload.bounded⟩) := by
  have free := free_of_created post answered code
  obtain ⟨response', stored, -⟩ := answer_post_free post upload.notRoot upload.notIcon free
  rw [answered] at stored
  cases stored
  exact Disk.occupant_wrote upload.bounded

/-- **Upload and download in one history**: what was stored at an upload answered with 201
is what a later download of the name shows, when nothing in between removes it. -/
theorem history_read_back {start : Disk N} {upload download : FileRequest}
    (post : upload.request.method = .kPost) (get : download.request.method = .kGet)
    (name : afterLast 47 download.request.url = afterLast 47 upload.request.url)
    {before between after : List (Nat × HttpRequest × HttpResponse)} {c d : Nat}
    {created response : HttpResponse}
    (split : Serial.history (server.httpServer timeout).serve (some start) calls =
      before ++ (c, upload.request, created) :: between ++ (d, download.request, response) :: after)
    (running : Serial.outcome (server.httpServer timeout).serve (some start) calls = some disk')
    (code : created.statusCode = .k201Created)
    (spared : ∀ call ∈ between, call.2.1.method = .kDelete →
      start.resolve (afterLast 47 call.2.1.url) ≠
        start.resolve (server.filePath upload.request)) :
    response.Shows .k200OK (HttpServer.closes download.request) upload.request.body
      (some (toDecimal upload.request.body.length)) := by
  rw [List.append_assoc, List.cons_append] at split
  obtain ⟨earlier, rest, rfl, -, rfl, remaining⟩ := Serial.history_split split
  obtain ⟨mid, last, rfl, recorded, rfl, -⟩ := Serial.history_split remaining.symm
  -- the process runs on, so every call before has returned
  rw [Serial.outcome_append, Serial.outcome_cons, Serial.outcome_append,
    Serial.outcome_cons] at running
  obtain ⟨disk₃, downloaded⟩ := outcome_earlier running
  obtain ⟨disk₂, _, atDownload, answered, -⟩ := serve_eq_some downloaded
  obtain ⟨disk₁, uploaded⟩ := outcome_earlier atDownload
  obtain ⟨disk, change, atUpload, stored, rfl⟩ := serve_eq_some uploaded
  have held := upload_stores post stored code
  have resolves : (disk.apply change).resolve = start.resolve :=
    (apply_resolve disk change).trans (outcome_resolve atUpload)
  rw [uploaded] at atDownload
  have kept := outcome_stays held (fun call inside => ?_) atDownload
  · have path : server.filePath download.request = server.filePath upload.request := by
      rw [filePath, name, filePath]
    obtain ⟨response, answered', shows⟩ := answer_get_file get (path ▸ kept)
    rw [answered] at answered'
    cases answered'
    exact shows
  · rw [resolves]
    obtain ⟨entry, inBetween, rfl⟩ : ∃ entry ∈ between, (entry.1, entry.2.1) = call := by
      rw [recorded]
      exact Serial.history_entry inside
    exact spared entry inBetween

end Histories

/-! ## Runs of the server -/

section Runs

variable {L : Type} [DecidableEq L] [Fintype L] {timeout : Int} {main : L} {loops : List L}
  {start disk' : Disk N} {s : SharedServer (Option (Disk N)) L}

/-- **An upload is read back by everyone**, where no two calls of `AnalyzeRequest` overlap: in
a process that still runs, every download of the name after an upload that was answered with
201, on any connection, is answered with the body of the upload, as long as no DELETE in
between removes the file. -/
theorem upload_read_back
    (reaches : Reaches (SharedServer.step (server.httpServer timeout) main loops)
      { world := some start } s) (running : s.world = some disk')
    {upload download : FileRequest} (post : upload.request.method = .kPost)
    (get : download.request.method = .kGet)
    (name : afterLast 47 download.request.url = afterLast 47 upload.request.url)
    {before between after : List (Nat × HttpRequest × HttpResponse)} {c d : Nat}
    {created response : HttpResponse}
    (split : Serial.history (server.httpServer timeout).serve (some start) s.calls =
      before ++ (c, upload.request, created) :: between ++ (d, download.request, response) :: after)
    (code : created.statusCode = .k201Created)
    (spared : ∀ call ∈ between, call.2.1.method = .kDelete →
      start.resolve (afterLast 47 call.2.1.url) ≠
        start.resolve (server.filePath upload.request)) :
    response.Shows .k200OK (HttpServer.closes download.request) upload.request.body
        (some (toDecimal upload.request.body.length)) ∧
      ∃ session, s.server.session d = some session ∧ response.message ∈ session.conn.messages := by
  obtain ⟨world, known, -, shares⟩ := SharedServer.serialized_of_reaches reaches
  rw [world] at running
  refine ⟨history_read_back post get name split running code spared, ?_⟩
  have entry : (download.request, response) ∈
      Serial.of d (Serial.history (server.httpServer timeout).serve (some start) s.calls) := by
    rw [split]
    exact Serial.mem_of.mpr (by simp)
  have called : download.request ∈ Serial.of d s.calls := by
    have history : (Serial.of d (Serial.history (server.httpServer timeout).serve (some start)
        s.calls)).map Prod.fst = Serial.of d s.calls := Serial.of_history d
    exact history ▸ List.mem_map_of_mem entry
  cases found : s.server.session d with
  | none =>
      rw [known d found] at called
      cases called
  | some session =>
      refine ⟨session, rfl, ?_⟩
      have answered : response.message ∈
          SharedServer.answersOf (server.httpServer timeout) (some start) s.calls d :=
        List.mem_map_of_mem (f := fun answered => answered.2.message) entry
      rcases (shares d session found).2 with all | ⟨-, all⟩
      · exact all ▸ answered
      · exact all ▸ List.mem_append_left _ answered

/-- **Nothing else is touched**, where no two calls of `AnalyzeRequest` overlap: what no name
without a slash leads to, under the root or in the working directory, is as it was, whatever
the peers have sent to a process that still runs. -/
theorem files_confined
    (reaches : Reaches (SharedServer.step (server.httpServer timeout) main loops)
      { world := some start } s) (running : s.world = some disk') {path : Bytes}
    (unreachable : ∀ name, ¬ Reachable server start path name) :
    disk'.occupant path = start.occupant path := by
  have ran := (SharedServer.serialized_of_reaches reaches).world
  rw [running] at ran
  have preserved (disk : Disk N) (request : HttpRequest) (response : HttpResponse)
      (change : Option Change)
      (before : disk.resolve = start.resolve ∧ disk.occupant path = start.occupant path) (_ : True)
      (answered : server.answer disk request = .ok (response, change)) :
      (disk.apply change).resolve = start.resolve ∧
        (disk.apply change).occupant path = start.occupant path := by
    obtain ⟨same, held⟩ := before
    have unreachable' (name : Bytes) : ¬ Reachable server disk path name := by
      rintro ⟨plain, leads⟩
      rw [same] at leads
      exact unreachable name ⟨plain, leads⟩
    exact ⟨(apply_resolve disk change).trans same,
      (occupant_unreachable unreachable' answered).trans held⟩
  have initial (disk : Disk N) (same : some start = some disk) :
      disk.resolve = start.resolve ∧ disk.occupant path = start.occupant path := by
    cases same
    exact ⟨rfl, rfl⟩
  exact (outcome_keeps preserved initial (fun _ _ => trivial) ran.symm).2

end Runs

/-- One peer uploads a file, another one downloads it. -/
def uploadRun : List (ServerAction (Option (Disk Bytes)) Unit) :=
  SharedServer.twoPeersRun none
    (ascii "POST /upload/a.txt HTTP/1.1\r\nContent-Length: 5\r\n\r\nhello")
    (ascii "GET /download/x/a.txt HTTP/1.1\r\n\r\n")

/-- The two calls of the run, as `FileRequest`s. -/
structure UploadThenDownload (s : SharedServer (Option (Disk Bytes)) Unit) where
  upload : FileRequest
  download : FileRequest
  calls : s.calls = [(0, upload.request), (1, download.request)]
  post : upload.request.method = .kPost
  get : download.request.method = .kGet
  name : afterLast 47 download.request.url = afterLast 47 upload.request.url
  body : upload.request.body = ascii "hello"

/-- The run, and what it hands over. -/
theorem uploadRun_calls :
    ∃ s disk', Reaches (SharedServer.step (({} : FileServer).httpServer 0) () [])
        { world := some emptyDisk } s ∧ s.world = some disk' ∧
      ∃ calls : UploadThenDownload s,
        ((({} : FileServer).httpServer 0).serve (some emptyDisk)
          calls.upload.request).2.statusCode = .k201Created := by
  have performed : ((perform (SharedServer.step (({} : FileServer).httpServer 0) () [])
      { world := some emptyDisk } uploadRun).any fun s => s.world.isSome &&
        (s.calls.map (·.1) = [0, 1] ∧ s.calls.map (·.2.method) = [.kPost, .kGet] ∧
          s.calls.map (·.2.url) = [ascii "/upload/a.txt", ascii "/download/x/a.txt"] ∧
          s.calls.map (·.2.headers (ascii "Range")) = [none, none] ∧
          s.calls.map (·.2.body) = [ascii "hello", []] ∧
          (s.calls.map fun call => ((({} : FileServer).httpServer 0).serve (some emptyDisk)
            call.2).2.statusCode).head? = some .k201Created)) = true := by
    decide +kernel
  obtain ⟨s, performed, known⟩ := (Option.any_eq_true _ _).mp performed
  rw [Bool.and_eq_true] at known
  obtain ⟨running, known⟩ := known
  obtain ⟨disk', running⟩ := Option.isSome_iff_exists.mp running
  obtain ⟨askers, methods, urls, ranges, bodies, code⟩ := of_decide_eq_true known
  have two : s.calls.length = 2 := by rw [← List.length_map (·.1), askers]; rfl
  obtain ⟨⟨c, a⟩, ⟨d, b⟩, calls⟩ := List.length_eq_two.mp two
  rw [calls] at askers methods urls ranges bodies code
  simp only [List.map_cons, List.map_nil, List.cons.injEq, and_true, List.head?_cons,
    Option.some.injEq] at askers methods urls ranges bodies code
  obtain ⟨rfl, rfl⟩ := askers
  refine ⟨s, disk', reaches_of_perform performed, running, ?_⟩
  refine ⟨⟨⟨a, Or.inr methods.1, ?_, ?_, ranges.1, ?_⟩, ⟨b, Or.inl methods.2, ?_, ?_, ranges.2, ?_⟩,
    calls, methods.1, methods.2, ?_, bodies.1⟩, code⟩
  · rw [urls.1]
    decide
  · rw [urls.1]
    decide
  · rw [bodies.1]
    decide
  · rw [urls.2]
    decide
  · rw [urls.2]
    decide
  · rw [bodies.2]
    decide
  · change afterLast 47 b.url = afterLast 47 a.url
    rw [urls.1, urls.2]
    decide +kernel

theorem upload_read_back_hello :
    ∃ s session request, ∃ response : HttpResponse,
      Reaches (SharedServer.step (({} : FileServer).httpServer 0) () []) { world := some emptyDisk } s ∧
      Serial.of 1 s.calls = [request] ∧
      response.Shows .k200OK (HttpServer.closes request) (ascii "hello") (some (ascii "5")) ∧
      s.server.session 1 = some session ∧ response.message ∈ session.conn.messages := by
  obtain ⟨s, disk', reaches, running, calls, code⟩ := uploadRun_calls
  obtain ⟨created, response, split, code⟩ : ∃ created response,
      Serial.history (({} : FileServer).httpServer 0).serve (some emptyDisk) s.calls =
        [] ++ (0, calls.upload.request, created) :: [] ++
          (1, calls.download.request, response) :: [] ∧ created.statusCode = .k201Created := by
    rw [calls.calls]
    exact ⟨_, _, rfl, code⟩
  have shown := upload_read_back reaches running calls.post calls.get calls.name split code
    (by intro call impossible; cases impossible)
  rw [calls.body] at shown
  obtain ⟨shows, session, found, sent⟩ := shown
  exact ⟨s, session, calls.download.request, _, reaches, by rw [calls.calls]; rfl, shows, found, sent⟩

/-- No name leads out of the two directories. -/
theorem files_confined_passwd :
    ∃ (s : SharedServer (Option (Disk Bytes)) Unit) (disk' : Disk Bytes),
      s.world = some disk' ∧ s.calls.length = 2 ∧
      disk'.occupant (ascii "/etc/passwd") = emptyDisk.occupant (ascii "/etc/passwd") := by
  obtain ⟨s, disk', reaches, running, calls, -⟩ := uploadRun_calls
  refine ⟨s, disk', running, by rw [calls.calls]; rfl, files_confined reaches running ?_⟩
  rintro name ⟨plain, leads | leads⟩
  · have path : ascii "/etc/passwd" = 47 :: ascii "etc/passwd" := by decide
    have root : ascii "../files/" = 46 :: ascii "./files/" := by decide
    change ascii "/etc/passwd" = ascii "../files/" ++ name at leads
    rw [path, root, List.cons_append, List.cons.injEq] at leads
    exact absurd leads.1 (by decide)
  · have same : ascii "/etc/passwd" = name := leads
    rw [← same] at plain
    revert plain
    decide

end FileServer

end CppFileServer.Http
