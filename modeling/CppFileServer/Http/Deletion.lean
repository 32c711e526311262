/-
# Http.Deletion -- DELETE among directory entries

`HandleDelete` looks for `root_path_` with the name behind it and then removes the name
alone, which is a path from the working directory.  What goes is the entry of that name
there; it is the one that was named only when both paths name the same entry, not merely
the same file.  Otherwise the file that was named stays, and an entry that was not may go.
-/
import CppFileServer.Http.FileReplies
import CppFileServer.Http.HttpServer
import CppFileServer.Utils.Directories

namespace CppFileServer.Http

set_option autoImplicit false

open CppFileServer.Cpp CppFileServer.Utils CppFileServer.Theory

/-- A DELETE for a file. -/
structure DeleteRequest where
  request : HttpRequest
  method : request.method = .kDelete
  notRoot : request.url ≠ ascii "/"
  notIcon : request.url ≠ ascii "/favicon.ico"

namespace FileServer

variable {I : Type} {server : FileServer} {t : Directories I} {r : DeleteRequest}
  {e : I × Bytes}

def answerIn (server : FileServer) (t : Directories I) (request : HttpRequest) :
    FileResult (HttpResponse × Option Change) :=
  server.analyzeRequest t.system request (.construct (HttpServer.closes request))

theorem answerIn_of_delete (t : Directories I) (r : DeleteRequest) :
    server.answerIn t r.request =
      server.handleDelete t.system r.request (.construct (HttpServer.closes r.request)) := by
  rw [answerIn, analyzeRequest, if_neg r.notRoot, if_neg r.notIcon, r.method]
  rfl

/-- An upload where there is no entry is answered with 201 exactly if a file can be made. -/
theorem upload_created_iff {upload : HttpRequest} (post : upload.method = .kPost)
    (notRoot : upload.url ≠ ascii "/") (notIcon : upload.url ≠ ascii "/favicon.ico")
    {place : I} {name : Bytes}
    (stops : t.find (server.filePath upload) = .error ⟨place, [name], .absent⟩) :
    (∃ response change, server.answerIn t upload = .ok (response, change) ∧
      response.statusCode = .k201Created) ↔ t.creatable t.entry place name = true := by
  rw [answerIn, analyzeRequest_of_post post notRoot notIcon, handleUpload,
    Directories.pathExists_of_absent stops]
  simp only [FileResult.ok_bind, FileSystem.writeFileBinary, Directories.creatable_of_absent stops]
  constructor
  · rintro ⟨response, change, answered, -⟩
    by_contra refused
    rw [if_neg refused] at answered
    cases answered
  · intro creatable
    rw [if_pos creatable]
    exact ⟨_, _, rfl, rfl⟩

variable [DecidableEq I]

/-- The directories behind a request. -/
def afterIn (server : FileServer) (t : Directories I) (request : HttpRequest) : Directories I :=
  match server.answerIn t request with
  | .ok (_, change) => t.apply change
  | .error _ => t

/-- The file that is named goes, and nothing else; when there is nothing at the name,
nothing goes. -/
structure DeletesNamed (server : FileServer) (t : Directories I) (r : DeleteRequest) : Prop where
  gone : ∀ e, t.PlainFile (server.filePath r.request) e →
    ¬ (server.afterIn t r.request).Present (server.filePath r.request)
  others : ∀ e, t.PlainFile (server.filePath r.request) e →
    (server.afterIn t r.request).inode = t.inode ∧
      ∀ place name, (place, name) ≠ e →
        (server.afterIn t r.request).entry place name = t.entry place name
  /-- The name can be used again. -/
  free : ∀ e, t.PlainFile (server.filePath r.request) e →
    ∀ upload : HttpRequest, upload.method = .kPost →
      upload.url ≠ ascii "/" → upload.url ≠ ascii "/favicon.ico" →
      afterLast 47 upload.url = afterLast 47 r.request.url →
      ∃ response change, server.answerIn (server.afterIn t r.request) upload =
        .ok (response, change) ∧ response.statusCode = .k201Created
  nothing : ¬ t.Present (server.filePath r.request) → server.afterIn t r.request = t

/-- The entry can be deleted, and made again, through the two paths of the request. -/
structure Deletable (server : FileServer) (t : Directories I) (r : DeleteRequest) (e : I × Bytes) :
    Prop where
  /-- The process finds the entry, so that `Exists` does not throw. -/
  found : t.lookup (server.filePath r.request) = .ok e
  same : t.lookup (afterLast 47 r.request.url) = .ok e
  removable : t.removable t.entry e.1 e.2 = true
  creatable : t.creatable (t.without e).entry e.1 e.2 = true

/-- What a DELETE does: nothing, or it has found the path, and takes away the entry that the
name alone names. -/
theorem afterIn_cases (server : FileServer) (t : Directories I) (r : DeleteRequest) :
    server.afterIn t r.request = t ∨
      t.system.pathExists (server.filePath r.request) = .ok true ∧
        ∃ e, t.lookup (afterLast 47 r.request.url) = .ok e ∧
          t.removable t.entry e.1 e.2 = true ∧ server.afterIn t r.request = t.without e := by
  rw [afterIn, answerIn_of_delete]
  split
  · rename_i response change answered
    obtain ⟨found, looked, answered⟩ := FileResult.bind_eq_ok answered
    cases found with
    | false =>
        cases answered
        exact Or.inl rfl
    | true =>
        obtain ⟨removed, deleted, answered⟩ := FileResult.bind_eq_ok answered
        cases answered
        rcases FileSystem.deleteFile_eq_ok deleted with rfl | rfl
        · exact Or.inl rfl
        · obtain ⟨e, named, removable⟩ := Directories.deleteFile_eq_removed deleted
          refine Or.inr ⟨looked, e, named, removable, ?_⟩
          simp only [Directories.apply, named]
  · exact Or.inl rfl

theorem afterIn_of_deletable (plain : t.PlainFile (server.filePath r.request) e)
    (deletable : Deletable server t r e) : server.afterIn t r.request = t.without e := by
  obtain ⟨-, there, bytes, readable, writable, held, isFile⟩ := plain
  have found := Directories.pathExists_of_file
    (Directories.find_of_lookup deletable.found held isFile) isFile
  have deleted := Directories.deleteFile_of_lookup deletable.same deletable.removable
  have answered : server.answerIn t r.request = .ok (.construct (HttpServer.closes r.request),
      some (.removed (afterLast 47 r.request.url))) := by
    rw [answerIn_of_delete, handleDelete, found]
    simp only [FileResult.ok_bind, deleted]
    rfl
  simp only [afterIn, answered, Directories.apply, deletable.same]

/-- The path stops at the entry that is gone. -/
theorem find_of_deletable (plain : t.PlainFile (server.filePath r.request) e)
    (found : t.lookup (server.filePath r.request) = .ok e) :
    (t.without e).find (server.filePath r.request) = .error ⟨e.1, [e.2], .absent⟩ := by
  obtain ⟨-, there, bytes, readable, writable, held, isFile⟩ := plain
  exact Directories.find_without found held isFile

theorem deletable_of_deletesNamed (deletes : server.DeletesNamed t r)
    (plain : t.PlainFile (server.filePath r.request) e) : Deletable server t r e := by
  rcases server.afterIn_cases t r with stays | ⟨looked, e', named, removable, removed⟩
  · have gone := deletes.gone e plain
    rw [stays] at gone
    exact absurd (Directories.present_of_plainFile plain) gone
  · -- the entry that went is the one that was named, as no other may have changed
    have same : e' = e := by
      by_contra elsewhere
      have unchanged := (deletes.others e plain).2 e'.1 e'.2 elsewhere
      obtain ⟨-, -, there, -, -, last⟩ := Directories.lookup_eq_ok named
      rw [removed, (Directories.look_eq_ok last).2.2] at unchanged
      simp [Directories.without, Directories.Entries.set] at unchanged
    subst same
    obtain ⟨there, leads⟩ := Directories.pathExists_eq_true looked
    have found := Directories.lookup_of_find leads plain.1
    refine ⟨found, named, removable, ?_⟩
    -- the name is uploaded again
    let upload : HttpRequest := { r.request with method := .kPost }
    have post : upload.method = .kPost := rfl
    have notRoot : upload.url ≠ ascii "/" := r.notRoot
    have notIcon : upload.url ≠ ascii "/favicon.ico" := r.notIcon
    have created := deletes.free e' plain upload post notRoot notIcon rfl
    have stops : (t.without e').find (server.filePath upload) = .error ⟨e'.1, [e'.2], .absent⟩ :=
      find_of_deletable plain found
    rw [removed] at created
    exact (upload_created_iff post notRoot notIcon stops).mp created

/-- **DELETE removes the named file and nothing else exactly if** the entry of each plain file
that is named can be deleted through both paths. -/
theorem deletes_named_iff (server : FileServer) (t : Directories I) (r : DeleteRequest) :
    server.DeletesNamed t r ↔
      ∀ e, t.PlainFile (server.filePath r.request) e → Deletable server t r e := by
  constructor
  · intro deletes e plain
    exact deletable_of_deletesNamed deletes plain
  · intro deletable
    refine ⟨?_, ?_, ?_, ?_⟩
    · rintro e plain ⟨there, leads⟩
      rw [afterIn_of_deletable plain (deletable e plain)] at leads
      have stops : (t.unrestricted.without e).find (server.filePath r.request) =
          .error ⟨e.1, [e.2], .absent⟩ := by
        obtain ⟨named, there, bytes, readable, writable, held, isFile⟩ := plain
        exact Directories.find_without named held isFile
      have same : (t.without e).unrestricted = t.unrestricted.without e := rfl
      rw [same, stops] at leads
      cases leads
    · intro e plain
      rw [afterIn_of_deletable plain (deletable e plain)]
      exact ⟨rfl, fun place name elsewhere => if_neg elsewhere⟩
    · intro e plain upload post notRoot notIcon name
      rw [afterIn_of_deletable plain (deletable e plain)]
      have path : server.filePath upload = server.filePath r.request := by
        rw [filePath, name, filePath]
      have stops := find_of_deletable plain (deletable e plain).found
      rw [← path] at stops
      exact (upload_created_iff post notRoot notIcon stops).mpr (deletable e plain).creatable
    · intro nothing
      rcases server.afterIn_cases t r with stays | ⟨looked, -⟩
      · exact stays
      · obtain ⟨there, leads⟩ := Directories.pathExists_eq_true looked
        exact absurd ⟨there, Directories.find_unrestricted leads⟩ nothing

/-- The directory of the files, the working directory beside it, and a file of one name in
each. -/
def twoFiles : Directories Nat where
  inode := fun found =>
    if found = 3 then .file (ascii "hello") true true
    else if found = 4 then .file (ascii "cat") true true
    else .directory false 0
  entry := fun place name =>
    if (place, name) = (0, ascii "files") then some 1
    else if (place, name) = (0, ascii "bin") then some 2
    else if (place, name) = (1, ascii "a.txt") then some 3
    else if (place, name) = (2, ascii "a.txt") then some 4
    else if name = ascii ".." then some 0
    else none
  root := 0
  working := 2
  searchable := fun _ _ => true
  accepts := fun _ => true
  removable := fun _ _ _ => true
  creatable := fun _ _ _ => true
  newInode := fun _ => 5
  listing := fun _ _ => none
  describe := fun _ => []

def deleteRequest : DeleteRequest where
  request :=
    { method := .kDelete
      version := .kHttp11
      url := ascii "/a.txt" }
  method := rfl
  notRoot := by decide
  notIcon := by decide

/-- The wrong one goes. -/
theorem deletes_named_fails :
    ¬ ({} : FileServer).DeletesNamed twoFiles deleteRequest ∧
      (({} : FileServer).afterIn twoFiles deleteRequest.request).find (ascii "../files/a.txt") =
        .ok 3 ∧
      (({} : FileServer).afterIn twoFiles deleteRequest.request).entry 2 (ascii "a.txt") =
        none := by
  have stays : (({} : FileServer).afterIn twoFiles deleteRequest.request).find
      (ascii "../files/a.txt") = .ok 3 := by rfl
  have plain : twoFiles.PlainFile (({} : FileServer).filePath deleteRequest.request)
      (1, ascii "a.txt") := ⟨by rfl, 3, ascii "hello", true, true, rfl, rfl⟩
  refine ⟨?_, stays, by rfl⟩
  intro deletes
  exact deletes.gone _ plain ⟨3, Directories.find_unrestricted stays⟩

end FileServer

end CppFileServer.Http
