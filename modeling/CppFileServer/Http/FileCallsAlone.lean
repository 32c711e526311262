/-
# Http.FileCallsAlone -- the system calls of one request, with nothing in between

When no other request comes between its system calls, a request does what
`AnalyzeRequest` does in one step on the disk: the same response and the same
change, however its bytes are cut into reads and writes.  `Partway` is what each of
its calls has found and done so far.
-/
import CppFileServer.Http.ConcurrentFiles
import CppFileServer.Theory.Settling
import Mathlib.Data.Prod.Lex

namespace CppFileServer.Http

set_option autoImplicit false

open CppFileServer.Cpp CppFileServer.Theory CppFileServer.Utils

variable {N : Type} [DecidableEq N]

/-- The volume after a new file has been given these bytes. -/
def stored (start : Volume N) (node : N) (data : Bytes) : Volume N :=
  { start with
    entry := Function.update start.entry node (some (.file start.fresh))
    content := Function.update start.content start.fresh (.ofBytes data)
    fresh := start.fresh + 1 }

theorem disk_stored {start : Volume N} (sound : start.Sound) (path data : Bytes) :
    (stored start (start.resolve path) data).disk = start.disk.apply (some (.wrote path data)) := by
  have held : (stored start (start.resolve path) data).disk.held =
      Function.update start.disk.held (start.resolve path) (some (.file (.ofBytes data))) := by
    funext node
    show (Function.update start.entry _ _ node).map _ = _
    by_cases here : node = start.resolve path
    · subst here
      rw [Function.update_self, Function.update_self]
      show some (Occupant.file (Function.update start.content start.fresh _ start.fresh)) = _
      rw [Function.update_self]
    · rw [Function.update_of_ne here, Function.update_of_ne here]
      show _ = (start.entry node).map start.occupant
      cases there : start.entry node with
      | none => rfl
      | some entry =>
          cases entry with
          | directory removable openable size => rfl
          | file inode =>
              have old : inode ≠ start.fresh := ne_of_lt (sound.used node inode there)
              show some (Occupant.file (Function.update start.content start.fresh _ inode)) = _
              rw [Function.update_of_ne old]
              rfl
  have whole (disk : Disk N) : disk = ⟨disk.resolve, disk.held, disk.entries, disk.describe⟩ := rfl
  rw [whole (stored start (start.resolve path) data).disk, held]
  rfl

theorem create_free {start : Volume N} {path : Bytes}
    (free : start.entry (start.resolve path) = none) :
    start.create path = .ok (stored start (start.resolve path) [], start.fresh) := by
  rw [Volume.create, free]
  rfl

theorem write_stored (start : Volume N) (node : N) {body : Bytes} {offset : Nat}
    (bounded : body.length ≤ maxSize) (inside : offset ≤ body.length) (count : Nat) :
    (stored start node (body.take offset)).write start.fresh offset
        ((body.drop offset).take count) =
      stored start node (body.take (offset + ((body.drop offset).take count).length)) := by
  have before : ((stored start node (body.take offset)).content start.fresh).bytes =
      body.take offset := by
    show (Function.update start.content start.fresh _ start.fresh).bytes = _
    rw [Function.update_self]
    exact List.take_of_length_le ((List.length_take_le' _ _).trans bounded)
  rw [Volume.write, before, Volume.overwrite_next body offset count inside]
  show ({ stored start node (body.take offset) with
    content := Function.update (Function.update start.content start.fresh _) start.fresh _ } :
      Volume N) = _
  rw [Function.update_idem]
  rfl

namespace FileServer

variable {server : FileServer} {start : Volume N} {r : FileRequest}

/-- What a request has found and done at each of its calls, when it is alone. -/
def Partway (server : FileServer) (start : Volume N) (r : FileRequest) (volume : Volume N) :
    FileCall → Prop
  | .begun => volume = start
  | .creating => volume = start ∧ r.request.method = .kPost ∧
      start.entry (start.resolve (server.filePath r.request)) = none
  | .writing inode offset => r.request.method = .kPost ∧
      start.entry (start.resolve (server.filePath r.request)) = none ∧ inode = start.fresh ∧
      offset ≤ r.request.body.length ∧
      volume = stored start (start.resolve (server.filePath r.request)) (r.request.body.take offset)
  | .opening => volume = start ∧ r.request.method = .kGet
  | .measuring opened => volume = start ∧ r.request.method = .kGet ∧
      start.openEntry (server.filePath r.request) = .ok opened
  | .reading opened size got => volume = start ∧ r.request.method = .kGet ∧
      start.openEntry (server.filePath r.request) = .ok opened ∧ size = start.measure opened ∧
      FileSystem.checkSize size = .ok () ∧ got = (start.bytes opened).take got.length
  | .sizing body => volume = start ∧ r.request.method = .kGet ∧
      start.disk.system.readFileBinary (server.filePath r.request) = .ok body
  | .answered response => ∃ change, server.answer start.disk r.request = .ok (response, change) ∧
      volume.disk = start.disk.apply change

omit [DecidableEq N] in
/-- What an upload answers, in one step. -/
theorem answer_upload (server : FileServer) (start : Volume N)
    (post : r.request.method = .kPost) :
    server.answer start.disk r.request =
      if start.entry (start.resolve (server.filePath r.request)) = none then
        .ok (createdResponse (.construct (HttpServer.closes r.request)),
          some (.wrote (server.filePath r.request) r.request.body))
      else .ok (conflictResponse (.construct (HttpServer.closes r.request)), none) := by
  rw [answer_of_post post r.notRoot r.notIcon, handleUpload, Volume.pathExists_disk,
    FileResult.ok_bind]
  cases there : start.entry (start.resolve (server.filePath r.request)) with
  | none =>
      have absent : start.disk.occupant (server.filePath r.request) = none := by
        show (start.entry (start.resolve (server.filePath r.request))).map _ = none
        rw [there, Option.map_none]
      simp only [Option.isSome_none, FileSystem.writeFileBinary, Disk.creatable_of_absent absent,
        if_true, FileResult.ok_bind]
      rfl
  | some entry => rfl

omit [DecidableEq N] in
/-- What a download answers, in one step. -/
theorem answer_download (server : FileServer) (start : Volume N)
    (get : r.request.method = .kGet) :
    server.answer start.disk r.request = (do
      let body ← start.disk.system.readFileBinary (server.filePath r.request)
      let size ← start.disk.system.getFileSize (server.filePath r.request)
      pure (downloadResponse (.construct (HttpServer.closes r.request))
        (server.filePath r.request) body size, none)) := by
  have plain : server.answer start.disk r.request = unchanged (buildDownloadResponse
      start.disk.system (.construct (HttpServer.closes r.request))
      (server.filePath r.request) true) := by
    rw [answer_of_get get, handleDownload, Volume.pathExists_disk, FileResult.ok_bind, r.noRange]
    cases (start.entry (start.resolve (server.filePath r.request))).isSome with
    | true => rfl
    | false => rfl
  rw [plain, unchanged, buildDownloadResponse]
  cases start.disk.system.readFileBinary (server.filePath r.request) with
  | error fault => rfl
  | ok body =>
      cases start.disk.system.getFileSize (server.filePath r.request) with
      | error fault => rfl
      | ok size => rfl

omit [DecidableEq N] in
/-- A stream has what the system gives of the path. -/
theorem openFile_disk (start : Volume N) (path : Bytes) :
    start.disk.system.openFile path = (do
      let opened ← start.openEntry path
      pure (start.bytes opened, start.measure opened)) := by
  unfold Volume.openEntry FileSystem.openFile
  cases there : start.entry (start.resolve path) with
  | none =>
      have held : start.disk.occupant path = none := by
        show (start.entry (start.resolve path)).map _ = none
        rw [there, Option.map_none]
      simp only [Disk.system, held]
      rfl
  | some entry =>
      have held : start.disk.occupant path = _ := Volume.occupant_of_entry there
      cases entry with
      | file inode =>
          simp only [Disk.system, held, Volume.occupant]
          rfl
      | directory removable openable size =>
          cases openable with
          | true =>
              simp only [Disk.system, held, Volume.occupant]
              rfl
          | false =>
              simp only [Disk.system, held, Volume.occupant]
              rfl

omit [DecidableEq N] in
theorem readFileBinary_of_openEntry {path : Bytes} {opened : DirEntry}
    (found : start.openEntry path = .ok opened)
    (fits : FileSystem.checkSize (start.measure opened) = .ok ()) :
    start.disk.system.readFileBinary path =
      .ok (FileSystem.readInto (start.bytes opened) 0 (start.measure opened)) := by
  rw [FileSystem.readFileBinary, openFile_disk, found]
  simp only [FileResult.ok_bind, fits, pure_bind]
  rfl

omit [DecidableEq N] in
theorem bytes_length_le (start : Volume N) (opened : DirEntry) :
    (start.bytes opened).length ≤ start.measure opened := by
  cases opened with
  | file inode => exact le_refl _
  | directory removable openable size => exact Nat.zero_le _

/-- **Step lemma**: one call of a request that is alone. -/
theorem Partway.advances (sound : start.Sound) {volume volume' : Volume N} {p next : FileCall}
    (partway : Partway server start r volume p)
    (advances : Advances server volume r p volume' next) :
    Partway server start r volume' next := by
  cases advances with
  | conflict post held =>
      obtain rfl : volume = start := partway
      refine ⟨none, ?_, rfl⟩
      rw [answer_upload server volume post, if_neg held]
  | passes post free =>
      obtain rfl : volume = start := partway
      exact ⟨rfl, post, free⟩
  | looks get =>
      obtain rfl : volume = start := partway
      exact ⟨rfl, r.method.resolve_right get⟩
  | creates created =>
      obtain ⟨rfl, post, free⟩ := partway
      rw [create_free free] at created
      cases created
      exact ⟨post, free, rfl, Nat.zero_le _, rfl⟩
  | @writes inode offset count more positive =>
      obtain ⟨post, free, rfl, inside, rfl⟩ := partway
      refine ⟨post, free, rfl, ?_, write_stored start _ r.bounded inside count⟩
      rw [List.length_take, List.length_drop]
      omega
  | @wrote inode offset all =>
      obtain ⟨post, free, rfl, inside, rfl⟩ := partway
      refine ⟨some (.wrote (server.filePath r.request) r.request.body), ?_, ?_⟩
      · rw [answer_upload server start post, if_pos free]
      · rw [List.take_of_length_le all, disk_stored sound]
  | opens found =>
      obtain ⟨rfl, get⟩ := partway
      exact ⟨rfl, get, found⟩
  | measures fits =>
      obtain ⟨rfl, get, found⟩ := partway
      exact ⟨rfl, get, found, rfl, fits, rfl⟩
  | @reads opened size count got more =>
      obtain ⟨rfl, get, found, rfl, fits, front⟩ := partway
      exact ⟨rfl, get, found, rfl, fits, Volume.append_drop_take front count⟩
  | @ends opened size count got asked nothing =>
      obtain ⟨rfl, get, found, rfl, fits, front⟩ := partway
      refine ⟨rfl, get, ?_⟩
      rw [readFileBinary_of_openEntry found fits,
        Volume.readInto_of_ended front (bytes_length_le volume opened) asked nothing]
  | @sizes body size sized =>
      obtain ⟨rfl, get, read⟩ := partway
      refine ⟨none, ?_, rfl⟩
      rw [answer_download server volume get, read, FileResult.ok_bind, sized, FileResult.ok_bind]
      rfl

/-- An exception of a call is the exception of the request. -/
theorem Partway.throws {volume : Volume N} {p : FileCall} {chunk : Nat} {fault : FileFault}
    (partway : Partway server start r volume p)
    (thrown : server.advance volume r chunk p = .error fault) :
    server.answer start.disk r.request = .error fault := by
  cases p with
  | begun =>
      simp only [advance, Volume.pathExists_disk, FileResult.ok_bind] at thrown
      split_ifs at thrown <;> cases thrown
  | creating =>
      obtain ⟨rfl, -, free⟩ := partway
      simp only [advance, create_free free, FileResult.ok_bind] at thrown
      cases thrown
  | writing inode offset =>
      simp only [advance] at thrown
      split_ifs at thrown <;> cases thrown
  | opening =>
      obtain ⟨rfl, get⟩ := partway
      cases found : volume.openEntry (server.filePath r.request) with
      | ok opened =>
          simp only [advance, found, FileResult.ok_bind] at thrown
          cases thrown
      | error fault' =>
          simp only [advance, found, FileResult.error_bind] at thrown
          cases thrown
          rw [answer_download server volume get, FileSystem.readFileBinary, openFile_disk, found]
          rfl
  | measuring opened =>
      obtain ⟨rfl, get, found⟩ := partway
      cases fits : FileSystem.checkSize (volume.measure opened) with
      | ok _ =>
          simp only [advance, fits, FileResult.ok_bind] at thrown
          cases thrown
      | error fault' =>
          simp only [advance, fits, FileResult.error_bind] at thrown
          cases thrown
          rw [answer_download server volume get, FileSystem.readFileBinary, openFile_disk, found]
          simp only [FileResult.ok_bind, pure_bind, fits]
          rfl
  | reading opened size got =>
      simp only [advance] at thrown
      split_ifs at thrown <;> cases thrown
  | sizing body =>
      obtain ⟨rfl, get, read⟩ := partway
      cases sized : volume.disk.system.getFileSize (server.filePath r.request) with
      | ok size =>
          simp only [advance, sized, FileResult.ok_bind] at thrown
          cases thrown
      | error fault' =>
          simp only [advance, sized, FileResult.error_bind] at thrown
          cases thrown
          rw [answer_download server volume get, read, FileResult.ok_bind, sized]
          rfl
  | answered response => cases thrown

/-- The calls that are left, and the bytes that are left to be moved in one kind of call. -/
def remaining (r : FileRequest) : FileCall → ℕ ×ₗ ℕ
  | .begun => toLex (6, 0)
  | .creating => toLex (5, 0)
  | .writing _ offset => toLex (4, r.request.body.length - offset)
  | .opening => toLex (5, 0)
  | .measuring _ => toLex (4, 0)
  | .reading _ size got => toLex (3, size - got.length)
  | .sizing _ => toLex (2, 0)
  | .answered _ => toLex (1, 0)

theorem Partway.remaining_lt {volume volume' : Volume N} {p next : FileCall}
    (partway : Partway server start r volume p)
    (advances : Advances server volume r p volume' next) : remaining r next < remaining r p := by
  have fewer {i j k l : Nat} (less : i < j) : (toLex (i, k) : ℕ ×ₗ ℕ) < toLex (j, l) :=
    Prod.Lex.toLex_lt_toLex.mpr (Or.inl less)
  have closer {i k l : Nat} (less : k < l) : (toLex (i, k) : ℕ ×ₗ ℕ) < toLex (i, l) :=
    Prod.Lex.toLex_lt_toLex.mpr (Or.inr ⟨rfl, less⟩)
  cases advances with
  | conflict post held => exact fewer (by decide)
  | passes post free => exact fewer (by decide)
  | looks get => exact fewer (by decide)
  | creates created => exact fewer (by decide)
  | @writes inode offset count more positive =>
      refine closer ?_
      rw [List.length_take, List.length_drop]
      omega
  | wrote all => exact fewer (by decide)
  | opens found => exact fewer (by decide)
  | measures fits => exact fewer (by decide)
  | @reads opened size count got more =>
      obtain ⟨rfl, get, found, rfl, fits, front⟩ := partway
      have longer : 0 < (volume.readAt opened got.length count).length :=
        List.length_pos_iff.mpr more
      have next := congrArg List.length (Volume.append_drop_take front count)
      have whole := bytes_length_le volume opened
      refine closer ?_
      rw [List.length_take] at next
      rw [List.length_append]
      rw [Volume.readAt] at longer ⊢
      rw [List.length_append] at next
      omega
  | ends asked nothing => exact fewer (by decide)
  | sizes sized => exact fewer (by decide)

/-! ## The run of a request that is alone -/

/-- One call of a request that is alone. -/
def CallsNext (server : FileServer) (r : FileRequest) (x y : Volume N × FileCall) : Prop :=
  (∀ response, x.2 ≠ .answered response) ∧ ∃ chunk, server.advance x.1 r chunk x.2 = .ok y

/-- A request that is alone comes to its response, if `AnalyzeRequest` returns one. -/
theorem settles_alone (sound : start.Sound) {response : HttpResponse} {change : Option Change}
    (answers : server.answer start.disk r.request = .ok (response, change)) :
    Settling (CallsNext server r) (fun x => Partway server start r x.1 x.2)
      (fun x => ∃ response, x.2 = .answered response) (fun x => remaining r x.2) where
  kept := by
    rintro ⟨volume, p⟩ ⟨volume', next⟩ partway ⟨unanswered, chunk, advanced⟩
    exact partway.advances sound (advances_of_advance unanswered advanced)
  falls := by
    rintro ⟨volume, p⟩ ⟨volume', next⟩ partway ⟨unanswered, chunk, advanced⟩
    exact partway.remaining_lt (advances_of_advance unanswered advanced)
  goes := by
    rintro ⟨volume, p⟩ partway unanswered
    cases advanced : server.advance volume r 0 p with
    | ok y => exact ⟨y, fun response isAnswer => unanswered ⟨response, isAnswer⟩, 0, advanced⟩
    | error fault =>
        rw [partway.throws advanced] at answers
        cases answers

/-- **A request that is alone does what `AnalyzeRequest` does in one step.**  However its bytes
are cut into system calls, an exception of one of them is the exception of the request; and
when the request is answered, its calls come to an end, always with that response and with
that change of the disk. -/
theorem alone_answers (sound : start.Sound) {x : Volume N × FileCall}
    (reached : Relation.ReflTransGen (CallsNext server r) (start, .begun) x) :
    (∀ chunk fault, server.advance x.1 r chunk x.2 = .error fault →
      server.answer start.disk r.request = .error fault) ∧
    ∀ response change, server.answer start.disk r.request = .ok (response, change) →
      (¬ ∃ run : ℕ → Volume N × FileCall, run 0 = x ∧
        ∀ n, CallsNext server r (run n) (run (n + 1))) ∧
      ∃ volume, Relation.ReflTransGen (CallsNext server r) x (volume, .answered response) ∧
        volume.disk = start.disk.apply change := by
  have partway : Partway server start r x.1 x.2 := by
    induction reached with
    | refl => exact rfl
    | tail _ next ih =>
        obtain ⟨unanswered, chunk, advanced⟩ := next
        exact ih.advances sound (advances_of_advance unanswered advanced)
  refine ⟨fun chunk fault thrown => partway.throws thrown, ?_⟩
  intro response change answers
  have settles := settles_alone sound answers
  refine ⟨settles.no_endless_run partway, ?_⟩
  obtain ⟨⟨volume, p⟩, later, response', isAnswer⟩ := settles.rests partway
  obtain rfl : p = .answered response' := isAnswer
  obtain ⟨change', answers', disk⟩ : Partway server start r volume (.answered response') :=
    settles.reaches partway later
  rw [answers] at answers'
  cases answers'
  exact ⟨volume, later, disk⟩

theorem alone_answers_upload :
    ∃ (volume : Volume Bytes) (response : HttpResponse),
      Relation.ReflTransGen (CallsNext {} storedUpload) (ConcurrentFiles.emptyVolume, .begun)
        (volume, .answered response) ∧ response.statusCode = .k201Created ∧
      volume.disk.occupant (ascii "../files/a.txt") =
        some (.file ⟨ascii "hello", by decide⟩) := by
  have free : ConcurrentFiles.emptyVolume.entry (ConcurrentFiles.emptyVolume.resolve
      (({} : FileServer).filePath storedUpload.request)) = none := rfl
  have answers := answer_upload (r := storedUpload) {} ConcurrentFiles.emptyVolume rfl
  rw [if_pos free] at answers
  obtain ⟨-, volume, later, disk⟩ :=
    (alone_answers ConcurrentFiles.emptyVolume_sound .refl).2 _ _ answers
  refine ⟨volume, _, later, rfl, ?_⟩
  rw [disk]
  exact Disk.occupant_wrote (by decide)

end FileServer

end CppFileServer.Http
