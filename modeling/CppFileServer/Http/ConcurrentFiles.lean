/-
# Http.ConcurrentFiles -- uploads and downloads on several loops at once

`AnalyzeRequest` runs on the loop of the connection, and nothing keeps two loops from
running it at the same time: between the system calls of one request come those of
others.  `advance` is one system call of `HandleUpload` or of `HandleDownload` without
`Range`, and a step is one of any thread.

An upload looks for the name and then creates the file, and what lies between these two
calls decides.  A name that was free is taken by one upload exactly if no other one looks
for it in between (`one_upload_iff`), and then the upload that is answered with 201 is
read back whole (`concurrent_read_back`).
-/
import CppFileServer.Http.FileStore
import CppFileServer.Theory.Machine
import CppFileServer.Utils.OpenFiles

namespace CppFileServer.Http

set_option autoImplicit false

open CppFileServer.Cpp CppFileServer.Theory CppFileServer.Utils

/-- How far a request has come. -/
inductive FileCall
  | begun
  /-- `Exists` has found nothing. -/
  | creating
  | writing (inode offset : Nat)
  | opening
  | measuring (opened : DirEntry)
  | reading (opened : DirEntry) (size : Nat) (got : Bytes)
  /-- `getFileSize` is next. -/
  | sizing (body : Bytes)
  | answered (response : HttpResponse)

namespace FileServer

/-! ## One system call -/

def conflictResponse (response : HttpResponse) : HttpResponse :=
  (response.setStatusCode .k409Conflict).setStatusMessage (ascii "Conflict")

def createdResponse (response : HttpResponse) : HttpResponse :=
  (response.setStatusCode .k201Created).setStatusMessage (ascii "Created")

/-- What `BuildDownloadResponse` sets, with the body it has read and the size it was told. -/
def downloadResponse (response : HttpResponse) (filepath body : Bytes) (size : Nat) :
    HttpResponse :=
  let response := response.setStatusCode .k200OK
  let response := response.setStatusMessage (ascii "OK")
  let response := response.setContentType (PathUtils.getMimeType filepath)
  let response := response.setBody body
  let response := response.setContentLength size
  let response := response.addHeader (ascii "Content-Disposition")
    (ascii "attachment; filename=" ++ PathUtils.getFileName filepath)
  response.addHeader (ascii "Cache-Control") (ascii "no-cache")

/-- The next system call of a request; a read and a write may move up to `chunk + 1` bytes. -/
def advance {N : Type} [DecidableEq N] (server : FileServer) (volume : Volume N) (r : FileRequest)
    (chunk : Nat) : FileCall → FileResult (Volume N × FileCall)
  | .begun => do
      let found ← volume.disk.system.pathExists (server.filePath r.request)
      if r.request.method = .kPost then
        if found then
          pure (volume, .answered (conflictResponse (.construct (HttpServer.closes r.request))))
        else pure (volume, .creating)
      else pure (volume, .opening)
  | .creating => do
      let (volume, inode) ← volume.create (server.filePath r.request)
      pure (volume, .writing inode 0)
  | .writing inode offset =>
      if offset < r.request.body.length then
        let data := (r.request.body.drop offset).take (chunk + 1)
        pure (volume.write inode offset data, .writing inode (offset + data.length))
      else pure (volume, .answered (createdResponse (.construct (HttpServer.closes r.request))))
  | .opening => do
      let opened ← volume.openEntry (server.filePath r.request)
      pure (volume, .measuring opened)
  | .measuring opened => do
      let size := volume.measure opened
      FileSystem.checkSize size
      pure (volume, .reading opened size [])
  | .reading opened size got =>
      let data := volume.readAt opened got.length (min (chunk + 1) (size - got.length))
      if data = [] then pure (volume, .sizing (got ++ List.replicate (size - got.length) 0))
      else pure (volume, .reading opened size (got ++ data))
  | .sizing body => do
      let size ← volume.disk.system.getFileSize (server.filePath r.request)
      pure (volume, .answered (downloadResponse (.construct (HttpServer.closes r.request))
        (server.filePath r.request) body size))
  | .answered response => pure (volume, .answered response)

end FileServer

/-! ## Threads -/

/-- The volume, what each thread is doing, and as a record the uploads for which `Exists`
has found nothing. -/
structure ConcurrentFiles (N T : Type) where
  volume : Volume N
  call : T → Option (FileRequest × FileCall) := fun _ => none
  passed : List FileRequest := []

inductive FilesAction (T : Type)
  | receive (t : T) (r : FileRequest)
  | go (t : T) (chunk : Nat)
  /-- The response is sent. -/
  | send (t : T)

def FilesAction.thread {T : Type} : FilesAction T → T
  | receive t _ => t
  | go t _ => t
  | send t => t

namespace ConcurrentFiles

variable {N T : Type} [DecidableEq N] [DecidableEq T]

def step (server : FileServer) (s : ConcurrentFiles N T) :
    FilesAction T → Option (FileResult (ConcurrentFiles N T))
  | .receive t r =>
      match s.call t with
      | none => some (.ok { s with call := Function.update s.call t (some (r, .begun)) })
      | some _ => none
  | .go t chunk =>
      match s.call t with
      | none => none
      | some (_, .answered _) => none
      | some (r, reached) => some do
          let (volume, next) ← server.advance s.volume r chunk reached
          pure
            { volume := volume
              call := Function.update s.call t (some (r, next))
              passed := match reached, next with
                | .begun, .creating => s.passed ++ [r]
                | _, _ => s.passed }
  | .send t =>
      match s.call t with
      | some (_, .answered _) => some (.ok { s with call := Function.update s.call t none })
      | _ => none

/-- The node of a request. -/
def node (server : FileServer) (s : ConcurrentFiles N T) (r : FileRequest) : N :=
  s.volume.resolve (server.filePath r.request)

/-- The uploads to a node for which `Exists` has found nothing. -/
def passedAt (server : FileServer) (s : ConcurrentFiles N T) (n : N) : List FileRequest :=
  s.passed.filter fun r => s.node server r = n

/-- No upload looks for the node while another one has found nothing there and not created it. -/
def Exclusive (server : FileServer) (n : N) (s : ConcurrentFiles N T) (action : FilesAction T) :
    Prop :=
  ∀ t chunk r, action = .go t chunk → s.call t = some (r, .begun) → r.request.method = .kPost →
    s.node server r = n → s.volume.entry n = none →
    ∀ t' r', s.call t' = some (r', .creating) → s.node server r' ≠ n

end ConcurrentFiles

/-! ## What a system call does -/

namespace FileCall

/-- The call creates or writes a file. -/
def writes : FileCall → Bool
  | creating => true
  | writing _ _ => true
  | _ => false

/-- It does, or its upload has been answered with 201. -/
def involved : FileCall → Bool
  | creating => true
  | writing _ _ => true
  | answered response => response.statusCode = .k201Created
  | _ => false

theorem writes_of_not_involved {p : FileCall} (uninvolved : p.involved = false) : p.writes = false := by
  cases p with
  | creating => cases uninvolved
  | writing inode offset => cases uninvolved
  | _ => rfl

end FileCall

section Calls

variable {N : Type} [DecidableEq N]

/-- The calls that return, by what is done in them. -/
inductive Advances (server : FileServer) (volume : Volume N) (r : FileRequest) :
    FileCall → Volume N → FileCall → Prop
  | conflict (post : r.request.method = .kPost)
      (held : volume.entry (volume.resolve (server.filePath r.request)) ≠ none) :
      Advances server volume r .begun volume
        (.answered (FileServer.conflictResponse (.construct (HttpServer.closes r.request))))
  | passes (post : r.request.method = .kPost)
      (free : volume.entry (volume.resolve (server.filePath r.request)) = none) :
      Advances server volume r .begun volume .creating
  | looks (get : r.request.method ≠ .kPost) : Advances server volume r .begun volume .opening
  | creates {volume' : Volume N} {inode : Nat}
      (created : volume.create (server.filePath r.request) = .ok (volume', inode)) :
      Advances server volume r .creating volume' (.writing inode 0)
  | writes {inode offset count : Nat} (more : offset < r.request.body.length)
      (positive : 0 < count) :
      Advances server volume r (.writing inode offset)
        (volume.write inode offset ((r.request.body.drop offset).take count))
        (.writing inode (offset + ((r.request.body.drop offset).take count).length))
  | wrote {inode offset : Nat} (all : r.request.body.length ≤ offset) :
      Advances server volume r (.writing inode offset) volume
        (.answered (FileServer.createdResponse (.construct (HttpServer.closes r.request))))
  | opens {opened : DirEntry} (found : volume.openEntry (server.filePath r.request) = .ok opened) :
      Advances server volume r .opening volume (.measuring opened)
  | measures {opened : DirEntry} (fits : FileSystem.checkSize (volume.measure opened) = .ok ()) :
      Advances server volume r (.measuring opened) volume
        (.reading opened (volume.measure opened) [])
  | reads {opened : DirEntry} {size count : Nat} {got : Bytes}
      (more : volume.readAt opened got.length count ≠ []) :
      Advances server volume r (.reading opened size got) volume
        (.reading opened size (got ++ volume.readAt opened got.length count))
  | ends {opened : DirEntry} {size count : Nat} {got : Bytes}
      (positive : got.length < size → 0 < count)
      (nothing : volume.readAt opened got.length count = []) :
      Advances server volume r (.reading opened size got) volume
        (.sizing (got ++ List.replicate (size - got.length) 0))
  | sizes {body : Bytes} {size : Nat}
      (sized : volume.disk.system.getFileSize (server.filePath r.request) = .ok size) :
      Advances server volume r (.sizing body) volume
        (.answered (FileServer.downloadResponse (.construct (HttpServer.closes r.request))
          (server.filePath r.request) body size))

theorem advances_of_advance {server : FileServer} {volume volume' : Volume N} {r : FileRequest}
    {chunk : Nat} {p next : FileCall} (unanswered : ∀ response, p ≠ .answered response)
    (advanced : server.advance volume r chunk p = .ok (volume', next)) :
    Advances server volume r p volume' next := by
  cases p with
  | begun =>
      simp only [FileServer.advance, Volume.pathExists_disk, FileResult.ok_bind] at advanced
      split_ifs at advanced with post found
      · cases advanced
        exact .conflict post (Option.isSome_iff_ne_none.mp found)
      · cases advanced
        exact .passes post (by simpa using found)
      · cases advanced
        exact .looks post
  | creating =>
      obtain ⟨⟨volume₁, inode⟩, created, same⟩ := FileResult.bind_eq_ok advanced
      cases same
      exact .creates created
  | writing inode offset =>
      simp only [FileServer.advance] at advanced
      split_ifs at advanced with more
      · cases advanced
        exact .writes more (Nat.succ_pos chunk)
      · cases advanced
        exact .wrote (Nat.le_of_not_lt more)
  | opening =>
      obtain ⟨opened, found, same⟩ := FileResult.bind_eq_ok advanced
      cases same
      exact .opens found
  | measuring opened =>
      obtain ⟨⟨⟩, fits, same⟩ := FileResult.bind_eq_ok advanced
      cases same
      exact .measures fits
  | reading opened size got =>
      simp only [FileServer.advance] at advanced
      split_ifs at advanced with nothing
      · cases advanced
        exact .ends (by omega) nothing
      · cases advanced
        exact .reads nothing
  | sizing body =>
      obtain ⟨size, sized, same⟩ := FileResult.bind_eq_ok advanced
      cases same
      exact .sizes sized
  | answered response => exact absurd rfl (unanswered response)

variable {server : FileServer} {volume volume' : Volume N} {r : FileRequest} {p next : FileCall}

theorem Advances.resolve (advances : Advances server volume r p volume' next) :
    volume'.resolve = volume.resolve := by
  cases advances with
  | creates created => exact (Volume.create_eq_ok created).2.2.1
  | _ => rfl

theorem Advances.sound (advances : Advances server volume r p volume' next)
    (sound : volume.Sound) : volume'.Sound := by
  cases advances with
  | creates created => exact sound.create created
  | writes more positive => exact sound.write _ _ _
  | _ => exact sound

/-- What a node has stays with it. -/
theorem Advances.entry (advances : Advances server volume r p volume' next) {n : N} {e : DirEntry}
    (held : volume.entry n = some e) : volume'.entry n = some e := by
  cases advances with
  | @creates _ inode created =>
      obtain ⟨entry, -, -, origin⟩ := Volume.create_eq_ok created
      rw [entry]
      by_cases here : n = volume.resolve (server.filePath r.request)
      · subst here
        rcases origin with ⟨free, -⟩ | ⟨there, -⟩
        · rw [free] at held
          cases held
        · rw [Function.update_self, ← held, there]
      · rwa [Function.update_of_ne here]
  | _ => exact held

/-- A request changes its own node only. -/
theorem Advances.elsewhere (advances : Advances server volume r p volume' next)
    (sound : volume.Sound)
    (own : ∀ inode offset, p = .writing inode offset →
      volume.entry (volume.resolve (server.filePath r.request)) = some (.file inode)) {n : N}
    (other : volume.resolve (server.filePath r.request) ≠ n) :
    volume'.entry n = volume.entry n ∧ ∀ inode, volume.entry n = some (.file inode) →
      volume'.content inode = volume.content inode := by
  cases advances with
  | @creates _ inode created =>
      obtain ⟨entry, content, -, origin⟩ := Volume.create_eq_ok created
      refine ⟨by rw [entry, Function.update_of_ne other.symm], ?_⟩
      intro j held
      rw [content, Function.update_of_ne]
      rintro rfl
      rcases origin with ⟨-, rfl, -⟩ | ⟨there, -⟩
      · exact absurd (sound.used n _ held) (lt_irrefl _)
      · exact other (sound.own _ n _ there held)
  | @writes inode offset count more positive =>
      refine ⟨rfl, ?_⟩
      intro j held
      apply Volume.write_other
      rintro rfl
      exact other (sound.own _ n _ (own _ offset rfl) held)
  | _ => exact ⟨rfl, fun _ _ => rfl⟩

/-- A call that is no upload under way changes nothing. -/
theorem Advances.volume_eq (advances : Advances server volume r p volume' next)
    (idle : p.writes = false) : volume' = volume := by
  cases advances with
  | creates created => cases idle
  | writes more positive => cases idle
  | _ => rfl

/-- Only an upload that finds nothing, or has created its file, becomes involved. -/
theorem Advances.not_involved (advances : Advances server volume r p volume' next)
    (idle : p.writes = false) (other : ¬ (p = .begun ∧ next = .creating)) :
    next.involved = false := by
  cases advances with
  | passes post free => exact absurd ⟨rfl, rfl⟩ other
  | creates created => cases idle
  | writes more positive => cases idle
  | wrote all => cases idle
  | _ => rfl

end Calls

/-! ## What a step does -/

namespace ConcurrentFiles

section Steps

variable {N T : Type} [DecidableEq N] [DecidableEq T]

/-- The uploads that have found nothing, after a step of a request. -/
def record (passed : List FileRequest) (r : FileRequest) (p next : FileCall) : List FileRequest :=
  match p, next with
  | .begun, .creating => passed ++ [r]
  | _, _ => passed

/-- The state after a system call of a request. -/
def after (s : ConcurrentFiles N T) (t : T) (r : FileRequest) (p next : FileCall)
    (volume : Volume N) : ConcurrentFiles N T where
  volume := volume
  call := Function.update s.call t (some (r, next))
  passed := record s.passed r p next

inductive Steps (server : FileServer) (s : ConcurrentFiles N T) :
    FilesAction T → ConcurrentFiles N T → Prop
  | receive {t : T} {r : FileRequest} (idle : s.call t = none) :
      Steps server s (.receive t r) { s with call := Function.update s.call t (some (r, .begun)) }
  | go {t : T} {chunk : Nat} {r : FileRequest} {p next : FileCall} {volume : Volume N}
      (calls : s.call t = some (r, p)) (advances : Advances server s.volume r p volume next) :
      Steps server s (.go t chunk) (s.after t r p next volume)
  | send {t : T} {r : FileRequest} {response : HttpResponse}
      (calls : s.call t = some (r, .answered response)) :
      Steps server s (.send t) { s with call := Function.update s.call t none }

variable {server : FileServer} {s s' : ConcurrentFiles N T}

theorem steps_of_step {action : FilesAction T} (stepped : s.step server action = some (.ok s')) :
    Steps server s action s' := by
  cases action with
  | receive t r =>
      simp only [step] at stepped
      split at stepped
      · cases stepped
        exact .receive ‹_›
      · cases stepped
  | go t chunk =>
      simp only [step] at stepped
      split at stepped
      · cases stepped
      · cases stepped
      · rename_i r p unanswered calls
        obtain ⟨⟨volume, next⟩, advanced, same⟩ := FileResult.bind_eq_ok (Option.some.inj stepped)
        cases same
        refine .go calls (advances_of_advance ?_ advanced)
        rintro response rfl
        exact unanswered response rfl
  | send t =>
      simp only [step] at stepped
      split at stepped
      · cases stepped
        exact .send ‹_›
      · cases stepped

theorem Steps.resolve {action : FilesAction T} (steps : Steps server s action s') :
    s'.volume.resolve = s.volume.resolve := by
  cases steps with
  | receive idle => rfl
  | go calls advances => exact advances.resolve
  | send calls => rfl

omit [DecidableEq N] [DecidableEq T] in
theorem node_eq (resolve : s'.volume.resolve = s.volume.resolve) (r : FileRequest) :
    s'.node server r = s.node server r := by
  unfold node
  rw [resolve]

/-- An upload that finds nothing is recorded, at its own node. -/
theorem passedAt_passes (server : FileServer) (s : ConcurrentFiles N T) (t : T) {n : N}
    {r : FileRequest} (here : s.node server r = n) :
    (s.after t r .begun .creating s.volume).passedAt server n = s.passedAt server n ++ [r] := by
  show (s.passed ++ [r]).filter (fun r => s.node server r = n) = _
  rw [List.filter_append]
  simp [passedAt, here]

/-- Nothing else is. -/
theorem passedAt_other {t : T} {n : N} {r : FileRequest} {p next : FileCall} {volume : Volume N}
    (resolve : volume.resolve = s.volume.resolve)
    (other : ¬ (p = .begun ∧ next = .creating ∧ s.node server r = n)) :
    (s.after t r p next volume).passedAt server n = s.passedAt server n := by
  have node (r' : FileRequest) :
      (s.after t r p next volume).node server r' = s.node server r' := node_eq resolve r'
  unfold passedAt
  simp only [node]
  show (record s.passed r p next).filter _ = _
  unfold record
  split
  · have elsewhere : s.node server r ≠ n := fun here => other ⟨rfl, rfl, here⟩
    simp [List.filter_append, elsewhere]
  · rfl

/-- What every run keeps: writers have the file of their node open, and have been recorded. -/
structure Placed (server : FileServer) (s : ConcurrentFiles N T) : Prop where
  sound : s.volume.Sound
  writers : ∀ t r inode offset, s.call t = some (r, .writing inode offset) →
    s.volume.entry (s.node server r) = some (.file inode)
  recorded : ∀ t r p, s.call t = some (r, p) → p.involved = true → r ∈ s.passed

omit [DecidableEq N] in
/-- A call is replaced, and the others have what they had. -/
theorem Placed.updated (placed : Placed server s) {t : T} {call : Option (FileRequest × FileCall)}
    (calls : s'.call = Function.update s.call t call)
    (resolve : s'.volume.resolve = s.volume.resolve) (sound : s'.volume.Sound)
    (entry : ∀ n e, s.volume.entry n = some e → s'.volume.entry n = some e)
    (passed : ∀ r ∈ s.passed, r ∈ s'.passed)
    (writer : ∀ r inode offset, call = some (r, .writing inode offset) →
      s'.volume.entry (s.node server r) = some (.file inode))
    (recorded : ∀ r p, call = some (r, p) → p.involved = true → r ∈ s'.passed) :
    Placed server s' := by
  have other {t' : T} (elsewhere : t' ≠ t) : s'.call t' = s.call t' := by
    rw [calls, Function.update_of_ne elsewhere]
  have here : s'.call t = call := by rw [calls, Function.update_self]
  refine ⟨sound, ?_, ?_⟩
  · intro t' r inode offset writes
    rw [node_eq resolve]
    by_cases same : t' = t
    · subst same
      exact writer r inode offset (here ▸ writes)
    · exact entry _ _ (placed.writers t' r inode offset (other same ▸ writes))
  · intro t' r p calls' involved
    by_cases same : t' = t
    · subst same
      exact recorded r p (here ▸ calls') involved
    · exact passed r (placed.recorded t' r p (other same ▸ calls') involved)

theorem Placed.step (placed : Placed server s) {action : FilesAction T}
    (steps : Steps server s action s') : Placed server s' := by
  cases steps with
  | @receive t r idle =>
      refine placed.updated rfl rfl placed.sound (fun _ _ => id) (fun _ => id) ?_ ?_
      · rintro r inode offset ⟨⟩
      · rintro r p ⟨⟩ ⟨⟩
  | @send t r response calls =>
      refine placed.updated rfl rfl placed.sound (fun _ _ => id) (fun _ => id) ?_ ?_
      · rintro r inode offset ⟨⟩
      · rintro r p ⟨⟩
  | @go t chunk r p next volume calls advances =>
      have kept : ∀ r' ∈ s.passed, r' ∈ record s.passed r p next := by
        intro r' inside
        unfold record
        split
        · exact List.mem_append_left _ inside
        · exact inside
      refine placed.updated rfl advances.resolve (advances.sound placed.sound)
        (fun n e => advances.entry) kept ?_ ?_
      · rintro r' inode offset same
        obtain ⟨rfl, rfl⟩ := Prod.mk.inj (Option.some.inj same)
        cases advances with
        | creates created =>
            obtain ⟨entry, -⟩ := Volume.create_eq_ok created
            exact entry ▸ Function.update_self _ _ _
        | writes more positive => exact placed.writers t r _ _ calls
      · rintro r' p' same involved
        obtain ⟨rfl, rfl⟩ := Prod.mk.inj (Option.some.inj same)
        cases advances with
        | passes post free => exact List.mem_append_right _ List.mem_cons_self
        | creates created => exact placed.recorded t r _ calls rfl
        | writes more positive => exact placed.recorded t r _ calls rfl
        | wrote all => exact placed.recorded t r _ calls rfl
        | conflict post held => cases involved
        | sizes sized => cases involved
        | _ => cases involved

end Steps

/-! ## One upload to a node -/

section Sole

variable {N T : Type} [DecidableEq N]

/-- How far the one upload to a node has come, and that no other call creates or writes it. -/
inductive Sole (server : FileServer) (n : N) (s : ConcurrentFiles N T) : Prop
  | untouched (passed : s.passedAt server n = []) (free : s.volume.entry n = none)
      (others : ∀ t r p, s.call t = some (r, p) → s.node server r = n → p.involved = false)
  | creating {t : T} {u : FileRequest} (passed : s.passedAt server n = [u])
      (free : s.volume.entry n = none) (calls : s.call t = some (u, .creating))
      (others : ∀ t' r p, t' ≠ t → s.call t' = some (r, p) → s.node server r = n →
        p.involved = false)
  | writing {t : T} {u : FileRequest} {inode offset : Nat} (passed : s.passedAt server n = [u])
      (held : s.volume.entry n = some (.file inode))
      (calls : s.call t = some (u, .writing inode offset))
      (inside : offset ≤ u.request.body.length)
      (content : (s.volume.content inode).bytes = u.request.body.take offset)
      (others : ∀ t' r p, t' ≠ t → s.call t' = some (r, p) → s.node server r = n →
        p.involved = false)
  | complete {u : FileRequest} {inode : Nat} (passed : s.passedAt server n = [u])
      (held : s.volume.entry n = some (.file inode))
      (content : (s.volume.content inode).bytes = u.request.body)
      (others : ∀ t r p, s.call t = some (r, p) → s.node server r = n → p.writes = false)

variable {server : FileServer} {n : N} {s s' : ConcurrentFiles N T}

theorem node_of_passed {r : FileRequest} (passed : s.passedAt server n = [r]) :
    s.node server r = n := by
  have inside : r ∈ s.passedAt server n := by simp [passed]
  simpa using (List.mem_filter.mp inside).2

theorem Sole.passed_le (sole : Sole server n s) : (s.passedAt server n).length ≤ 1 := by
  cases sole with
  | untouched passed free others => simp [passed]
  | creating passed free calls others => simp [passed]
  | writing passed held calls inside content others => simp [passed]
  | complete passed held content others => simp [passed]

/-- A call that creates or writes the node is the one of its upload. -/
theorem Sole.writer (sole : Sole server n s) {t : T} {r : FileRequest} {p : FileCall}
    (calls : s.call t = some (r, p)) (here : s.node server r = n) (writes : p.writes = true) :
    s.passedAt server n = [r] ∧
      (∀ t' r' p', t' ≠ t → s.call t' = some (r', p') → s.node server r' = n →
        p'.involved = false) ∧
      (p = .creating ∧ s.volume.entry n = none ∨
        ∃ inode offset, p = .writing inode offset ∧ s.volume.entry n = some (.file inode) ∧
          offset ≤ r.request.body.length ∧
          (s.volume.content inode).bytes = r.request.body.take offset) := by
  have idle (uninvolved : p.involved = false) : False := by
    have noWrite := FileCall.writes_of_not_involved uninvolved
    rw [writes] at noWrite
    cases noWrite
  cases sole with
  | untouched passed free others => exact absurd (others t r p calls here) idle
  | @creating t' u passed free calls' others =>
      by_cases same : t = t'
      · subst same
        rw [calls] at calls'
        cases calls'
        exact ⟨passed, others, Or.inl ⟨rfl, free⟩⟩
      · exact absurd (others t r p same calls here) idle
  | @writing t' u inode offset passed held calls' inside content others =>
      by_cases same : t = t'
      · subst same
        rw [calls] at calls'
        cases calls'
        exact ⟨passed, others, Or.inr ⟨inode, offset, rfl, held, inside, content⟩⟩
      · exact absurd (others t r p same calls here) idle
  | complete passed held content others =>
      rw [others t r p calls here] at writes
      cases writes

/-- Nothing that concerns the node has changed. -/
theorem Sole.frame (sole : Sole server n s) {t : T} {call : Option (FileRequest × FileCall)}
    [DecidableEq T] (calls : s'.call = Function.update s.call t call)
    (resolve : s'.volume.resolve = s.volume.resolve)
    (entry : s'.volume.entry n = s.volume.entry n)
    (content : ∀ inode, s.volume.entry n = some (.file inode) →
      s'.volume.content inode = s.volume.content inode)
    (passed : s'.passedAt server n = s.passedAt server n)
    (before : ∀ r p, s.call t = some (r, p) → s.node server r = n → p.writes = false)
    (after : ∀ r p, call = some (r, p) → s.node server r = n → p.involved = false) :
    Sole server n s' := by
  have other {t' : T} (elsewhere : t' ≠ t) : s'.call t' = s.call t' := by
    rw [calls, Function.update_of_ne elsewhere]
  have here : s'.call t = call := by rw [calls, Function.update_self]
  have node (r : FileRequest) : s'.node server r = s.node server r := node_eq resolve r
  -- the one upload is not the call that has changed
  have apart {t₁ : T} {u : FileRequest} {p : FileCall} (calls₁ : s.call t₁ = some (u, p))
      (one : s.passedAt server n = [u]) (writes : p.writes = true) : t₁ ≠ t := by
    rintro rfl
    have idle := before u p calls₁ (node_of_passed one)
    rw [writes] at idle
    cases idle
  have idle {t' : T} {r : FileRequest} {p : FileCall} (calls' : s'.call t' = some (r, p))
      (atNode : s'.node server r = n)
      (rest : t' ≠ t → s.call t' = some (r, p) → s.node server r = n → p.involved = false) :
      p.involved = false := by
    rw [node] at atNode
    by_cases same : t' = t
    · subst same
      exact after r p (here ▸ calls') atNode
    · exact rest same (other same ▸ calls') atNode
  cases sole with
  | untouched noneYet free others =>
      refine .untouched (passed.trans noneYet) (entry.trans free) ?_
      intro t' r p calls' atNode
      exact idle calls' atNode fun _ => others t' r p
  | @creating t₁ u one free calls₁ others =>
      have still : s'.call t₁ = some (u, .creating) := (other (apart calls₁ one rfl)).trans calls₁
      refine .creating (passed.trans one) (entry.trans free) still ?_
      intro t' r p elsewhere calls' atNode
      exact idle calls' atNode fun _ => others t' r p elsewhere
  | @writing t₁ u inode offset one held calls₁ inside bytes others =>
      have still : s'.call t₁ = some (u, .writing inode offset) :=
        (other (apart calls₁ one rfl)).trans calls₁
      refine .writing (passed.trans one) (entry.trans held) still inside
        (by rw [content inode held, bytes]) ?_
      intro t' r p elsewhere calls' atNode
      exact idle calls' atNode fun _ => others t' r p elsewhere
  | @complete u inode one held bytes others =>
      refine .complete (passed.trans one) (entry.trans held) (by rw [content inode held, bytes]) ?_
      intro t' r p calls' atNode
      rw [node] at atNode
      by_cases same : t' = t
      · subst same
        exact FileCall.writes_of_not_involved (after r p (here ▸ calls') atNode)
      · exact others t' r p (other same ▸ calls') atNode

end Sole

section Runs

variable {N T : Type} [DecidableEq N] [DecidableEq T] {server : FileServer} {n : N}
  {s s' : ConcurrentFiles N T}

/-- A step of an upload that creates or writes the node. -/
theorem Sole.writer_step (sole : Sole server n s) {t : T} {r : FileRequest} {p next : FileCall}
    {volume : Volume N} (calls : s.call t = some (r, p)) (here : s.node server r = n)
    (writes : p.writes = true) (advances : Advances server s.volume r p volume next) :
    Sole server n (s.after t r p next volume) := by
  obtain ⟨passed, others, reached⟩ := sole.writer calls here writes
  have passed' : (s.after t r p next volume).passedAt server n = [r] := by
    refine (passedAt_other advances.resolve ?_).trans passed
    rintro ⟨rfl, -, -⟩
    cases writes
  have node (r' : FileRequest) :
      (s.after t r p next volume).node server r' = s.node server r' := node_eq advances.resolve r'
  have self : (s.after t r p next volume).call t = some (r, next) := Function.update_self _ _ _
  have others' : ∀ t' r' p', t' ≠ t → (s.after t r p next volume).call t' = some (r', p') →
      (s.after t r p next volume).node server r' = n → p'.involved = false := by
    intro t' r' p' elsewhere calls' atNode
    have same : (s.after t r p next volume).call t' = s.call t' :=
      Function.update_of_ne elsewhere _ _
    exact others t' r' p' elsewhere (same ▸ calls') (node r' ▸ atNode)
  rcases reached with ⟨rfl, free⟩ | ⟨inode, offset, rfl, held, inside, content⟩
  · cases advances with
    | @creates _ inode created =>
        obtain ⟨entry, bytes, -, -⟩ := Volume.create_eq_ok created
        have atPath : s.volume.resolve (server.filePath r.request) = n := here
        rw [atPath] at entry
        refine .writing passed' ?_ self (Nat.zero_le _) ?_ others'
        · show volume.entry n = some (.file inode)
          rw [entry, Function.update_self]
        · show (volume.content inode).bytes = _
          rw [bytes, Function.update_self]
          rfl
  · cases advances with
    | @writes _ _ count more positive =>
        refine .writing passed' held self ?_
          (Volume.write_next r.bounded inside content count) others'
        rw [List.length_take, List.length_drop]
        omega
    | wrote all =>
        refine .complete passed' held ?_ ?_
        · show (s.volume.content inode).bytes = r.request.body
          rw [content, List.take_of_length_le all]
        · intro t' r' p' calls' atNode
          by_cases same : t' = t
          · subst same
            rw [self] at calls'
            cases calls'
            rfl
          · exact FileCall.writes_of_not_involved (others' t' r' p' same calls' atNode)

/-- An upload finds nothing at the node. -/
theorem Sole.passes_step (sole : Sole server n s) {t : T} {r : FileRequest} (chunk : Nat)
    (calls : s.call t = some (r, .begun)) (here : s.node server r = n)
    (post : r.request.method = .kPost) (free : s.volume.entry n = none)
    (passed : s'.passedAt server n = s.passedAt server n ++ [r])
    (calls' : s'.call = Function.update s.call t (some (r, .creating)))
    (volume : s'.volume = s.volume) :
    Sole server n s' ∨
      2 ≤ (s'.passedAt server n).length ∧ ¬ Exclusive server n s (.go t chunk) := by
  cases sole with
  | untouched noneYet free' others =>
      refine Or.inl (.creating (t := t) (u := r) ?_ ?_ ?_ ?_)
      · rw [passed, noneYet, List.nil_append]
      · rw [volume, free]
      · rw [calls', Function.update_self]
      · intro t' r' p' elsewhere calls'' atNode
        rw [calls', Function.update_of_ne elsewhere] at calls''
        exact others t' r' p' calls'' (node_eq (congrArg Volume.resolve volume) r' ▸ atNode)
  | @creating t' u one free' calls'' others =>
      -- another upload has found nothing either
      refine Or.inr ⟨by simp [passed, one], ?_⟩
      intro exclusive
      exact exclusive t chunk r rfl calls post here free t' u calls'' (node_of_passed one)
  | writing one held calls'' inside content others =>
      rw [free] at held
      cases held
  | complete one held content others =>
      rw [free] at held
      cases held

/-- **Step lemma**: the upload to a node stays the only one, unless another one looks for the
node between the two calls. -/
theorem Sole.step (sole : Sole server n s) (placed : Placed server s) {action : FilesAction T}
    (steps : Steps server s action s') :
    Sole server n s' ∨ 2 ≤ (s'.passedAt server n).length ∧ ¬ Exclusive server n s action := by
  cases steps with
  | @receive t r idle =>
      refine Or.inl (sole.frame rfl rfl rfl (fun _ _ => rfl) rfl ?_ ?_)
      · intro r' p' calls
        rw [idle] at calls
        cases calls
      · rintro r' p' ⟨⟩ -
        rfl
  | @send t r response calls =>
      refine Or.inl (sole.frame rfl rfl rfl (fun _ _ => rfl) rfl ?_ ?_)
      · intro r' p' calls' _
        rw [calls] at calls'
        cases calls'
        rfl
      · rintro r' p' ⟨⟩
  | @go t chunk r p next volume calls advances =>
      have resolve := advances.resolve
      have mine {r' : FileRequest} {p' : FileCall} (calls' : s.call t = some (r', p')) :
          r' = r ∧ p' = p := by
        rw [calls] at calls'
        cases calls'
        exact ⟨rfl, rfl⟩
      have before : s.node server r ≠ n ∨ p.writes = false → ∀ r' p', s.call t = some (r', p') →
          s.node server r' = n → p'.writes = false := by
        intro quiet r' p' calls' there
        obtain ⟨rfl, rfl⟩ := mine calls'
        exact quiet.resolve_left fun elsewhere => elsewhere there
      by_cases here : s.node server r = n
      · by_cases writes : p.writes = true
        · exact Or.inl (sole.writer_step calls here writes advances)
        · have idle : p.writes = false := by simpa using writes
          by_cases passes : p = .begun ∧ next = .creating
          · obtain ⟨rfl, rfl⟩ := passes
            cases advances with
            | passes post free =>
                exact sole.passes_step chunk calls here post (here ▸ free)
                  (passedAt_passes server s t here) rfl rfl
          · have kept : (s.after t r p next volume).passedAt server n = s.passedAt server n :=
              passedAt_other resolve fun impossible => passes ⟨impossible.1, impossible.2.1⟩
            obtain rfl := advances.volume_eq idle
            refine Or.inl (sole.frame rfl rfl rfl (fun _ _ => rfl) kept (before (Or.inr idle)) ?_)
            intro r' p' calls' _
            obtain ⟨rfl, rfl⟩ := Prod.mk.inj (Option.some.inj calls')
            exact advances.not_involved idle passes
      · obtain ⟨entry, content⟩ := advances.elsewhere placed.sound
          (fun inode offset writes => placed.writers t r inode offset (writes ▸ calls)) here
        refine Or.inl (sole.frame rfl resolve entry content ?_ (before (Or.inl here)) ?_)
        · exact passedAt_other resolve fun impossible => here impossible.2.2
        · intro r' p' calls' there
          obtain ⟨rfl, rfl⟩ := Prod.mk.inj (Option.some.inj calls')
          exact absurd there here

/-- What has found nothing stays recorded. -/
theorem passedAt_grows {action : FilesAction T} (steps : Steps server s action s') (n : N) :
    (s.passedAt server n).length ≤ (s'.passedAt server n).length := by
  cases steps with
  | receive idle => exact le_refl _
  | send calls => exact le_refl _
  | @go t chunk r p next volume calls advances =>
      by_cases passes : p = .begun ∧ next = .creating ∧ s.node server r = n
      · obtain ⟨rfl, rfl, here⟩ := passes
        obtain rfl := advances.volume_eq rfl
        rw [passedAt_passes server s t here, List.length_append]
        exact Nat.le_add_right _ _
      · rw [passedAt_other advances.resolve passes]

/-- An upload that looks in between finds nothing either. -/
theorem marked_of_not_exclusive (sole : Sole server n s) {action : FilesAction T}
    (steps : Steps server s action s') (between : ¬ Exclusive server n s action) :
    2 ≤ (s'.passedAt server n).length := by
  unfold Exclusive at between
  push Not at between
  obtain ⟨t, chunk, r, rfl, calls, post, here, free, t', r', creating, there⟩ := between
  obtain ⟨one, -⟩ := sole.writer creating there rfl
  cases steps with
  | @go _ _ _ _ next volume calls' advances =>
      rw [calls] at calls'
      cases calls'
      have free : s.volume.entry (s.volume.resolve (server.filePath r.request)) = none := by
        rw [← here] at free
        exact free
      cases advances with
      | passes _ _ => rw [passedAt_passes server s t here, one]; exact le_refl 2
      | conflict _ held => exact absurd free held
      | looks get => exact absurd post get

omit [DecidableEq N] [DecidableEq T] in
theorem initial_placed {volume : Volume N} (sound : volume.Sound) :
    Placed server ({ volume := volume } : ConcurrentFiles N T) := by
  refine ⟨sound, ?_, ?_⟩
  · rintro t r inode offset ⟨⟩
  · rintro t r p ⟨⟩

omit [DecidableEq T] in
theorem initial_sole {volume : Volume N} (free : volume.entry n = none) :
    Sole server n ({ volume := volume } : ConcurrentFiles N T) :=
  .untouched rfl free (by rintro t r p ⟨⟩)

/-- What holds after a run in which no other upload looks in between. -/
theorem sole_of_exclusive {volume : Volume N} (sound : volume.Sound)
    (free : volume.entry n = none) {actions : List (FilesAction T)}
    (performed : perform (step server) { volume := volume } actions = some s)
    (exclusive : Throughout (step server) (Exclusive server n) { volume := volume } actions) :
    Placed server s ∧ Sole server n s := by
  refine exclusive.invariant (P := fun s => Placed server s ∧ Sole server n s) ?_ performed
    ⟨initial_placed sound, initial_sole free⟩
  rintro s action s' ⟨placed, sole⟩ alone stepped
  have steps := steps_of_step stepped
  refine ⟨placed.step steps, (sole.step placed steps).resolve_right ?_⟩
  exact fun ⟨_, between⟩ => between alone

/-- **One upload takes a free name exactly if no other one looks for it** between its own look
and the creation of the file, however the system calls of all requests are interleaved; an
upload that is answered with 201 is one of those that have taken it. -/
theorem one_upload_iff {volume : Volume N} (sound : volume.Sound) (free : volume.entry n = none)
    {actions : List (FilesAction T)}
    (performed : perform (step server) { volume := volume } actions = some s) :
    (Throughout (step server) (Exclusive server n) { volume := volume } actions ↔
      (s.passedAt server n).length ≤ 1) ∧
    ∀ t r response, s.call t = some (r, .answered response) →
      response.statusCode = .k201Created → s.node server r = n → r ∈ s.passedAt server n := by
  refine ⟨⟨fun exclusive => (sole_of_exclusive sound free performed exclusive).2.passed_le, ?_⟩, ?_⟩
  · intro one
    have stays (s : ConcurrentFiles N T) (action : FilesAction T) (s' : ConcurrentFiles N T)
        (marked : 2 ≤ (s.passedAt server n).length)
        (stepped : s.step server action = some (.ok s')) : 2 ≤ (s'.passedAt server n).length :=
      marked.trans (passedAt_grows (steps_of_step stepped) n)
    have preserved (s : ConcurrentFiles N T) (action : FilesAction T) (s' : ConcurrentFiles N T)
        (kept : Placed server s ∧ (Sole server n s ∨ 2 ≤ (s.passedAt server n).length))
        (stepped : s.step server action = some (.ok s')) :
        Placed server s' ∧ (Sole server n s' ∨ 2 ≤ (s'.passedAt server n).length) := by
      obtain ⟨placed, reached⟩ := kept
      have steps := steps_of_step stepped
      refine ⟨placed.step steps, ?_⟩
      rcases reached with sole | marked
      · exact (sole.step placed steps).imp id And.left
      · exact Or.inr (stays s action s' marked stepped)
    refine throughout_of_unmarked preserved stays ?_ performed
      ⟨initial_placed sound, Or.inl (initial_sole free)⟩ (by omega)
    rintro s action s' ⟨placed, reached⟩ stepped
    rcases reached with sole | marked
    · by_cases alone : Exclusive server n s action
      · exact Or.inl alone
      · exact Or.inr (marked_of_not_exclusive sole (steps_of_step stepped) alone)
    · exact Or.inr (stays s action s' marked stepped)
  · intro t r response calls code here
    have placed : Placed server s :=
      (reaches_of_perform performed).invariant
        (fun _ _ _ placed stepped => placed.step (steps_of_step stepped)) (initial_placed sound)
    have recorded := placed.recorded t r _ calls (by simp [FileCall.involved, code])
    exact List.mem_filter.mpr ⟨recorded, by simpa using here⟩

/-- What one loop does alone is exclusive. -/
theorem exclusive_alone {volume : Volume N} {t : T} {actions : List (FilesAction T)}
    (alone : ∀ action ∈ actions, action.thread = t) :
    Throughout (step server) (Exclusive server n) { volume := volume } actions := by
  have mine : Throughout (step server) (fun _ action => action.thread = t)
      ({ volume := volume } : ConcurrentFiles N T) actions :=
    throughout_of_forall fun _ => alone
  refine mine.imp (P := fun s => ∀ t', t' ≠ t → s.call t' = none) ?_ ?_ fun _ _ => rfl
  · intro s action s' idle isMine stepped t' other
    subst isMine
    cases steps_of_step stepped with
    | receive _ => exact (Function.update_of_ne other _ _).trans (idle t' other)
    | go _ _ => exact (Function.update_of_ne other _ _).trans (idle t' other)
    | send _ => exact (Function.update_of_ne other _ _).trans (idle t' other)
  · intro s action idle isMine t₁ chunk r isGo calls post here free t₂ r' calls'
    exfalso
    have only {t' : T} {r : FileRequest} {p : FileCall} (calls : s.call t' = some (r, p)) :
        t' = t := by
      by_contra other
      rw [idle t' other] at calls
      cases calls
    obtain rfl := only calls
    obtain rfl := only calls'
    rw [calls] at calls'
    cases calls'

end Runs

/-- A volume with nothing on it, where each path is its own node. -/
def emptyVolume : Volume Bytes where
  resolve := id
  entry := fun _ => none
  content := fun _ => .ofBytes []
  entries := fun _ _ => none
  describe := fun _ => []

theorem emptyVolume_sound : emptyVolume.Sound := by
  refine ⟨?_, ?_⟩
  · rintro node inode ⟨⟩
  · rintro node other inode ⟨⟩

/-- The upload of a short file. -/
def uploadOf (body : Bytes) (bounded : body.length ≤ maxSize) : FileRequest where
  request := { method := .kPost, version := .kHttp11, url := ascii "/upload/a.txt", body := body }
  method := Or.inr rfl
  notRoot := show ascii "/upload/a.txt" ≠ ascii "/" by decide
  notIcon := show ascii "/upload/a.txt" ≠ ascii "/favicon.ico" by decide
  noRange := rfl
  bounded := bounded

/-- The answer of a call that has come to it. -/
def answer? : FileCall → Option HttpResponse
  | .answered response => some response
  | _ => none

theorem answer?_eq_some {p : FileCall} {response : HttpResponse}
    (answer : answer? p = some response) : p = .answered response := by
  cases p <;> simp_all [answer?]

/-- Two loops upload the same name, and take turns. -/
def tornRun : List (FilesAction Bool) :=
  [.receive false (uploadOf (ascii "aaaa") (by decide)),
    .receive true (uploadOf (ascii "bb") (by decide))] ++
    [.go false 0, .go true 0, .go false 0, .go true 0, .go false 9, .go true 9, .go false 0,
      .go true 0]

/-- Both uploads are answered with 201, and the file has bytes of both. -/
theorem one_upload_iff_torn :
    ∃ s : ConcurrentFiles Bytes Bool,
      perform (step {}) { volume := emptyVolume } tornRun = some s ∧
      ¬ Throughout (step {}) (Exclusive {} (ascii "../files/a.txt")) { volume := emptyVolume }
        tornRun ∧
      (∀ t, ∃ r response, s.call t = some (r, .answered response) ∧
        response.statusCode = .k201Created) ∧
      (s.volume.content 0).bytes = ascii "bbaa" := by
  have performed : ((perform (step {}) { volume := emptyVolume } tornRun).any
      fun s : ConcurrentFiles Bytes Bool =>
        (s.passedAt {} (ascii "../files/a.txt")).length = 2 ∧
          (∀ t, (s.call t).any (fun x => (answer? x.2).any fun response =>
            response.statusCode = .k201Created) = true) ∧
          (s.volume.content 0).bytes = ascii "bbaa") = true := by
    decide +kernel
  obtain ⟨s, performed, known⟩ := (Option.any_eq_true _ _).mp performed
  obtain ⟨two, answered, content⟩ := of_decide_eq_true known
  refine ⟨s, performed, ?_, ?_, content⟩
  · intro exclusive
    have one := (one_upload_iff emptyVolume_sound rfl performed).1.mp exclusive
    omega
  · intro t
    obtain ⟨⟨r, p⟩, calls, created⟩ := (Option.any_eq_true _ _).mp (answered t)
    obtain ⟨response, answer, code⟩ := (Option.any_eq_true _ _).mp created
    obtain rfl := answer?_eq_some answer
    exact ⟨r, response, calls, of_decide_eq_true code⟩

end ConcurrentFiles

end CppFileServer.Http
