/-
# Http.ConcurrentDownloads -- an upload is read back whole

Once the one upload to a name has been answered with 201, its file has the body of the
request and no call writes it again.  A download that begins then measures and reads
in as many system calls as it likes, between those of other requests, and shows that body.
-/
import CppFileServer.Http.ConcurrentFiles

namespace CppFileServer.Http

set_option autoImplicit false

open CppFileServer.Cpp CppFileServer.Theory CppFileServer.Utils

namespace ConcurrentFiles

variable {N T : Type} {server : FileServer} {n : N} {s s' : ConcurrentFiles N T}
  {inode : Nat} {body : Bytes}

/-- The node has a file with these bytes, which nobody writes. -/
structure Finished (server : FileServer) (n : N) (inode : Nat) (body : Bytes)
    (s : ConcurrentFiles N T) : Prop where
  held : s.volume.entry n = some (.file inode)
  content : (s.volume.content inode).bytes = body
  quiet : ∀ t r p, s.call t = some (r, p) → s.node server r = n → p.writes = false

/-- The upload that has been answered is the one to the node, and its file is finished. -/
theorem Sole.finished [DecidableEq N] (sole : Sole server n s) (placed : Placed server s) {t : T}
    {u : FileRequest} {response : HttpResponse} (calls : s.call t = some (u, .answered response))
    (code : response.statusCode = .k201Created) (here : s.node server u = n) :
    ∃ inode, Finished server n inode u.request.body s := by
  have involved : (FileCall.answered response).involved = true := by
    simp [FileCall.involved, code]
  have recorded : u ∈ s.passedAt server n :=
    List.mem_filter.mpr ⟨placed.recorded t u _ calls involved, by simpa using here⟩
  cases sole with
  | untouched passed free others =>
      rw [passed] at recorded
      cases recorded
  | @creating t' u' passed free calls' others =>
      have elsewhere : t ≠ t' := by
        rintro rfl
        rw [calls] at calls'
        cases calls'
      rw [others t u _ elsewhere calls here] at involved
      cases involved
  | @writing t' u' inode offset passed held calls' inside content others =>
      have elsewhere : t ≠ t' := by
        rintro rfl
        rw [calls] at calls'
        cases calls'
      rw [others t u _ elsewhere calls here] at involved
      cases involved
  | @complete u' inode passed held content others =>
      rw [passed, List.mem_singleton] at recorded
      subst recorded
      exact ⟨inode, held, content, others⟩

variable [DecidableEq N] [DecidableEq T]

omit [DecidableEq N] in
/-- A call is replaced, and the file is as it was. -/
theorem Finished.updated (finished : Finished server n inode body s) {t : T}
    {call : Option (FileRequest × FileCall)} (calls : s'.call = Function.update s.call t call)
    (resolve : s'.volume.resolve = s.volume.resolve)
    (entry : s'.volume.entry n = s.volume.entry n)
    (content : (s'.volume.content inode).bytes = (s.volume.content inode).bytes)
    (quiet : ∀ r p, call = some (r, p) → s.node server r = n → p.writes = false) :
    Finished server n inode body s' := by
  refine ⟨entry.trans finished.held, content.trans finished.content, ?_⟩
  intro t' r p calls' here
  rw [node_eq resolve] at here
  by_cases same : t' = t
  · subst same
    rw [calls, Function.update_self] at calls'
    exact quiet r p calls' here
  · rw [calls, Function.update_of_ne same] at calls'
    exact finished.quiet t' r p calls' here

/-- **Step lemma**: a finished file stays as it is. -/
theorem Finished.step (finished : Finished server n inode body s) (placed : Placed server s)
    {action : FilesAction T} (steps : Steps server s action s') :
    Finished server n inode body s' := by
  cases steps with
  | receive idle =>
      refine finished.updated rfl rfl rfl rfl ?_
      rintro r p ⟨⟩ -
      rfl
  | send calls =>
      refine finished.updated rfl rfl rfl rfl ?_
      rintro r p ⟨⟩
  | @go t chunk r p next volume calls advances =>
      by_cases here : s.node server r = n
      · have idle := finished.quiet t r p calls here
        obtain rfl := advances.volume_eq idle
        refine finished.updated rfl rfl rfl rfl ?_
        intro r' p' calls' _
        obtain ⟨rfl, rfl⟩ := Prod.mk.inj (Option.some.inj calls')
        apply FileCall.writes_of_not_involved
        apply advances.not_involved idle
        rintro ⟨rfl, rfl⟩
        cases advances with
        | passes post free =>
            have held := finished.held
            rw [← here, node, free] at held
            cases held
      · obtain ⟨entry, content⟩ := advances.elsewhere placed.sound
          (fun inode offset writes => placed.writers t r inode offset (writes ▸ calls)) here
        refine finished.updated rfl advances.resolve entry
          (congrArg FileContent.bytes (content inode finished.held)) ?_
        intro r' p' calls' there
        obtain ⟨rfl, rfl⟩ := Prod.mk.inj (Option.some.inj calls')
        exact absurd there here

/-! ## A download -/

/-- How far a download of the file has come; what it has read is the beginning of the file. -/
def OnTrack (inode : Nat) (body : Bytes) (r : FileRequest) : FileCall → Prop
  | .begun => True
  | .opening => True
  | .measuring opened => opened = .file inode
  | .reading opened size got => opened = .file inode ∧ size = body.length ∧
      got = body.take got.length
  | .sizing read => read = body
  | .answered response => response.Shows .k200OK (HttpServer.closes r.request) body
      (some (toDecimal body.length))
  | _ => False

theorem shows_downloadResponse (response : HttpResponse) (path body : Bytes) (size : Nat) :
    (FileServer.downloadResponse response path body size).Shows .k200OK response.closeConnection
      body (some (toDecimal size)) :=
  ⟨rfl, rfl, rfl, by simp +decide [FileServer.downloadResponse]⟩

omit [DecidableEq T] in
/-- One system call of the download. -/
theorem OnTrack.advances (finished : Finished server n inode body s) {r : FileRequest}
    (get : r.request.method = .kGet) (here : s.node server r = n) {p next : FileCall}
    {volume : Volume N} (onTrack : OnTrack inode body r p)
    (advances : Advances server s.volume r p volume next) : OnTrack inode body r next := by
  have held : s.volume.entry (s.volume.resolve (server.filePath r.request)) =
      some (.file inode) := by
    rw [← finished.held, ← here]
    rfl
  cases advances with
  | conflict post _ =>
      rw [get] at post
      cases post
  | passes post free =>
      rw [get] at post
      cases post
  | looks _ => trivial
  | creates created => exact onTrack.elim
  | writes more positive => exact onTrack.elim
  | wrote all => exact onTrack.elim
  | opens found =>
      rw [Volume.openEntry, held] at found
      cases found
      exact rfl
  | measures fits =>
      obtain rfl : _ = DirEntry.file inode := onTrack
      exact ⟨rfl, congrArg List.length finished.content, rfl⟩
  | @reads opened size count got more =>
      obtain ⟨rfl, rfl, front⟩ := onTrack
      refine ⟨rfl, rfl, ?_⟩
      rw [Volume.readAt, Volume.bytes, finished.content]
      exact Volume.append_drop_take front count
  | @ends opened size count got asked nothing =>
      obtain ⟨rfl, rfl, front⟩ := onTrack
      rw [Volume.readAt, Volume.bytes, finished.content] at nothing
      have read := Volume.readInto_of_ended front (le_refl _) asked nothing
      rwa [FileSystem.readInto_of_le (by omega), List.drop_zero, List.take_length] at read
  | @sizes read size sized =>
      obtain rfl : read = body := onTrack
      rw [FileSystem.getFileSize_of_offers (Volume.holds_of_entry held), finished.content] at sized
      cases sized
      exact shows_downloadResponse _ _ _ _

/-- The downloads of the node by one thread are on track. -/
def Tracked (server : FileServer) (n : N) (inode : Nat) (body : Bytes) (t : T)
    (s : ConcurrentFiles N T) : Prop :=
  ∀ r p, s.call t = some (r, p) → r.request.method = .kGet → s.node server r = n →
    OnTrack inode body r p

omit [DecidableEq N] in
/-- A call is replaced, and on track if it is a download of the thread. -/
theorem Tracked.updated {t t' : T} (tracked : Tracked server n inode body t s)
    {call : Option (FileRequest × FileCall)} (calls : s'.call = Function.update s.call t' call)
    (resolve : s'.volume.resolve = s.volume.resolve)
    (mine : t' = t → ∀ r p, call = some (r, p) → r.request.method = .kGet → s.node server r = n →
      OnTrack inode body r p) : Tracked server n inode body t s' := by
  intro r p calls' get here
  rw [node_eq resolve] at here
  by_cases same : t = t'
  · subst same
    rw [calls, Function.update_self] at calls'
    exact mine rfl r p calls' get here
  · rw [calls, Function.update_of_ne same] at calls'
    exact tracked r p calls' get here

theorem Tracked.step {t : T} (tracked : Tracked server n inode body t s)
    (finished : Finished server n inode body s) {action : FilesAction T}
    (steps : Steps server s action s') : Tracked server n inode body t s' := by
  cases steps with
  | receive idle =>
      refine tracked.updated rfl rfl ?_
      rintro - r p ⟨⟩ - -
      trivial
  | send calls =>
      refine tracked.updated rfl rfl ?_
      rintro - r p ⟨⟩
  | @go t' chunk r p next volume calls advances =>
      refine tracked.updated rfl advances.resolve ?_
      rintro rfl r' p' calls' get here
      obtain ⟨rfl, rfl⟩ := Prod.mk.inj (Option.some.inj calls')
      exact OnTrack.advances finished get here (tracked r p calls get here) advances

/-- **An upload that is answered with 201 is read back whole**, when no other upload of the
name has looked for it before it was created.  From then on, whatever other requests do in
between, its file has the body, and every download of the name that a thread begins is
answered with that body and its length. -/
theorem concurrent_read_back {volume : Volume N} (sound : volume.Sound)
    (free : volume.entry n = none) {actions : List (FilesAction T)}
    (performed : perform (step server) { volume := volume } actions = some s)
    (exclusive : Throughout (step server) (Exclusive server n) { volume := volume } actions)
    {t : T} {u : FileRequest} {created : HttpResponse} (calls : s.call t = some (u, .answered created))
    (code : created.statusCode = .k201Created) (here : s.node server u = n)
    (later : Reaches (step server) s s') :
    s'.volume.disk.system.Holds (server.filePath u.request) ⟨u.request.body, u.bounded⟩ ∧
      ∀ t' d response, (∀ r p, s.call t' = some (r, p) → r.request.method = .kGet → p = .begun) →
        s'.call t' = some (d, .answered response) → d.request.method = .kGet →
        s'.node server d = n →
        response.Shows .k200OK (HttpServer.closes d.request) u.request.body
          (some (toDecimal u.request.body.length)) := by
  obtain ⟨placed, sole⟩ := sole_of_exclusive sound free performed exclusive
  obtain ⟨inode, finished⟩ := sole.finished placed calls code here
  have kept : (Placed server s' ∧ Finished server n inode u.request.body s') ∧
      s'.volume.resolve = s.volume.resolve := by
    refine later.invariant (P := fun s' => (Placed server s' ∧
      Finished server n inode u.request.body s') ∧ s'.volume.resolve = s.volume.resolve) ?_
      ⟨⟨placed, finished⟩, rfl⟩
    rintro s₁ action s₂ ⟨⟨placed, finished⟩, resolve⟩ stepped
    have steps := steps_of_step stepped
    exact ⟨⟨placed.step steps, finished.step placed steps⟩, steps.resolve.trans resolve⟩
  obtain ⟨⟨-, finished'⟩, resolve⟩ := kept
  refine ⟨?_, ?_⟩
  · have held : s'.volume.entry (s'.volume.resolve (server.filePath u.request)) =
        some (.file inode) := by
      rw [resolve, ← finished'.held, ← here]
      rfl
    have holds := Volume.holds_of_entry held
    have content : s'.volume.content inode = ⟨u.request.body, u.bounded⟩ := by
      cases same : s'.volume.content inode
      have bytes := finished'.content
      rw [same] at bytes
      cases bytes
      rfl
    rwa [content] at holds
  · intro t' d response begins calls' get atNode
    have tracked : Placed server s' ∧ Finished server n inode u.request.body s' ∧
        Tracked server n inode u.request.body t' s' := by
      refine later.invariant (P := fun s' => Placed server s' ∧
        Finished server n inode u.request.body s' ∧
        Tracked server n inode u.request.body t' s') ?_ ⟨placed, finished, ?_⟩
      · rintro s₁ action s₂ ⟨placed, finished, tracked⟩ stepped
        have steps := steps_of_step stepped
        exact ⟨placed.step steps, finished.step placed steps, tracked.step finished steps⟩
      · intro r p calls get _
        rw [begins r p calls get]
        trivial
    exact tracked.2.2 d _ calls' get atNode

/-- One loop uploads a file, in two pieces. -/
def uploadActions : List (FilesAction Bool) :=
  .receive false FileServer.storedUpload :: List.replicate 5 (.go false 2)

/-- The other one downloads it in pieces, while the first one is asked to store it again. -/
def downloadActions : List (FilesAction Bool) :=
  [.receive true FileServer.storedDownload, .go true 0, .go true 0, .send false,
    .receive false (uploadOf (ascii "again") (by decide)), .go true 0, .go true 2, .go false 0] ++
    List.replicate 3 (.go true 2)

theorem concurrent_read_back_hello :
    ∃ (s : ConcurrentFiles Bytes Bool) (d : FileRequest) (response : HttpResponse),
      s.call true = some (d, .answered response) ∧
      response.Shows .k200OK false (ascii "hello") (some (ascii "5")) := by
  have performed : ((perform (step {}) { volume := emptyVolume } uploadActions).any
      fun s : ConcurrentFiles Bytes Bool => ((s.call false).any fun x => (answer? x.2).any
          fun created => created.statusCode = .k201Created ∧
            s.node {} x.1 = ascii "../files/a.txt" ∧ x.1.request.body = ascii "hello") &&
        (s.call true).isNone &&
        (perform (step {}) s downloadActions).any fun s' => (s'.call true).any fun x =>
          (answer? x.2).isSome && (x.1.request.method = .kGet ∧
            s'.node {} x.1 = ascii "../files/a.txt" ∧ HttpServer.closes x.1.request = false)) =
        true := by
    decide +kernel
  obtain ⟨s, performed, known⟩ := (Option.any_eq_true _ _).mp performed
  rw [Bool.and_eq_true, Bool.and_eq_true] at known
  obtain ⟨⟨uploaded, idle⟩, known⟩ := known
  obtain ⟨s', later, known⟩ := (Option.any_eq_true _ _).mp known
  obtain ⟨⟨u, p⟩, calls, uploaded⟩ := (Option.any_eq_true _ _).mp uploaded
  obtain ⟨created, answer, uploaded⟩ := (Option.any_eq_true _ _).mp uploaded
  obtain rfl := answer?_eq_some answer
  obtain ⟨code, here, body⟩ := of_decide_eq_true uploaded
  obtain ⟨⟨d, p'⟩, calls', known⟩ := (Option.any_eq_true _ _).mp known
  rw [Bool.and_eq_true] at known
  obtain ⟨response, answer'⟩ := Option.isSome_iff_exists.mp known.1
  obtain rfl := answer?_eq_some answer'
  obtain ⟨get, there, keepsAlive⟩ := of_decide_eq_true known.2
  have alone : ∀ action ∈ uploadActions, action.thread = false := by
    simp [uploadActions, FilesAction.thread]
  have readBack := (concurrent_read_back emptyVolume_sound rfl performed (exclusive_alone alone)
    calls code here (reaches_of_perform later)).2 true d response ?_ calls' get there
  · rw [keepsAlive, body] at readBack
    exact ⟨s', d, response, calls', readBack⟩
  · intro r p calls''
    rw [Option.isNone_iff_eq_none.mp idle] at calls''
    cases calls''

end ConcurrentFiles

end CppFileServer.Http
