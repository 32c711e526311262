/-
# Http.Replies -- what a client takes off the wire

A client that keeps its connection takes one reply after another off the bytes that reach it:
the header up to the first empty line, and then as many bytes as `Content-Length` says.  It
reads the fields as the server reads those of a request.

A response with a true length is framed in this sense (`framed_of_delimited`).  So a client
that asks for the list and for whole files has, of the bytes on the wire at any moment, exactly
the responses that are there as a whole, each as the server made it (`replies_arrive`).
-/
import CppFileServer.Http.Serialization
import CppFileServer.Http.SharedStore
import CppFileServer.Theory.Framing

namespace CppFileServer.Http

set_option autoImplicit false

open CppFileServer.Cpp CppFileServer.Tcp CppFileServer.Theory CppFileServer.Utils

/-- What a client sees of a response. -/
structure Reply where
  statusLine : Bytes
  headers : Bytes → Option Bytes
  body : Bytes

/-- The reply at the front of the input, when all of it is there. -/
def takeReply (input : Bytes) : Option (Reply × Bytes) :=
  match find crlfcrlf input with
  | none => none
  | some headerEnd =>
      let header := input.take (headerEnd + 2)
      let rest := input.drop (headerEnd + 4)
      match find crlf header with
      | none => none
      | some lineEnd =>
          match HttpContext.parseRequestHeaders {} (header.drop (lineEnd + 2)) with
          | .ok (true, read) =>
              match read.headers (ascii "Content-Length") with
              | none => none
              | some length =>
                  let size := numeral 10 length
                  if size ≤ rest.length then
                    some (⟨header.take lineEnd, read.headers, rest.take size⟩, rest.drop size)
                  else none
          | _ => none

namespace HttpResponse

variable {r : HttpResponse}

def reply (r : HttpResponse) : Reply where
  statusLine := r.statusLine
  headers := r.found fun _ => none
  body := r.body

theorem Delimited.sized (delimited : r.Delimited) :
    r.found (fun _ => none) (ascii "Content-Length") = some (toDecimal r.body.length) := by
  rw [found, if_neg (by decide), delimited_iff.mp delimited]
  rfl

/-- Once the header is there, it is a question of how much is there of the body. -/
theorem takeReply_header (mapped : r.Mapped) (plain : r.Plain) (delimited : r.Delimited)
    {headerEnd : Nat} {input rest : Bytes} (ends : find crlfcrlf r.message = some headerEnd)
    (same : find crlfcrlf input = some headerEnd)
    (front : input.take (headerEnd + 4) = r.getHeaderString)
    (behind : input.drop (headerEnd + 4) = rest) :
    takeReply input =
      if r.body.length ≤ rest.length then
        some ({ r.reply with body := rest.take r.body.length }, rest.drop r.body.length)
      else none := by
  obtain ⟨headerEnd', readsBack⟩ := readsBack_of_plain mapped plain
  cases readsBack.ends.symm.trans ends
  have header : input.take (headerEnd + 2) = r.message.take (headerEnd + 2) := by
    have shorter (s : Bytes) :
        s.take (headerEnd + 2) = (s.take (headerEnd + 4)).take (headerEnd + 2) := by
      rw [List.take_take, Nat.min_eq_left (by omega)]
    rw [shorter input, shorter r.message, front, readsBack.header]
  have line : (r.message.take (headerEnd + 2)).take r.statusLine.length = r.statusLine := by
    have within : r.statusLine.length + 2 ≤ (r.message.take (headerEnd + 2)).length :=
      Search.find_le readsBack.line
    rw [List.length_take] at within
    rw [List.take_take, Nat.min_eq_left (by omega), message, getHeaderString_eq, block_cons]
    simp only [List.append_assoc, List.take_left']
  simp only [takeReply, same, header, readsBack.line, readsBack.fields, delimited.sized, behind,
    line, numeral_toDecimal]
  rfl

/-- **A response with a true length is framed**: a client takes it off the wire as it is,
whatever comes behind it, and not before all of it is there. -/
theorem framed_of_delimited (mapped : r.Mapped) (plain : r.Plain) (delimited : r.Delimited) :
    Framed takeReply r.message r.reply := by
  obtain ⟨headerEnd, readsBack⟩ := readsBack_of_plain mapped plain
  have fits : headerEnd + 4 ≤ r.message.length := Search.find_le readsBack.ends
  constructor
  · intro empty
    rw [empty] at fits
    exact absurd fits (by simp)
  · intro rest
    have ends := Search.find_append readsBack.ends rest
    have front : (r.message ++ rest).take (headerEnd + 4) = r.getHeaderString := by
      rw [List.take_append_of_le_length fits, readsBack.header]
    have behind : (r.message ++ rest).drop (headerEnd + 4) = r.body ++ rest := by
      rw [List.drop_append_of_le_length fits, readsBack.body]
    rw [takeReply_header mapped plain delimited readsBack.ends ends front behind,
      if_pos (by simp), List.take_left, List.drop_left]
    rfl
  · intro part missing cut proper
    cases found : find crlfcrlf part with
    | none => rw [takeReply, found]
    | some e =>
        -- the header has come, and so a part of the body is missing
        have here : find crlfcrlf r.message = some e := cut ▸ Search.find_append found missing
        cases readsBack.ends.symm.trans here
        have inside : headerEnd + 4 ≤ part.length := Search.find_le found
        have front : part.take (headerEnd + 4) = r.getHeaderString := by
          rw [← readsBack.header, ← cut, List.take_append_of_le_length inside]
        have body : part.drop (headerEnd + 4) ++ missing = r.body := by
          rw [← readsBack.body, ← cut, List.drop_append_of_le_length inside]
        rw [takeReply_header mapped plain delimited readsBack.ends found front rfl, if_neg]
        have some_missing := List.length_pos_of_ne_nil proper
        rw [← body, List.length_append]
        omega

end HttpResponse

/-- The refusal has no length, and is no reply. -/
theorem takeReply_refusal {front : Bytes} (part : front <+: HttpServer.badRequest) :
    takeReply front = none := by
  have all : ∀ front ∈ HttpServer.badRequest.inits, (takeReply front).isNone = true := by
    decide +kernel
  exact Option.isNone_iff_eq_none.mp (all front ((List.mem_inits ..).mpr part))

/-! ## The requests of a session -/

section Session

variable {σ : Type} {server : HttpServer σ} {s t : Session σ}

/-- No URL of the session holds a CRLF. -/
structure Session.UrlsPlain (s : Session σ) : Prop where
  dispatched : ∀ req ∈ s.dispatched, ¬ crlf <:+: req.url
  parsing : s.conn.state = .Connected → ¬ crlf <:+: s.conn.context.request.url

theorem urlsPlain_of_established {memory : Bool → Prop} (established : Established memory s) :
    s.UrlsPlain := by
  obtain ⟨state, completeHeaders, world, -, rfl⟩ := established
  exact ⟨nofun, fun _ inside => by cases List.infix_nil.mp inside⟩

/-- **Step lemma**: what is dispatched was parsed. -/
theorem Turn.urlsPlain (turn : Turn server s t) (plain : s.UrlsPlain) : t.UrlsPlain := by
  have same (log : t.log = s.log) : ∀ req ∈ t.dispatched, ¬ crlf <:+: req.url := by
    have dispatched : t.dispatched = s.dispatched := congrArg (·.2.1) log
    rw [dispatched]
    exact plain.dispatched
  cases turn with
  | rests state context log world =>
      exact ⟨same log, fun opened => context ▸ plain.parsing (state ▸ opened)⟩
  | hangsUp shut log world => exact ⟨same log, fun opened => absurd opened shut⟩
  | waits opened parsed unfinished state log world =>
      have dispatched : t.dispatched = s.dispatched := congrArg (·.2.1) log
      exact ⟨dispatched ▸ plain.dispatched,
        fun _ => HttpContext.parseRequest_url (plain.parsing opened) parsed⟩
  | refuses opened parsed state log world =>
      have dispatched : t.dispatched = s.dispatched := congrArg (·.2.1) log
      exact ⟨dispatched ▸ plain.dispatched, fun opened => by rw [state] at opened; cases opened⟩
  | @answers input context opened parsed complete reset state log world =>
      have dispatched : t.dispatched = s.dispatched ++ [context.request] := congrArg (·.2.1) log
      refine ⟨?_, fun _ inside => ?_⟩
      · intro req among
        rw [dispatched, List.mem_append, List.mem_singleton] at among
        rcases among with before | rfl
        · exact plain.dispatched req before
        · exact HttpContext.parseRequest_url (plain.parsing opened) parsed
      · rw [reset] at inside
        cases List.infix_nil.mp inside

end Session

/-! ## The wire of the file server -/

namespace FileServer

section Answers

variable {server : FileServer} {fs : FileSystem} {request : HttpRequest} {r : HttpResponse}
  {change : Option Change} {closeConnection : Bool}

theorem delimited_of_announces (announces : AnnouncesLength request)
    (returned : server.analyzeRequest fs request (.construct closeConnection) = .ok (r, change)) :
    r.Delimited := by
  unfold analyzeRequest at returned
  by_cases root : request.url = ascii "/"
  · rw [if_pos root] at returned
    exact handleList_delimited (unchanged_eq_ok.mp returned).1
  by_cases icon : request.url = ascii "/favicon.ico"
  · rw [if_neg root, if_pos icon] at returned
    exact buildDownloadResponse_delimited (unchanged_eq_ok.mp returned).1
  obtain ⟨method, noRange⟩ := (announces.resolve_left root).resolve_left icon
  rw [if_neg root, if_neg icon, if_pos method] at returned
  exact (handleDownload_delimited_iff (unchanged_eq_ok.mp returned).1).mpr noRange

/-- What is answered to a request for the list or a whole file is framed. -/
theorem framed_of_announces (whole : server.RootWhole) (plain : ¬ crlf <:+: request.url)
    (announces : AnnouncesLength request)
    (returned : server.analyzeRequest fs request (.construct closeConnection) = .ok (r, change)) :
    Framed takeReply r.message r.reply := by
  have built := analyzeRequest_built (getFileName_unbroken whole plain) returned
  exact HttpResponse.framed_of_delimited built.mapped built.plain
    (delimited_of_announces announces returned)

end Answers

section Runs

variable {N L : Type} [DecidableEq N] [DecidableEq L] [Fintype L] {server : FileServer}
  {timeout : Int} {main : L} {loops : List L} {start disk' : Disk N}
  {s : SharedServer (Option (Disk N)) L} {actions : List (ServerAction (Option (Disk N)) L)}
  {c : Nat} {session : Session (Option (Disk N))}

omit [DecidableEq L] [Fintype L] in
/-- The response to each call of a process that still runs. -/
theorem answer_of_history {calls : List (Nat × HttpRequest)}
    (running : Serial.outcome (server.httpServer timeout).serve (some start) calls = some disk')
    {request : HttpRequest} {response : HttpResponse}
    (among : (request, response) ∈
      Serial.of c (Serial.history (server.httpServer timeout).serve (some start) calls)) :
    ∃ (disk : Disk N) (change : Option Change),
      server.answer disk request = .ok (response, change) := by
  obtain ⟨before, after, split⟩ := List.append_of_mem (Serial.mem_of.mp among)
  obtain ⟨earlier, later, rfl, -, rfl, -⟩ := Serial.history_split split
  rw [Serial.outcome_append, Serial.outcome_cons] at running
  obtain ⟨disk₁, served⟩ := outcome_earlier running
  obtain ⟨disk, change, -, answered, -⟩ := serve_eq_some served
  exact ⟨disk, change, answered⟩

/-- **Replies arrive as they were made**, where no two calls of `AnalyzeRequest` overlap: in a
process that still runs, and without socket errors and messages over `INT_MAX`, a client that
has asked for the list and for whole files takes off the wire, at any moment, the responses to
its first requests in the order of the requests, each with the status, the fields and the body
it was made with, and what is left over is a part of what comes next. -/
theorem replies_arrive
    (performed : perform (SharedServer.step (server.httpServer timeout) main loops)
      { world := some start } actions = some s)
    (clean : ∀ action ∈ actions, action.Answers CleanWrites fun _ => True)
    (running : s.world = some disk') (whole : server.RootWhole)
    (found : s.server.session c = some session) (uncut : session.conn.Uncut)
    (announces : ∀ request ∈ Serial.of c s.calls, AnnouncesLength request) :
    ∃ done todo rest,
      Serial.of c (Serial.history (server.httpServer timeout).serve (some start) s.calls) =
        done ++ todo ∧
      receive takeReply session.conn.wire = (done.map fun answered => answered.2.reply, rest) ∧
      session.conn.wire = (done.map fun answered => answered.2.message).flatten ++ rest ∧
      rest <+: (todo.map fun answered => answered.2.message).flatten ++ HttpServer.badRequest ∧
      ∀ answered ∈ todo.head?, rest.length < answered.2.message.length := by
  obtain ⟨world, -, -, shares⟩ := SharedServer.serialized_of_reaches (reaches_of_perform performed)
  obtain ⟨dispatched, messages⟩ := shares c session found
  obtain ⟨actions', performed', clean'⟩ :=
    SharedServer.performed_server (fun _ _ clean => clean) performed clean
  have lived := TcpServer.lived_of_performed performed' clean' found
  have accounted : session.conn.Accounted := lived.invariant (Q := fun s => s.conn.Accounted)
    (fun _ => accounted_of_established) fun _ _ _ before => accounted_step before
  have plain : session.Drained ∧ session.UrlsPlain := by
    refine lived.invariant (Q := fun s => s.Drained ∧ s.UrlsPlain)
      (fun _ established =>
        ⟨drained_of_established established, urlsPlain_of_established established⟩) ?_
    rintro s action t ⟨drained, plain⟩ - stepped
    obtain ⟨world, turn, drained'⟩ := sessionStep_turn drained stepped
    exact ⟨drained', turn.urlsPlain ⟨plain.dispatched, plain.parsing⟩⟩
  generalize entries : Serial.of c
    (Serial.history (server.httpServer timeout).serve (some start) s.calls) = answers
  have asked : answers.map Prod.fst = Serial.of c s.calls := entries ▸ Serial.of_history c
  have framed : ∀ answered ∈ answers, Framed takeReply answered.2.message answered.2.reply := by
    rintro ⟨request, response⟩ among
    have requested : request ∈ Serial.of c s.calls := asked ▸ List.mem_map_of_mem among
    obtain ⟨disk, change, answered⟩ := answer_of_history (world ▸ running) (entries ▸ among)
    exact framed_of_announces whole (plain.2.dispatched request (dispatched ▸ requested))
      (announces request requested) answered
  have sent : session.conn.wire <+: (answers.map fun answered => answered.2.message).flatten ++
      HttpServer.badRequest := by
    have conserved : session.conn.messages.flatten =
      session.conn.wire ++ session.conn.sendBuf.readable := accounted.whole uncut
    have front : session.conn.wire <+: session.conn.messages.flatten := ⟨_, conserved.symm⟩
    rw [SharedServer.answersOf, entries] at messages
    rcases messages with all | ⟨-, refused⟩
    · rw [all] at front
      exact front.trans (List.prefix_append _ _)
    · rw [refused, List.flatten_append] at front
      simpa using front
  obtain ⟨done, todo, rest, arrived, received⟩ :=
    receive_stream framed (fun _ => takeReply_refusal) sent
  exact ⟨done, todo, rest, arrived.split, received, arrived.input, arrived.within, arrived.short⟩

end Runs

/-- One peer has uploaded a file, and another one takes it off the wire. -/
theorem replies_arrive_hello :
    ∃ (s : SharedServer (Option (Disk Bytes)) Unit) (session : Session (Option (Disk Bytes)))
        (done : List (HttpRequest × HttpResponse)),
      perform (SharedServer.step (({} : FileServer).httpServer 0) () [])
        { world := some emptyDisk } uploadRun = some s ∧ s.server.session 1 = some session ∧
      (receive takeReply session.conn.wire).1 = done.map (fun answered => answered.2.reply) ∧
      done.map (fun answered => answered.2.body) = [ascii "hello"] := by
  have performed : ((perform (SharedServer.step (({} : FileServer).httpServer 0) () [])
      { world := some emptyDisk } uploadRun).any fun s => s.world.isSome &&
        ((Serial.of 1 s.calls).all fun request =>
          request.method = .kGet ∧ request.headers (ascii "Range") = none) &&
        (s.server.session 1).any fun session =>
          (session.conn.messages.all fun msg => msg.length < 2 ^ 31) &&
          (receive takeReply session.conn.wire).1.map Reply.body = [ascii "hello"]) = true := by
    decide +kernel
  obtain ⟨s, performed, known⟩ := (Option.any_eq_true _ _).mp performed
  rw [Bool.and_eq_true, Bool.and_eq_true] at known
  obtain ⟨⟨running, asks⟩, known⟩ := known
  obtain ⟨disk', running⟩ := Option.isSome_iff_exists.mp running
  obtain ⟨session, found, known⟩ := (Option.any_eq_true _ _).mp known
  rw [Bool.and_eq_true] at known
  obtain ⟨uncut, bodies⟩ := known
  have uncut : session.conn.Uncut := fun msg among =>
    of_decide_eq_true (List.all_eq_true.mp uncut msg among)
  have announces : ∀ request ∈ Serial.of 1 s.calls, AnnouncesLength request := fun request among =>
    Or.inr (Or.inr (of_decide_eq_true (List.all_eq_true.mp asks request among)))
  have clean : ∀ action ∈ uploadRun, action.Answers CleanWrites fun _ => True := by
    simp [uploadRun, SharedServer.twoPeersRun, ServerAction.Answers, CleanWrites, WriteResult.Clean]
  obtain ⟨done, todo, rest, -, received, -⟩ :=
    replies_arrive performed clean running ⟨by decide, by decide⟩ found uncut announces
  refine ⟨s, session, done, performed, found, by rw [received], ?_⟩
  have bodies := of_decide_eq_true bodies
  rw [received, List.map_map] at bodies
  exact bodies

end FileServer

end CppFileServer.Http
