/-
# Tcp.Asserts -- what the kernel answers, and the assertions on the way

Four assertions look at what a system call has answered: that `HandleNewConnection`
has a descriptor, that `HandleCloseInLoop` finds the connection, that `Retrieve` does
not drop more than there is, and that the eventfd of a loop has been read.  Under the
last three stand invariants of the loops, the map and the buffers, which no answer
breaks.  The first has nothing under it: `AcceptConnection` reports a failed `accept4`
and then hands -1 on (`asserts_hold_iff`).

`kernelStep` is the step of the server with the answer of `accept4` as an input.
-/
import CppFileServer.Http.ParserFaults
import CppFileServer.Tcp.Lifecycle

namespace CppFileServer.Tcp

set_option autoImplicit false

open CppFileServer.Cpp CppFileServer.Http CppFileServer.Theory CppFileServer.Utils

/-- No assertion of the call fails. -/
def AssertFree {α : Type} (x : Result α) : Prop := x ≠ .error .assertion

/-! ## What `accept4` answers -/

/-- What `accept4` answers: a descriptor, or -1 with `errno`. -/
inductive AcceptResult
  | descriptor (fd : Nat)
  | failed (errno : Errno)

def AcceptResult.value : AcceptResult → Int
  | descriptor fd => fd
  | failed _ => -1

/-- The steps of the server, with a call of `accept4` that may answer anything. -/
inductive KernelAction (σ L : Type)
  | accept4 (answer : AcceptResult) (state : ConnectionState) (completeHeaders : Bool) (world : σ)
  | server (action : ServerAction σ L)

namespace TcpServer

section Accepting

variable {σ L : Type} [DecidableEq L] [Fintype L] (server : HttpServer σ) (main : L)
  (loops : List L)

/-- `HandleNewConnection` from its assertion to the construction of the connection, in the
callback of the listening channel; `rest` are the channels to be handled after it. -/
def handleNewConnection (s : TcpServer σ L) (rest : List (Active Ready)) (fd : Int)
    (state : ConnectionState) (completeHeaders : Bool) (world : σ) : Result (TcpServer σ L) :=
  if fd = -1 then .error .assertion
  else
    .ok ((s.newConnection main loops fd.toNat state completeHeaders world).setLoop main
      { s.loop main with phase := .handling (.channel (.establishing s.created) :: rest) })

/-- `AcceptConnection`, which hands on whatever `accept4` has answered. -/
def acceptConnection (s : TcpServer σ L) (rest : List (Active Ready)) (answer : AcceptResult)
    (state : ConnectionState) (completeHeaders : Bool) (world : σ) : Result (TcpServer σ L) :=
  s.handleNewConnection main loops rest answer.value state completeHeaders world

/-- The kernel hands out no descriptor that is open. -/
def mayAnswer (s : TcpServer σ L) : AcceptResult → Bool
  | .descriptor fd => !s.fdOpen fd
  | .failed _ => true

def kernelStep (s : TcpServer σ L) : KernelAction σ L → Option (Result (TcpServer σ L))
  | .accept4 answer state completeHeaders world =>
      match (s.loop main).phase with
      | .handling (.channel .accept :: rest) =>
          if s.mayAnswer answer then
            some (s.acceptConnection main loops rest answer state completeHeaders world)
          else none
      | _ => none
  | .server (.accept _ _ _ _) => none
  | .server action => s.step server main loops action

/-- The assertions that the next step of a loop comes to hold, and the map has the
descriptors of connections that are there. -/
structure AssertsHold (s : TcpServer σ L) (action : KernelAction σ L) : Prop where
  /-- `assert(fd != -1)` in `HandleNewConnection`. -/
  newConnection : ∀ answer state completeHeaders world rest,
    action = .accept4 answer state completeHeaders world →
    (s.loop main).phase = .handling (.channel .accept :: rest) → s.mayAnswer answer = true →
      AssertFree (s.acceptConnection main loops rest answer state completeHeaders world)
  /-- `assert(it != connectionsMap_.end())` in `HandleCloseInLoop`. -/
  closeInLoop : ∀ l c k, s.RunsHandleCloseInLoop main l c → s.connection c = some k →
    s.connectionsMap k.fd ≠ none
  /-- `assert(len <= readablebytes())` in `Retrieve`, and the others of `Buffer`. -/
  handleEvent : ∀ l inputs c events rest k, action = .server (.event l inputs) →
    (s.loop l).phase = .handling (.channel (.connection c events) :: rest) →
    s.connection c = some k →
      AssertFree (Tcp.handleEvent server { k.session with world := inputs.world } events inputs)
  /-- `assert(read_size == sizeof(read_one_byte))` in `HandleRead`. -/
  handleRead : ∀ l rest, (s.loop l).phase = .handling (.wakeup :: rest) →
    AssertFree (s.loop l).handleRead
  descriptors : ∀ fd c, s.connectionsMap fd = some c → s.fdOpen fd = true

/-- The step is no call of `accept4` that fails. -/
def Accepts (s : TcpServer σ L) (action : KernelAction σ L) : Prop :=
  ∀ errno state completeHeaders world, action = .accept4 (.failed errno) state completeHeaders world →
    s.kernelStep server main loops action = none

end Accepting

end TcpServer

/-! ## Calls in which no assertion fails -/

section AssertFree

variable {α β : Type}

theorem assertFree_ok (a : α) : AssertFree (.ok a : Result α) := by
  rintro ⟨⟩

theorem AssertFree.bind {x : Result α} {f : α → Result β} (first : AssertFree x)
    (later : ∀ a, x = .ok a → AssertFree (f a)) : AssertFree (x >>= f) := by
  cases x with
  | error e =>
      intro failed
      rw [error_bind] at failed
      exact first (congrArg Except.error (Except.error.inj failed))
  | ok a =>
      rw [ok_bind]
      exact later a rfl

theorem assertFree_error {f : Fault} (other : f ≠ .assertion) :
    AssertFree (.error f : Result α) :=
  fun failed => other (Except.error.inj failed)

/-- A fault that is passed on. -/
theorem AssertFree.passed {f : Fault} (free : AssertFree (.error f : Result α)) :
    AssertFree (.error f : Result β) :=
  assertFree_error fun same => free (congrArg Except.error same)

theorem assertFree_checkedInt (n : Int) : AssertFree (checkedInt n) := by
  unfold checkedInt
  split_ifs
  · exact assertFree_ok n
  · exact assertFree_error (by decide)

theorem assertFree_substr (s : Bytes) (pos : Nat) : AssertFree (substr s pos) := by
  unfold substr
  split_ifs
  · exact assertFree_ok _
  · exact assertFree_error (by decide)

theorem assertFree_stoul (base : Nat) (s : Bytes) : AssertFree (stoul base s) := by
  unfold stoul
  simp only
  split_ifs
  · exact assertFree_error (by decide)
  · exact assertFree_error (by decide)
  · exact assertFree_ok _
  · exact assertFree_ok _

end AssertFree

/-! ## The buffers -/

section Buffers

variable (b : Buffer)

theorem assertFree_slice (first last : Int) : AssertFree (b.slice first last) := by
  unfold Buffer.slice
  split_ifs
  · exact assertFree_ok _
  · exact assertFree_error (by decide)

theorem assertFree_overwrite (buf : Bytes) (dest : Int) (data : Bytes) :
    AssertFree (Buffer.overwrite buf dest data) := by
  unfold Buffer.overwrite
  split_ifs
  · exact assertFree_ok _
  · exact assertFree_error (by decide)

theorem assertFree_moveToFront : AssertFree b.moveToFront := by
  unfold Buffer.moveToFront
  split_ifs
  · exact assertFree_error (by decide)
  · exact (assertFree_slice b _ _).bind fun data _ => assertFree_overwrite b.buf _ data

theorem assertFree_resize (buf : Bytes) (size : Int) : AssertFree (Buffer.resize buf size) := by
  unfold Buffer.resize
  split_ifs
  · exact assertFree_error (by decide)
  · exact assertFree_ok _

theorem assertFree_ensureWritableBytes (len : Int) : AssertFree (b.ensureWritableBytes len) := by
  refine (assertFree_checkedInt _).bind fun writable _ => ?_
  split_ifs
  · exact assertFree_ok b
  · refine (assertFree_checkedInt _).bind fun room _ => ?_
    refine (assertFree_checkedInt _).bind fun wanted _ => ?_
    split_ifs
    · refine (assertFree_moveToFront b).bind fun buf _ => ?_
      refine (assertFree_checkedInt _).bind fun readable _ => ?_
      exact (assertFree_checkedInt _).bind fun writeIndex _ => assertFree_ok _
    · refine (assertFree_checkedInt _).bind fun size _ => ?_
      exact (assertFree_resize b.buf size).bind fun buf _ => assertFree_ok _

theorem assertFree_append (str : Bytes) (size : Int) : AssertFree (b.append str size) := by
  refine (assertFree_ensureWritableBytes b size).bind fun roomy _ => ?_
  split_ifs
  · exact assertFree_error (by decide)
  · refine (assertFree_overwrite _ _ _).bind fun buf _ => ?_
    exact (assertFree_checkedInt _).bind fun writeIndex _ => assertFree_ok _

/-- `Retrieve` of at most what the indices say is there. -/
theorem assertFree_retrieve {len : Int} (held : len ≤ b.writeIndex - b.readIndex) :
    AssertFree (b.retrieve len) := by
  refine (assertFree_checkedInt _).bind fun readable counted => ?_
  obtain ⟨-, rfl⟩ := checkedInt_eq_ok.mp counted
  rw [if_neg (by omega)]
  refine (assertFree_checkedInt _).bind fun next _ => ?_
  split_ifs <;> exact assertFree_ok _

end Buffers

/-! ## A connection -/

namespace TcpConnection

variable (c : TcpConnection)

/-- Whatever `write` answers, it has taken no more than it was offered. -/
theorem dataSend_le (offered : Bytes) (result : WriteResult) :
    dataSend offered result ≤ offered.length := by
  cases result with
  | accepts count =>
      simp only [dataSend, List.length_take]
      omega
  | failed errno => cases errno <;> simp only [dataSend] <;> omega

/-- **The assertion of `Retrieve`** holds behind every answer of `write`. -/
theorem assertFree_writeNonBlocking (result : WriteResult) :
    AssertFree (c.writeNonBlocking result) := by
  refine (assertFree_checkedInt _).bind fun size counted => ?_
  obtain ⟨-, rfl⟩ := checkedInt_eq_ok.mp counted
  refine (assertFree_slice c.sendBuf _ _).bind fun offered peeked => ?_
  have length : (offered.length : Int) ≤ c.sendBuf.writeIndex - c.sendBuf.readIndex := by
    unfold Buffer.slice at peeked
    split_ifs at peeked with inside
    cases peeked
    rw [List.length_take]
    omega
  have bounded := dataSend_le offered result
  refine (assertFree_retrieve c.sendBuf (by omega)).bind fun sendBuf _ => ?_
  exact assertFree_ok _

theorem assertFree_send (msg : Bytes) (result : WriteResult) : AssertFree (c.send msg result) := by
  refine (assertFree_append _ _ _).bind fun sendBuf _ => ?_
  refine (assertFree_writeNonBlocking _ result).bind fun wrote _ => ?_
  refine (assertFree_checkedInt _).bind fun left _ => ?_
  split_ifs <;> exact assertFree_ok _

theorem assertFree_handleWrite (result : WriteResult) : AssertFree (c.handleWrite result) := by
  refine (assertFree_writeNonBlocking c result).bind fun wrote _ => ?_
  refine (assertFree_checkedInt _).bind fun left _ => ?_
  split_ifs <;> exact assertFree_ok _

theorem assertFree_readNonBlocking (results : List ReadResult) :
    AssertFree (c.readNonBlocking results) := by
  induction results generalizing c with
  | nil => exact assertFree_error (by decide)
  | cons result rest ih =>
      cases result with
      | data bytes => exact (assertFree_append _ _ _).bind fun readBuf _ => ih _
      | eof => exact assertFree_ok _
      | failed errno =>
          cases errno with
          | eintr => exact ih c
          | eagain => exact assertFree_ok _
          | epipe => exact assertFree_ok _
          | econnreset => exact assertFree_ok _
          | other code => exact assertFree_ok _

end TcpConnection

/-! ## The parser -/

section Parser

open HttpContext

theorem assertFree_parseFieldLine (r : HttpRequest) (line : Bytes) :
    AssertFree (parseFieldLine r line) := by
  unfold parseFieldLine
  split
  · exact assertFree_ok _
  · exact (assertFree_substr _ _).bind fun value _ => assertFree_ok _

theorem assertFree_parseFields (r : HttpRequest) (lines : List Bytes) :
    AssertFree (parseFields r lines) := by
  induction lines generalizing r with
  | nil => exact assertFree_ok _
  | cons line lines ih =>
      have first := assertFree_parseFieldLine r line
      rw [parseFields]
      cases parsed : parseFieldLine r line with
      | error f => exact (parsed ▸ first).passed
      | ok kept =>
          cases kept with
          | none => exact assertFree_ok _
          | some r' => exact ih r'

theorem assertFree_parseHeader (r : HttpRequest) (header : Bytes) :
    AssertFree (parseHeader r header) := by
  rw [parseHeader_lines]
  split
  · exact assertFree_ok _
  · rename_i requestLine fields lines
    obtain ⟨ok, r', parsed⟩ := parseRequestLine_returns r requestLine
    split_ifs
    · exact assertFree_ok _
    · simp only [parsed]
      cases ok with
      | false => exact assertFree_ok _
      | true => exact assertFree_parseFields r' fields

variable (c : HttpContext)

theorem assertFree_parseHead : AssertFree (parseHead c) := by
  unfold parseHead
  split
  · exact assertFree_ok _
  · rename_i headerEnd found
    have header := assertFree_parseHeader c.request (c.buffer.take (headerEnd + 2))
    cases parsed : parseHeader c.request (c.buffer.take (headerEnd + 2)) with
    | error f => exact (parsed ▸ header).passed
    | ok answer =>
        obtain ⟨ok, r⟩ := answer
        cases ok <;> exact assertFree_ok _

theorem assertFree_chunkTurn : AssertFree (chunkTurn c) := by
  have chunk : AssertFree (parseChunk c) := by
    unfold parseChunk
    split
    · exact assertFree_ok _
    · rename_i chunkSizeEnd found
      have size := assertFree_stoul 16 (c.buffer.take chunkSizeEnd)
      cases parsed : stoul 16 (c.buffer.take chunkSizeEnd) with
      | error f => exact (parsed ▸ size).passed
      | ok chunkSize =>
          simp only
          split_ifs <;> exact assertFree_ok _
  unfold chunkTurn
  cases turned : parseChunk c with
  | error f => exact (turned ▸ chunk).passed
  | ok turn => cases turn <;> exact assertFree_ok _

theorem assertFree_parseChunkedBody : AssertFree (parseChunkedBody c) := by
  refine loop_rule (P := fun _ => True) (Q := AssertFree) (fun c => c.buffer.length) ?_ ?_ ?_
    trivial (Nat.lt_succ_self _)
  · exact fun _ _ _ again => ⟨trivial, chunkTurn_again_length again⟩
  · exact fun _ r _ _ => assertFree_ok r
  · intro c f _ thrown
    exact (thrown ▸ assertFree_chunkTurn c).passed

theorem assertFree_parseBody : AssertFree (parseBody c) := by
  unfold parseBody
  split_ifs
  · exact assertFree_parseChunkedBody c
  · exact assertFree_ok _
  · split
    · exact assertFree_ok _
    · split_ifs <;> exact assertFree_ok _
  · exact assertFree_ok _

theorem assertFree_parseRequest (str : Bytes) : AssertFree (c.parseRequest str) := by
  rw [parseRequest_eq]
  split_ifs
  · exact assertFree_parseBody _
  · have head := assertFree_parseHead (c.push str)
    cases parsed : parseHead (c.push str) with
    | error f => exact (parsed ▸ head).passed
    | ok head =>
        cases head with
        | incomplete => exact assertFree_ok _
        | refused c' => exact assertFree_ok _
        | parsed c' => exact assertFree_parseBody c'

end Parser

/-! ## The callbacks -/

section Server

variable {σ : Type} {server : HttpServer σ} {s t : Session σ}

theorem assertFree_onRequest (req : HttpRequest) (result : WriteResult) :
    AssertFree (server.onRequest s req result) := by
  unfold HttpServer.onRequest
  exact (TcpConnection.assertFree_send _ _ _).bind fun conn _ => assertFree_ok _

theorem assertFree_answer (result : WriteResult) (parsed : Bool × HttpContext) :
    AssertFree (server.answer s result parsed) := by
  obtain ⟨ok, context⟩ := parsed
  cases ok with
  | false =>
      unfold HttpServer.answer
      exact (TcpConnection.assertFree_send _ _ _).bind fun conn _ => assertFree_ok _
  | true =>
      simp only [HttpServer.answer]
      split_ifs
      · exact (assertFree_onRequest _ result).bind fun s _ => assertFree_ok _
      · exact assertFree_ok _

theorem assertFree_onMessage (valid : s.conn.readBuf.Valid) (now : Int) (result : WriteResult) :
    AssertFree (server.onMessage now result s) := by
  by_cases connected : s.conn.state = .Connected
  · rw [server.onMessage_of_connected connected valid]
    split_ifs
    · exact assertFree_ok _
    · exact (assertFree_parseRequest _ _).bind fun parsed _ => assertFree_answer result parsed
  · rw [server.onMessage_of_not_connected connected]
    exact assertFree_ok s

/-- An answer leaves `read_buf_` alone. -/
theorem answer_readBuf {result : WriteResult} {parsed : Bool × HttpContext}
    (answered : server.answer s result parsed = .ok t) : t.conn.readBuf = s.conn.readBuf := by
  obtain ⟨ok, context⟩ := parsed
  cases ok with
  | false =>
      obtain ⟨conn, sends, ended⟩ := bind_eq_ok answered
      obtain ⟨b, channel, wire, rfl⟩ := TcpConnection.send_eq_ok sends
      cases ended
      simp
  | true =>
      by_cases complete : context.completeRequest = true
      · exact (server.answer_complete_eq_ok complete answered).2.2.1
      · rw [server.answer_incomplete s (by simpa using complete), Except.ok.injEq] at answered
        rw [← answered]

theorem onMessage_valid (valid : s.conn.readBuf.Valid) {now : Int} {result : WriteResult}
    (answered : server.onMessage now result s = .ok t) : t.conn.readBuf.Valid := by
  by_cases connected : s.conn.state = .Connected
  · rw [server.onMessage_of_connected connected valid] at answered
    split_ifs at answered
    · cases answered
      simpa using valid
    · obtain ⟨parsed, -, answered⟩ := bind_eq_ok answered
      rw [answer_readBuf answered]
      exact (Buffer.retrieveAll_valid valid).1
  · rw [server.onMessage_of_not_connected connected] at answered
    cases answered
    exact valid

variable {events : BitVec 32} {inputs : Inputs σ}

theorem readCallback_spec (valid : s.conn.readBuf.Valid) :
    AssertFree (readCallback server s events inputs) ∧
      ∀ t, readCallback server s events inputs = .ok t → t.conn.readBuf.Valid := by
  unfold readCallback
  split_ifs
  · refine ⟨?_, ?_⟩
    · apply (TcpConnection.assertFree_readNonBlocking s.conn inputs.results).bind
      intro conn read
      exact assertFree_onMessage (TcpConnection.readNonBlocking_valid valid read) _ _
    · intro t handled
      obtain ⟨conn, read, handled⟩ := bind_eq_ok handled
      exact onMessage_valid (TcpConnection.readNonBlocking_valid valid read) handled
  · refine ⟨assertFree_ok s, ?_⟩
    rintro t ⟨⟩
    exact valid

/-- **No answer of `read` or `write` trips an assertion of `HandleEvent`.** -/
theorem assertFree_handleEvent (valid : s.conn.readBuf.Valid) :
    AssertFree (handleEvent server s events inputs) := by
  apply (readCallback_spec valid).1.bind
  intro u _
  unfold writeCallback
  split_ifs
  · exact (TcpConnection.assertFree_handleWrite _ _).bind fun conn _ => assertFree_ok _
  · exact assertFree_ok u

theorem handleEvent_valid (valid : s.conn.readBuf.Valid)
    (handled : handleEvent server s events inputs = .ok t) : t.conn.readBuf.Valid := by
  obtain ⟨u, readable, handled⟩ := bind_eq_ok handled
  have kept := (readCallback_spec valid).2 u readable
  unfold writeCallback at handled
  split_ifs at handled
  · obtain ⟨conn, wrote, handled⟩ := bind_eq_ok handled
    obtain ⟨b, channel, wire, rfl⟩ := TcpConnection.handleWrite_frame wrote
    cases handled
    exact kept
  · cases handled
    exact kept

end Server

/-! ## The eventfd of a loop -/

namespace EventLoop

variable {loop loop' : EventLoop Ready Task}

/-- A callback of another channel is begun, left or replaced. -/
theorem Readable.handling {before after : List (Active Ready)} (readable : loop.Readable)
    (handling : loop.phase = .handling before)
    (same : after.count .wakeup = before.count .wakeup) :
    ({ loop with phase := .handling after } : EventLoop Ready Task).Readable := by
  unfold Readable at *
  simp only [handling] at readable
  simpa only [same] using readable

theorem readable_of_poll {ready : List (Active Ready)}
    (polled : loop.poll ready = some loop') : loop'.Readable := by
  obtain ⟨-, reported, rfl⟩ := poll_eq_some polled
  exact reported

/-- A wake-up makes the counter greater. -/
theorem Readable.queueOneFunc (readable : loop.Readable) {inLoopThread : Bool} {f : Task}
    (queued : loop.queueOneFunc inLoopThread f = .ok loop') : loop'.Readable := by
  have more : loop'.phase = loop.phase ∧ loop.counter ≤ loop'.counter := by
    unfold EventLoop.queueOneFunc at queued
    split_ifs at queued
    · rw [wakeup_eq_ok queued]
      exact ⟨rfl, Nat.le_succ _⟩
    · cases queued
      exact ⟨rfl, le_refl _⟩
  unfold Readable at *
  rw [more.1]
  cases phase : loop.phase with
  | handling ready =>
      simp only [phase] at readable ⊢
      omega
  | _ => trivial

theorem Readable.proceed (readable : loop.Readable) (proceeded : loop.proceed = some (.ok loop')) :
    loop'.Readable := by
  unfold EventLoop.proceed at proceeded
  split at proceeded
  · cases proceeded
  · rename_i rest handling
    obtain ⟨read, handled, left⟩ := bind_eq_ok (Option.some.inj proceeded)
    cases left
    -- the wake-up channel was returned once
    unfold Readable at readable
    simp only [handling, List.count_cons_self] at readable
    exact Or.inl (by omega)
  · rename_i event rest handling
    cases proceeded
    exact readable.handling handling (List.count_cons_of_ne (by simp)).symm
  all_goals
    cases proceeded
    trivial

/-- **The eventfd is read when it has something to read.** -/
theorem Readable.handleRead (readable : loop.Readable) {rest : List (Active Ready)}
    (handling : loop.phase = .handling (.wakeup :: rest)) : AssertFree loop.handleRead := by
  unfold Readable at readable
  simp only [handling, List.count_cons_self] at readable
  rw [EventLoop.handleRead, if_pos (by omega)]
  exact assertFree_ok _

end EventLoop

namespace TcpServer

variable {σ L : Type}

/-- What the assertions of the loops and of the buffers rest on. -/
structure Guarded (s : TcpServer σ L) : Prop where
  readable : ∀ l, (s.loop l).Readable
  readBufs : ∀ c k, s.connection c = some k → k.session.conn.readBuf.Valid

namespace Guarded

variable {main : L} {s t : TcpServer σ L}

/-- One connection is replaced, or a new one is there. -/
theorem updated (guarded : Guarded s) {c : Nat} {k : Connection σ L} (loop : t.loop = s.loop)
    (connection : t.connection = Function.update s.connection c (some k))
    (valid : k.session.conn.readBuf.Valid) : Guarded t := by
  refine ⟨fun l => loop ▸ guarded.readable l, ?_⟩
  intro d k' found
  rw [connection] at found
  by_cases here : d = c
  · subst here
    rw [Function.update_self] at found
    cases found
    exact valid
  · rw [Function.update_of_ne here] at found
    exact guarded.readBufs d k' found

theorem setConnection (guarded : Guarded s) (c : Nat) {k : Connection σ L}
    (valid : k.session.conn.readBuf.Valid) : Guarded (s.setConnection c k) :=
  guarded.updated rfl rfl valid

variable [DecidableEq L]

theorem setLoop (guarded : Guarded s) {l : L} {loop : EventLoop Ready Task}
    (readable : loop.Readable) : Guarded (s.setLoop l loop) := by
  refine ⟨?_, guarded.readBufs⟩
  exact setLoop_forall (P := fun _ loop => loop.Readable) readable fun l _ => guarded.readable l

theorem queueOneFunc (guarded : Guarded s) {caller l : L} {f : Task}
    (queued : s.queueOneFunc caller l f = .ok t) : Guarded t := by
  obtain ⟨loop, pushed, ended⟩ := bind_eq_ok queued
  cases ended
  exact guarded.setLoop ((guarded.readable l).queueOneFunc pushed)

theorem handleCloseInLoop (guarded : Guarded s) {c : Nat}
    (closed : s.handleCloseInLoop main c = .ok t) : Guarded t := by
  unfold TcpServer.handleCloseInLoop at closed
  split at closed
  · cases closed
  · rename_i k found
    split_ifs at closed
    refine queueOneFunc ?_ closed
    exact guarded.updated rfl rfl (guarded.readBufs c k found)

theorem handleClose (guarded : Guarded s) {l : L} {c : Nat}
    (closed : s.handleClose main l c = .ok t) : Guarded t := by
  unfold TcpServer.handleClose at closed
  split at closed
  · cases closed
  · rename_i k found
    split_ifs at closed
    · exact guarded.handleCloseInLoop closed
    · refine queueOneFunc ?_ closed
      exact guarded.setConnection c (guarded.readBufs c k found)

theorem runTask (guarded : Guarded s) {f : Task} (ran : s.runTask main f = .ok t) : Guarded t := by
  cases f with
  | handleCloseInLoop c => exact guarded.handleCloseInLoop ran
  | connectionDestructor c =>
      have ran : s.connectionDestructor c = .ok t := ran
      unfold TcpServer.connectionDestructor at ran
      split at ran
      · cases ran
      · rename_i k found
        cases ran
        exact guarded.updated rfl rfl (guarded.readBufs c k found)

theorem settle (guarded : Guarded s) {l : L} {c : Nat} {k : Connection σ L} {session : Session σ}
    {before rest : List (Active Ready)}
    (handling : (s.loop l).phase = .handling before)
    (same : rest.count .wakeup = before.count .wakeup)
    (valid : session.conn.readBuf.Valid) : Guarded (s.settle l c k session rest) := by
  unfold TcpServer.settle
  split_ifs
  · refine (guarded.setConnection c valid).setLoop ?_
    apply (guarded.readable l).handling handling
    rw [List.count_cons_of_ne (by simp), same]
  · refine (guarded.setConnection c valid).setLoop ?_
    exact (guarded.readable l).handling handling same

/-- **Step lemma**: no step of a loop breaks it. -/
theorem step [Fintype L] {server : HttpServer σ} {loops : List L} (guarded : Guarded s)
    {action : ServerAction σ L} (stepped : s.step server main loops action = some (.ok t)) :
    Guarded t := by
  cases steps_of_step stepped with
  | poll reported polled => exact guarded.setLoop (EventLoop.readable_of_poll polled)
  | @accept fd state completeHeaders world rest handling notOpen =>
      have created : Guarded (s.newConnection main loops fd state completeHeaders world) :=
        guarded.updated rfl rfl Buffer.construct_valid
      apply created.setLoop
      apply (guarded.readable main).handling handling
      rw [List.count_cons_of_ne (by simp), List.count_cons_of_ne (by simp)]
  | @establish c k rest handling found =>
      have established : Guarded (s.establish server c k) :=
        guarded.updated rfl rfl (guarded.readBufs c k found)
      apply established.setLoop
      apply (guarded.readable main).handling handling
      rw [List.count_cons_of_ne (by simp)]
  | @event l inputs c events k session rest handling found held handled =>
      apply guarded.settle handling
      · rw [List.count_cons_of_ne (by simp)]
      · exact handleEvent_valid (s := { k.session with world := inputs.world })
          (guarded.readBufs c k found) handled
  | @timer l c now k rest handling found held set own =>
      apply guarded.settle handling rfl
      unfold HttpServer.handleActiveClose
      split_ifs
      · rw [TcpConnection.handleClose_readBuf]
        exact guarded.readBufs c k found
      · exact guarded.readBufs c k found
  | @expired l c now k found => exact guarded.setConnection c (guarded.readBufs c k found)
  | @close l c rest t handling closed =>
      refine handleClose (guarded.setLoop ?_) closed
      apply (guarded.readable l).handling handling
      rw [List.count_cons_of_ne (by simp)]
  | @proceed l loop proceeded noTask noCallback =>
      exact guarded.setLoop ((guarded.readable l).proceed proceeded)
  | @task l f done rest loop t running proceeded ran =>
      exact (guarded.setLoop ((guarded.readable l).proceed proceeded)).runTask ran

end Guarded

/-! ## Every run -/

section Runs

variable [DecidableEq L] [Fintype L] {server : HttpServer σ} {main : L} {loops : List L}
  {s t : TcpServer σ L}

/-- A step that returns is one of the server with a descriptor that is not open. -/
theorem kernelStep_eq_ok {action : KernelAction σ L}
    (stepped : s.kernelStep server main loops action = some (.ok t)) :
    ∃ action', s.step server main loops action' = some (.ok t) := by
  cases action with
  | accept4 answer state completeHeaders world =>
      simp only [kernelStep] at stepped
      split at stepped
      · rename_i rest handling
        split_ifs at stepped with may
        cases answer with
        | descriptor fd =>
            refine ⟨.accept fd state completeHeaders world, ?_⟩
            have notOpen : ¬ s.fdOpen fd = true := by simpa [mayAnswer] using may
            have valid : ¬ ((fd : Int) = -1) := by omega
            rw [acceptConnection, handleNewConnection, AcceptResult.value, if_neg valid] at stepped
            simp only [step, handling, if_neg notOpen]
            exact stepped
        | failed errno =>
            simp [acceptConnection, AcceptResult.value, handleNewConnection] at stepped
      · cases stepped
  | server action =>
      refine ⟨action, ?_⟩
      cases action with
      | accept => cases stepped
      | _ => exact stepped

omit [DecidableEq L] in
/-- A descriptor that the map has belongs to a connection that is there. -/
theorem fdOpen_of_mapped (invariant : Invariant main s) {fd c : Nat}
    (mapped : s.connectionsMap fd = some c) : s.fdOpen fd = true := by
  obtain ⟨k, found, rfl, -⟩ := (invariant.mapped fd c).mp mapped
  unfold fdOpen
  rw [List.any_eq_true]
  refine ⟨c, List.mem_range.mpr (invariant.known c k found), ?_⟩
  have held : s.Held c := Or.inl ⟨k, found, mapped⟩
  simp only [found, beq_self_eq_true, Bool.true_and, decide_eq_true_eq]
  exact held

/-- **What the kernel answers to `accept4` decides**, and nothing else that it answers. -/
theorem assertsHold_iff_accepts (invariant : Invariant main s) (guarded : Guarded s)
    (action : KernelAction σ L) :
    s.AssertsHold server main loops action ↔ s.Accepts server main loops action := by
  constructor
  · intro hold errno state completeHeaders world isAccept
    subst isAccept
    simp only [kernelStep]
    split
    · rename_i rest handling
      have free := hold.newConnection _ _ _ _ rest rfl handling rfl
      exact absurd rfl free
    · rfl
  · intro accepts
    refine ⟨?_, ?_, ?_, ?_, ?_⟩
    · intro answer state completeHeaders world rest isAccept handling may
      cases answer with
      | descriptor fd =>
          have valid : ¬ ((fd : Int) = -1) := by omega
          rw [acceptConnection, handleNewConnection, AcceptResult.value, if_neg valid]
          exact assertFree_ok _
      | failed errno =>
          have stays := accepts errno state completeHeaders world isAccept
          subst isAccept
          simp [kernelStep, handling, mayAnswer] at stays
    · intro l c k runs found
      obtain ⟨-, mapped, -⟩ := runsHandleCloseInLoop_mapped invariant found runs
      rw [mapped]
      exact Option.some_ne_none c
    · intro l inputs c events rest k _ _ found
      exact assertFree_handleEvent (s := { k.session with world := inputs.world })
        (guarded.readBufs c k found)
    · intro l rest handling
      exact (guarded.readable l).handleRead handling
    · intro fd c mapped
      exact fdOpen_of_mapped invariant mapped

theorem kernelStep_keeps (kept : Invariant main s ∧ Guarded s) {action : KernelAction σ L}
    (stepped : s.kernelStep server main loops action = some (.ok t)) :
    Invariant main t ∧ Guarded t := by
  obtain ⟨action', stepped⟩ := kernelStep_eq_ok stepped
  exact ⟨(step_advances kept.1 stepped).invariant, kept.2.step stepped⟩

theorem initial_kept (server : HttpServer σ) (main : L) (loops : List L) :
    Invariant main ({} : TcpServer σ L) ∧ Guarded ({} : TcpServer σ L) := by
  have reaches : Reaches (step server main loops) {} {} := Reaches.refl _
  refine ⟨reaches_invariant reaches, ?_, ?_⟩
  · exact fun _ => trivial
  · rintro c k ⟨⟩

/-- **The assertions hold throughout a run exactly if no call of `accept4` in it fails**,
whatever `read` and `write` answer and however the loops are interleaved. -/
theorem asserts_hold_iff (server : HttpServer σ) (main : L) (loops : List L)
    (actions : List (KernelAction σ L)) :
    Throughout (kernelStep server main loops) (AssertsHold server main loops) {} actions ↔
      Throughout (kernelStep server main loops) (Accepts server main loops) {} actions := by
  have preserved : ∀ (s : TcpServer σ L) a t, Invariant main s ∧ Guarded s →
      s.kernelStep server main loops a = some (.ok t) → Invariant main t ∧ Guarded t :=
    fun _ _ _ kept stepped => kernelStep_keeps kept stepped
  constructor
  · intro hold
    refine hold.imp (fun s a t kept _ => preserved s a t kept) ?_ (initial_kept server main loops)
    exact fun s a kept => (assertsHold_iff_accepts kept.1 kept.2 a).mp
  · intro accepts
    refine accepts.imp (fun s a t kept _ => preserved s a t kept) ?_ (initial_kept server main loops)
    exact fun s a kept => (assertsHold_iff_accepts kept.1 kept.2 a).mpr

end Runs

/-- The listening socket is reported, and `accept4` answers that there are too many files. -/
def exhaustedRun : List (KernelAction Unit Unit) :=
  [.server (.poll () [.channel .accept]), .accept4 (.failed (.other 24)) .Invalid false ()]

/-- `assert(fd != -1)` fails then. -/
theorem accept_failed :
    (∃ s, perform (kernelStep (HttpServer.construct 0) () []) {}
        [.server (.poll () [.channel .accept])] = some s ∧
      s.kernelStep (HttpServer.construct 0) () [] (.accept4 (.failed (.other 24)) .Invalid false ()) =
        some (.error .assertion)) ∧
    ¬ Throughout (kernelStep (HttpServer.construct 0) () [])
      (AssertsHold (HttpServer.construct 0) () []) {} exhaustedRun := by
  refine ⟨⟨_, rfl, rfl⟩, ?_⟩
  rintro ⟨-, later⟩
  obtain ⟨hold, -⟩ := later _ rfl
  exact hold.newConnection _ _ _ _ [] rfl rfl rfl rfl

end TcpServer

end CppFileServer.Tcp
