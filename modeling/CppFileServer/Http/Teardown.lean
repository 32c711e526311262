/-
# Http.Teardown -- what happens to unsent bytes when a connection is closed

`HandleClose` only marks the connection and queues a task on the main loop; that
task queues `ConnectionDestructor` on the loop of the connection, which takes the
channel out of the poller and drops the last reference, so that the descriptor is
closed.  Until then the loop still handles events of the connection.

So the bytes left in `send_buf_` at `HandleClose` reach the socket exactly if the
writable events in between accept that many (`torn_down_written_iff`).
-/
import CppFileServer.Http.HttpServer
import CppFileServer.Tcp.SendPath

namespace CppFileServer.Http

set_option autoImplicit false

open CppFileServer.Cpp CppFileServer.Tcp CppFileServer.Theory CppFileServer.Utils

/-- A connection with the tasks queued for it. -/
structure Life (σ : Type) where
  session : Session σ
  /-- `HandleCloseInLoop` is queued on the main loop. -/
  mainTask : Bool
  /-- `ConnectionDestructor` is queued on the loop of the connection. -/
  subTask : Bool
  /-- The channel is deleted and the descriptor closed. -/
  destroyed : Bool

inductive LoopEvent
  | readable (results : List ReadResult) (now : Int) (result : WriteResult)
  | writable (result : WriteResult)
  /-- The idle timer fires. -/
  | timer (now : Int)
  | mainLoop
  | subLoop

namespace Life

variable {σ : Type} (server : HttpServer σ)

/-- The session after an event; a call of `on_close_` has queued the task. -/
def settle (l : Life σ) (session : Session σ) : Life σ :=
  { l with
    session := session
    mainTask := l.mainTask || l.session.conn.closeRequests < session.conn.closeRequests }

def step (l : Life σ) : LoopEvent → Result (Life σ)
  | .readable results now result =>
      if l.destroyed then .ok l
      else do
        let session ← server.handleMessage l.session results now result
        pure (l.settle session)
  | .writable result =>
      if l.destroyed then .ok l
      else do
        let conn ← l.session.conn.handleWrite result
        pure (l.settle { l.session with conn := conn })
  | .timer now =>
      if l.destroyed then .ok l else .ok (l.settle (server.handleActiveClose l.session now))
  | .mainLoop =>
      if l.mainTask then .ok { l with mainTask := false, subTask := true } else .ok l
  | .subLoop =>
      if l.subTask then
        .ok { l with
          session := { l.session with
            conn := { l.session.conn with channel := l.session.conn.channel.delete } }
          subTask := false
          destroyed := true }
      else .ok l

/-- A connection that has just been established. -/
def start (state : ConnectionState) (completeHeaders : Bool) (world : σ) : Life σ where
  session := { conn := TcpConnection.established state completeHeaders, world := world }
  mainTask := false
  subTask := false
  destroyed := false

end Life

/-- No `write` of the event fails with a socket error. -/
def LoopEvent.Clean : LoopEvent → Prop
  | .readable _ _ result => result.Clean
  | .writable result => result.Clean
  | _ => True

instance (e : LoopEvent) : Decidable e.Clean := by
  cases e <;> unfold LoopEvent.Clean <;> infer_instance

/-- The bytes the kernel takes at most in a writable event. -/
def LoopEvent.room : LoopEvent → Nat
  | .writable (.accepts count) => count
  | _ => 0

/-- The bytes the kernel takes at most in a list of events. -/
def roomOf (events : List LoopEvent) : Nat := (events.map LoopEvent.room).sum

namespace Life

variable {σ : Type} {server : HttpServer σ}

/-! ## The books balance -/

theorem onRequest_accounted {s t : Session σ} (accounted : s.conn.Accounted)
    {req : HttpRequest} {result : WriteResult} (clean : result.Clean)
    (answered : server.onRequest s req result = .ok t) : t.conn.Accounted := by
  obtain ⟨conn, sends, ended⟩ := bind_eq_ok answered
  have accounted' := TcpConnection.send_accounted accounted clean sends
  cases ended
  split_ifs
  · exact accounted'.congr (by simp) (by simp) (by simp)
  · exact accounted'

theorem answer_accounted {s t : Session σ} (accounted : s.conn.Accounted)
    {result : WriteResult} (clean : result.Clean) {parsed : Bool × HttpContext}
    (answered : server.answer s result parsed = .ok t) : t.conn.Accounted := by
  obtain ⟨ok, context⟩ := parsed
  have parsed : ({ s.conn with context := context } : TcpConnection).Accounted :=
    accounted.congr rfl rfl rfl
  cases ok with
  | false =>
      obtain ⟨conn, sends, ended⟩ := bind_eq_ok answered
      have accounted' := TcpConnection.send_accounted parsed clean sends
      cases ended
      exact accounted'.congr (by simp) (by simp) (by simp)
  | true =>
      simp only [HttpServer.answer] at answered
      split_ifs at answered
      · obtain ⟨u, requested, ended⟩ := bind_eq_ok answered
        have accounted' := onRequest_accounted parsed clean requested
        cases ended
        exact accounted'.congr rfl rfl rfl
      · cases answered
        exact parsed

theorem onMessage_accounted {s t : Session σ} (accounted : s.conn.Accounted) {now : Int}
    {result : WriteResult} (clean : result.Clean)
    (answered : server.onMessage now result s = .ok t) : t.conn.Accounted := by
  have stamped : (server.setActTime s.conn now).Accounted :=
    accounted.congr (by simp) (by simp) (by simp)
  simp only [HttpServer.onMessage] at answered
  split_ifs at answered
  · cases answered
    exact stamped
  · obtain ⟨taken, -, rest⟩ := bind_eq_ok answered
    obtain ⟨parsed, -, ended⟩ := bind_eq_ok rest
    exact answer_accounted (stamped.congr rfl rfl rfl) clean ended
  · cases answered
    exact accounted

theorem handleMessage_accounted {s t : Session σ} (accounted : s.conn.Accounted)
    {results : List ReadResult} {now : Int} {result : WriteResult} (clean : result.Clean)
    (handled : server.handleMessage s results now result = .ok t) : t.conn.Accounted := by
  obtain ⟨conn, read, answered⟩ := bind_eq_ok handled
  obtain ⟨sendBuf, messages, wire, -⟩ := TcpConnection.readNonBlocking_eq_ok read
  exact onMessage_accounted (accounted.congr sendBuf messages wire) clean answered

theorem step_accounted {l l' : Life σ} (accounted : l.session.conn.Accounted)
    {e : LoopEvent} (clean : e.Clean) (stepped : l.step server e = .ok l') :
    l'.session.conn.Accounted := by
  cases e with
  | readable results now result =>
      simp only [step] at stepped
      split_ifs at stepped
      · cases stepped
        exact accounted
      · obtain ⟨session, handled, ended⟩ := bind_eq_ok stepped
        cases ended
        exact handleMessage_accounted accounted clean handled
  | writable result =>
      simp only [step] at stepped
      split_ifs at stepped
      · cases stepped
        exact accounted
      · obtain ⟨conn, wrote, ended⟩ := bind_eq_ok stepped
        cases ended
        exact (TcpConnection.handleWrite_accounted accounted clean wrote).1
  | timer now =>
      simp only [step] at stepped
      split_ifs at stepped
      · cases stepped
        exact accounted
      · cases stepped
        simp only [settle, HttpServer.handleActiveClose]
        split_ifs
        · exact accounted.congr (by simp) (by simp) (by simp)
        · exact accounted
  | mainLoop =>
      simp only [step] at stepped
      split_ifs at stepped <;> cases stepped <;> exact accounted
  | subLoop =>
      simp only [step] at stepped
      split_ifs at stepped
      · cases stepped
        exact accounted.congr rfl rfl rfl
      · cases stepped
        exact accounted

theorem run_accounted {l l' : Life σ} (accounted : l.session.conn.Accounted)
    {events : List LoopEvent} (clean : ∀ e ∈ events, e.Clean)
    (ran : run (step server) l events = .ok l') : l'.session.conn.Accounted := by
  induction events generalizing l with
  | nil =>
      cases ran
      exact accounted
  | cons e events ih =>
      obtain ⟨m, stepped, rest⟩ := run_cons_eq_ok ran
      exact ih (step_accounted accounted (clean e (by simp)) stepped)
        (fun e' member => clean e' (List.mem_cons_of_mem _ member)) rest

theorem start_accounted (state : ConnectionState) (completeHeaders : Bool) (world : σ) :
    (start state completeHeaders world).session.conn.Accounted :=
  ⟨Buffer.construct_valid, fun _ => rfl, fun cut => absurd (fun _ member => by cases member) cut⟩

/-! ## Between `HandleClose` and the destructor -/

theorem destroyed_step {l l' : Life σ} {e : LoopEvent} (stepped : l.step server e = .ok l')
    (alive : l'.destroyed = false) : l.destroyed = false := by
  by_contra gone
  have destroyed : l.destroyed = true := by simpa using gone
  have stays : l'.destroyed = true := by
    cases e <;> simp only [step, destroyed, if_true] at stepped
    case mainLoop =>
      split_ifs at stepped <;> cases stepped
      · rfl
      · exact destroyed
    case subLoop =>
      split_ifs at stepped <;> cases stepped
      · rfl
      · exact destroyed
    all_goals
      cases stepped
      exact destroyed
  rw [stays] at alive
  cases alive

/-- What a closed connection does with an event: only writable events touch what is
sent, and they take bytes from the front of `send_buf_`. -/
structure Drains (l l' : Life σ) (n : Nat) : Prop where
  closed : l'.session.conn.state = .Disconected
  messages : l'.session.conn.messages = l.session.conn.messages
  readable : l'.session.conn.sendBuf.readable = l.session.conn.sendBuf.readable.drop n

theorem step_drains {l l' : Life σ} (accounted : l.session.conn.Accounted)
    (closed : l.session.conn.state = .Disconected) {e : LoopEvent} (clean : e.Clean)
    (stepped : l.step server e = .ok l') (alive : l'.destroyed = false) :
    Drains l l' e.room := by
  have notGone : ¬ l.destroyed = true := by simp [destroyed_step stepped alive]
  cases e with
  | readable results now result =>
      simp only [step, if_neg notGone] at stepped
      obtain ⟨session, handled, ended⟩ := bind_eq_ok stepped
      cases ended
      obtain ⟨conn, read, answered⟩ := bind_eq_ok handled
      obtain ⟨sendBuf, messages, -, state⟩ := TcpConnection.readNonBlocking_eq_ok read
      have stays : conn.state = .Disconected := by
        rcases state with same | now
        · rw [same, closed]
        · exact now
      have idle := server.onMessage_of_not_connected (s := { l.session with conn := conn })
        (by simp [stays]) now result
      change server.onMessage now result { l.session with conn := conn } = _ at answered
      rw [idle, Except.ok.injEq] at answered
      subst answered
      exact ⟨stays, messages, by simp [settle, sendBuf, LoopEvent.room]⟩
  | writable result =>
      simp only [step, if_neg notGone] at stepped
      obtain ⟨conn, wrote, ended⟩ := bind_eq_ok stepped
      cases ended
      obtain ⟨-, messages, state, readable⟩ :=
        TcpConnection.handleWrite_accounted accounted clean wrote
      refine ⟨state.trans closed, messages, readable.trans ?_⟩
      cases result with
      | accepts count =>
          simp only [TcpConnection.accepted, LoopEvent.room, List.length_take]
          rcases Nat.le_total count l.session.conn.sendBuf.readable.length with less | more
          · rw [Nat.min_eq_left less]
          · rw [Nat.min_eq_right more, List.drop_length, List.drop_of_length_le more]
      | failed errno => rfl
  | timer now =>
      simp only [step, if_neg notGone, Except.ok.injEq] at stepped
      subst stepped
      simp only [settle, HttpServer.handleActiveClose, LoopEvent.room]
      split_ifs
      · exact ⟨by simp, by simp, by simp⟩
      · exact ⟨closed, rfl, rfl⟩
  | mainLoop =>
      simp only [step] at stepped
      split_ifs at stepped <;> cases stepped <;> exact ⟨closed, rfl, rfl⟩
  | subLoop =>
      simp only [step] at stepped
      split_ifs at stepped
      · cases stepped
        cases alive
      · cases stepped
        exact ⟨closed, rfl, rfl⟩

theorem run_drains {l l' : Life σ} (accounted : l.session.conn.Accounted)
    (closed : l.session.conn.state = .Disconected) {events : List LoopEvent}
    (clean : ∀ e ∈ events, e.Clean) (ran : run (step server) l events = .ok l')
    (alive : l'.destroyed = false) : Drains l l' (roomOf events) := by
  induction events using List.reverseRecOn generalizing l' with
  | nil =>
      cases ran
      exact ⟨closed, rfl, rfl⟩
  | append_singleton events e ih =>
      obtain ⟨m, earlier, last⟩ := run_append_eq_ok ran
      obtain ⟨n, stepped, ended⟩ := run_cons_eq_ok last
      cases ended
      have cleanEarlier : ∀ e' ∈ events, e'.Clean :=
        fun e' member => clean e' (List.mem_append_left _ member)
      have before := ih cleanEarlier earlier (destroyed_step stepped alive)
      have now := step_drains (run_accounted accounted cleanEarlier earlier) before.closed
        (clean e (by simp)) stepped alive
      refine ⟨now.closed, now.messages.trans before.messages, ?_⟩
      rw [now.readable, before.readable, List.drop_drop]
      simp [roomOf]

/-- **Teardown.**  Take any run without a socket error in which an event leaves the
connection closed and `ConnectionDestructor` runs after some further events.
Everything passed to `Send` has been written then exactly if no message was cut and
the writable events in between had room for what `send_buf_` held at `HandleClose`. -/
theorem torn_down_written_iff (state : ConnectionState) (completeHeaders : Bool) (world : σ)
    {before : List LoopEvent} {closing : LoopEvent} {window : List LoopEvent}
    (clean : ∀ e ∈ before ++ closing :: window, e.Clean) {l₀ l₁ l₂ l₃ : Life σ}
    (ran : run (step server) (start state completeHeaders world) before = .ok l₀)
    (closes : l₀.step server closing = .ok l₁)
    (closed : l₁.session.conn.state = .Disconected)
    (passed : run (step server) l₁ window = .ok l₂) (alive : l₂.destroyed = false)
    (destructs : l₂.step server .subLoop = .ok l₃) (destroyed : l₃.destroyed = true) :
    l₃.session.conn.wire = l₃.session.conn.sent ↔
      l₁.session.conn.Uncut ∧ l₁.session.conn.sendBuf.readable.length ≤ roomOf window := by
  have accounted₀ := run_accounted (start_accounted state completeHeaders world)
    (fun e member => clean e (List.mem_append_left _ member)) ran
  have accounted₁ := step_accounted accounted₀ (clean closing (by simp)) closes
  have cleanWindow : ∀ e ∈ window, e.Clean := fun e member => clean e (by simp [member])
  have accounted₂ := run_accounted accounted₁ cleanWindow passed
  have drains := run_drains accounted₁ closed cleanWindow passed alive
  -- the destructor itself touches neither the buffer nor the books
  have same : l₃.session.conn.wire = l₂.session.conn.wire ∧
      l₃.session.conn.sent = l₂.session.conn.sent := by
    simp only [step] at destructs
    split_ifs at destructs <;> cases destructs <;> exact ⟨rfl, rfl⟩
  have uncut : l₂.session.conn.Uncut ↔ l₁.session.conn.Uncut := by
    rw [TcpConnection.Uncut, TcpConnection.Uncut, drains.messages]
  rw [same.1, same.2, ← uncut]
  constructor
  · intro written
    by_cases whole : l₂.session.conn.Uncut
    · refine ⟨whole, ?_⟩
      have conserved : l₂.session.conn.sent = _ ++ _ := accounted₂.whole whole
      rw [← written, drains.readable] at conserved
      have empty := List.append_right_eq_self.mp conserved.symm
      exact List.drop_eq_nil_iff.mp empty
    · have short := accounted₂.cut whole
      rw [written] at short
      omega
  · rintro ⟨whole, enough⟩
    have conserved : l₂.session.conn.sent = _ ++ _ := accounted₂.whole whole
    rw [conserved, drains.readable, List.drop_of_length_le enough, List.append_nil]

/-- A request of HTTP/1.0, whose answer the kernel takes ten bytes of. -/
def closingRequest : LoopEvent :=
  .readable [.data (ascii "GET / HTTP/1.0\r\n\r\n"), .failed .eagain] 0 (.accepts 10)

/-- The answer of a slow reader is lost: the two queued tasks run before the socket
is writable again. -/
theorem torn_down_unsent :
    ∃ l, run (step (HttpServer.construct 0)) (start .Invalid false ())
        [closingRequest, .mainLoop, .subLoop] = .ok l ∧
      l.destroyed = true ∧ l.session.conn.wire ≠ l.session.conn.sent := by
  obtain ⟨l, ran, outcome⟩ : ∃ l, run (step (HttpServer.construct 0)) (start .Invalid false ())
        [closingRequest, .mainLoop, .subLoop] = .ok l ∧
      (l.destroyed, decide (l.session.conn.wire = l.session.conn.sent)) = (true, false) :=
    eq_ok_of_map (f := fun l : Life Unit =>
      (l.destroyed, decide (l.session.conn.wire = l.session.conn.sent))) (by decide +kernel)
  obtain ⟨destroyed, unsent⟩ := Prod.mk.inj outcome
  exact ⟨l, ran, destroyed, of_decide_eq_false unsent⟩

/-- The same answer, with a writable event before the destructor runs. -/
theorem torn_down_written_iff_late :
    ∃ l₁ l₃, (start .Invalid false ()).step (HttpServer.construct 0) closingRequest = .ok l₁ ∧
      run (step (HttpServer.construct 0)) l₁
        [.mainLoop, .writable (.accepts 500), .subLoop] = .ok l₃ ∧
      (l₃.session.conn.wire = l₃.session.conn.sent ↔ l₁.session.conn.Uncut ∧
        l₁.session.conn.sendBuf.readable.length ≤
          roomOf [.mainLoop, .writable (.accepts 500)]) := by
  obtain ⟨l₁, closes, closed⟩ : ∃ l₁,
      (start .Invalid false ()).step (HttpServer.construct 0) closingRequest = .ok l₁ ∧
        l₁.session.conn.state = .Disconected := eq_ok_of_map (by decide +kernel)
  obtain ⟨m, whole, destroyed⟩ : ∃ m, run (step (HttpServer.construct 0))
      (start .Invalid false ()) [closingRequest, .mainLoop, .writable (.accepts 500), .subLoop] =
        .ok m ∧ m.destroyed = true := eq_ok_of_map (by decide +kernel)
  obtain ⟨n, early, alive⟩ : ∃ n, run (step (HttpServer.construct 0))
      (start .Invalid false ()) [closingRequest, .mainLoop, .writable (.accepts 500)] =
        .ok n ∧ n.destroyed = false := eq_ok_of_map (by decide +kernel)
  rw [run_cons_of_ok closes] at whole early
  refine ⟨l₁, m, closes, whole, ?_⟩
  have split : run (step (HttpServer.construct 0)) l₁
      ([.mainLoop, .writable (.accepts 500)] ++ [.subLoop]) = .ok m := whole
  obtain ⟨l₂, passed, last⟩ := run_append_eq_ok split
  obtain ⟨l₃, destructs, ended⟩ := run_cons_eq_ok last
  cases ended
  rw [passed, Except.ok.injEq] at early
  subst early
  have nothing : run (step (HttpServer.construct 0)) (start .Invalid false ()) [] =
      .ok (start .Invalid false ()) := rfl
  exact torn_down_written_iff .Invalid false () (by decide) nothing closes closed passed alive
    destructs destroyed

end Life

end CppFileServer.Http
