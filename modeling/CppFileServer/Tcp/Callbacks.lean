/-
# Tcp.Callbacks -- what a callback does to the state of a connection

A callback may call `on_close_` once, and only on a connection that was not closed;
on one that was, it dispatches no request.  Each function that a channel event or a
timer reaches does this, so the callbacks as a whole do.
-/
import CppFileServer.Tcp.TcpServer

namespace CppFileServer.Tcp

set_option autoImplicit false

open CppFileServer.Cpp CppFileServer.Http CppFileServer.Theory

/-- `on_close_` of the session has been called. -/
structure Closed {σ : Type} (s : Session σ) : Prop where
  requests : s.conn.closeRequests = 1
  state : s.conn.state = .Disconected

/-- What a callback does to the state of a session: it may call `on_close_` once, when the
connection was not yet closed, and dispatches nothing when it was. -/
structure Evolves {σ : Type} (s t : Session σ) : Prop where
  closes : t.conn.closeRequests = s.conn.closeRequests ∧ t.conn.state = s.conn.state ∨
    t.conn.closeRequests = s.conn.closeRequests + 1 ∧ s.conn.state ≠ .Disconected ∧
      t.conn.state = .Disconected
  silent : s.conn.state = .Disconected → t.dispatched = s.dispatched

namespace Evolves

variable {σ : Type} {s t u : Session σ}

theorem trans (first : Evolves s t) (second : Evolves t u) : Evolves s u := by
  obtain ⟨closes, silent⟩ := first
  obtain ⟨closes', silent'⟩ := second
  rcases closes with ⟨count, state⟩ | ⟨count, opened, closed⟩
  · rw [count, state] at closes'
    refine ⟨closes', ?_⟩
    intro shut
    rw [silent' (state.trans shut), silent shut]
  · refine ⟨?_, fun shut => absurd shut opened⟩
    rcases closes' with ⟨count', state'⟩ | ⟨-, opened', -⟩
    · exact Or.inr ⟨count'.trans count, opened, state'.trans closed⟩
    · exact absurd closed opened'

/-- A step that leaves the state and the calls of `on_close_` alone. -/
theorem of_same (count : t.conn.closeRequests = s.conn.closeRequests)
    (state : t.conn.state = s.conn.state)
    (silent : s.conn.state = .Disconected → t.dispatched = s.dispatched) : Evolves s t :=
  ⟨Or.inl ⟨count, state⟩, silent⟩

theorem handleClose (s : Session σ) : Evolves s { s with conn := s.conn.handleClose } := by
  refine ⟨?_, fun _ => rfl⟩
  unfold TcpConnection.handleClose
  split_ifs with opened
  · exact Or.inr ⟨rfl, opened, rfl⟩
  · exact Or.inl ⟨rfl, rfl⟩

theorem send {conn : TcpConnection} {msg : Bytes} {result : WriteResult}
    (sends : s.conn.send msg result = .ok conn) : Evolves s { s with conn := conn } := by
  obtain ⟨b, channel, wire, rfl⟩ := TcpConnection.send_eq_ok sends
  exact of_same rfl rfl fun _ => rfl

theorem handleWrite {conn : TcpConnection} {result : WriteResult}
    (wrote : s.conn.handleWrite result = .ok conn) : Evolves s { s with conn := conn } := by
  obtain ⟨b, channel, wire, rfl⟩ := TcpConnection.handleWrite_frame wrote
  exact of_same rfl rfl fun _ => rfl

theorem readNonBlocking {conn : TcpConnection} {results : List ReadResult}
    (read : s.conn.readNonBlocking results = .ok conn) : Evolves s { s with conn := conn } := by
  obtain ⟨b, ended⟩ := TcpConnection.readNonBlocking_frame read
  have filled : Evolves s { s with conn := { s.conn with readBuf := b } } :=
    of_same rfl rfl fun _ => rfl
  rcases ended with rfl | rfl
  · exact filled
  · exact filled.trans (handleClose _)

variable {server : HttpServer σ}

/-- `onMessage` on a connection that is not closed may dispatch a request, and close it then. -/
theorem onRequest {req : HttpRequest} {result : WriteResult} (opened : s.conn.state = .Connected)
    (answered : server.onRequest s req result = .ok t) : Evolves s t := by
  obtain ⟨conn, sends, ended⟩ := bind_eq_ok answered
  have sent := (send sends).closes
  refine ⟨?_, fun shut => by rw [opened] at shut; cases shut⟩
  cases ended
  split_ifs with closing
  · have closed := (handleClose { s with conn := conn }).closes
    simp only at sent closed ⊢
    rcases sent with ⟨count, state⟩ | ⟨count, -, shut⟩
    · rwa [count, state] at closed
    · rcases closed with ⟨count', state⟩ | ⟨-, wasOpen, -⟩
      · exact Or.inr ⟨count'.trans count, by rw [opened]; decide, state.trans shut⟩
      · exact absurd shut wasOpen
  · exact sent

theorem answer {result : WriteResult} {parsed : Bool × HttpContext}
    (opened : s.conn.state = .Connected) (answered : server.answer s result parsed = .ok t) :
    Evolves s t := by
  obtain ⟨ok, context⟩ := parsed
  have parsed : Evolves s { s with conn := { s.conn with context := context } } :=
    of_same rfl rfl fun _ => rfl
  cases ok with
  | false =>
      obtain ⟨conn, sends, ended⟩ := bind_eq_ok answered
      cases ended
      exact (parsed.trans (send (s := { s with conn := { s.conn with context := context } })
        sends)).trans (handleClose _)
  | true =>
      cases complete : context.completeRequest with
      | false =>
          rw [server.answer_incomplete s complete, Except.ok.injEq] at answered
          exact answered ▸ parsed
      | true =>
          simp only [HttpServer.answer, complete, if_true] at answered
          obtain ⟨u, requested, ended⟩ := bind_eq_ok answered
          cases ended
          refine (parsed.trans (onRequest (s := { s with conn := { s.conn with context := context } })
            opened requested)).trans ?_
          exact of_same rfl rfl fun _ => rfl

theorem onMessage {now : Int} {result : WriteResult}
    (answered : server.onMessage now result s = .ok t) : Evolves s t := by
  by_cases opened : s.conn.state = .Connected
  · rw [HttpServer.onMessage, if_pos opened] at answered
    have stamped : Evolves s { s with conn := server.setActTime s.conn now } := by
      unfold HttpServer.setActTime
      split_ifs <;> exact of_same rfl rfl fun _ => rfl
    simp only at answered
    split_ifs at answered with empty
    · cases answered
      exact stamped
    · obtain ⟨⟨inBuffer, readBuf⟩, -, answered⟩ := bind_eq_ok answered
      obtain ⟨parsed, -, answered⟩ := bind_eq_ok answered
      have taken : Evolves s { s with
          conn := { server.setActTime s.conn now with readBuf := readBuf }
          delivered := s.delivered ++ inBuffer } :=
        stamped.trans (of_same rfl rfl fun _ => rfl)
      exact taken.trans (answer ((server.setActTime_state s.conn now).trans opened) answered)
  · rw [server.onMessage_of_not_connected opened] at answered
    cases answered
    exact of_same rfl rfl fun _ => rfl

theorem handleMessage {results : List ReadResult} {now : Int} {result : WriteResult}
    (handled : server.handleMessage s results now result = .ok t) : Evolves s t := by
  obtain ⟨conn, read, handled⟩ := bind_eq_ok handled
  exact (readNonBlocking read).trans (onMessage handled)

theorem handleActiveClose (s : Session σ) (now : Int) :
    Evolves s (server.handleActiveClose s now) := by
  unfold HttpServer.handleActiveClose
  split_ifs
  · exact handleClose s
  · exact of_same rfl rfl fun _ => rfl

theorem handleEvent {events : BitVec 32} {inputs : Inputs σ}
    (handled : Tcp.handleEvent server s events inputs = .ok t) : Evolves s t := by
  obtain ⟨u, readable, handled⟩ := bind_eq_ok handled
  have first : Evolves s u := by
    unfold readCallback at readable
    split_ifs at readable
    · exact handleMessage readable
    · cases readable
      exact of_same rfl rfl fun _ => rfl
  unfold writeCallback at handled
  split_ifs at handled
  · obtain ⟨conn, wrote, handled⟩ := bind_eq_ok handled
    cases handled
    exact first.trans (handleWrite wrote)
  · cases handled
    exact first

end Evolves

theorem and_eq_zero_of_subset {events part all : BitVec 32} (quiet : events &&& all = 0)
    (subset : all &&& part = part) : events &&& part = 0 := by
  rw [← subset, ← BitVec.and_assoc, quiet]
  exact BitVec.zero_and

/-- Without an event that leads to a callback, nothing happens. -/
theorem handleEvent_quiet {σ : Type} {server : HttpServer σ} {s t : Session σ}
    {events : BitVec 32} (quiet : events &&& callbackEvents = 0) {inputs : Inputs σ}
    (handled : handleEvent server s events inputs = .ok t) : t = s := by
  have noRead : events &&& (EPOLLIN ||| EPOLLPRI ||| EPOLLRDHUP) = 0 :=
    and_eq_zero_of_subset quiet (by decide)
  have noWrite : events &&& EPOLLOUT = 0 := and_eq_zero_of_subset quiet (by decide)
  simp only [handleEvent, readCallback, writeCallback, noRead, noWrite, ne_eq, not_true_eq_false,
    if_false, ok_bind] at handled
  exact (Except.ok.inj handled).symm

end CppFileServer.Tcp
