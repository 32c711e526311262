/-
# Http.EndOfStream -- bytes that arrive together with the end of the stream

The read loop calls `HandleClose` when it meets the end of the stream, before
`on_message_` has seen what the loop has just read; `onMessage` then finds a
connection that is no longer `Connected` and leaves the bytes where they are.

`together` is the event in which the loop meets the end, `apart` the same bytes
with the end in an event of its own.  They do the same for the HTTP layer except
when an open connection has read something (`together_iff`).
-/
import CppFileServer.Http.HttpServer
import CppFileServer.Tcp.SendPath

namespace CppFileServer.Http

set_option autoImplicit false

open CppFileServer.Cpp CppFileServer.Tcp CppFileServer.Utils

/-- How a read loop ends, for a peer that is alive or has finished. -/
inductive Ending
  | eagain
  | eof
  deriving DecidableEq

def Ending.result : Ending → ReadResult
  | .eagain => .failed .eagain
  | .eof => .eof

/-- Two events have done the same for the HTTP layer. -/
inductive SameDelivery {σ : Type} : Result (Session σ) → Result (Session σ) → Prop
  | returned {s t : Session σ} (delivered : s.delivered = t.delivered)
      (dispatched : s.dispatched = t.dispatched) : SameDelivery (.ok s) (.ok t)
  | faulted (f : Fault) : SameDelivery (.error f) (.error f)

namespace HttpServer

variable {σ : Type} (server : HttpServer σ)

/-- One readable event whose read loop ends as given. -/
def together (s : Session σ) (pieces : List TcpConnection.Piece) (ending : Ending) (now : Int)
    (result : WriteResult) : Result (Session σ) :=
  server.handleMessage s (pieces.map TcpConnection.Piece.result ++ [ending.result]) now result

/-- The same pieces in an event of their own, and the end of the stream in the next. -/
def apart (s : Session σ) (pieces : List TcpConnection.Piece) (now : Int)
    (result : WriteResult) (later : Int) (result' : WriteResult) : Result (Session σ) := do
  let s ← server.handleMessage s
    (pieces.map TcpConnection.Piece.result ++ [.failed .eagain]) now result
  server.handleMessage s [.eof] later result'

/-! ## The end of the stream delivers nothing -/

/-- An event whose read loop meets the end of the stream leaves the HTTP layer alone. -/
theorem handleMessage_eof (s : Session σ) (pieces : List TcpConnection.Piece) (now : Int)
    (result : WriteResult) :
    server.handleMessage s (pieces.map TcpConnection.Piece.result ++ [.eof]) now result = (do
      let readBuf ← TcpConnection.fill s.conn.readBuf pieces
      pure { s with
        conn := ({ s.conn with readBuf := readBuf } : TcpConnection).handleClose }) := by
  rw [handleMessage, TcpConnection.handleMessage, TcpConnection.readNonBlocking_pieces]
  cases TcpConnection.fill s.conn.readBuf pieces with
  | error f => rfl
  | ok b =>
      simp only [ok_bind, pure_eq_ok]
      exact server.onMessage_of_not_connected
        (s := { s with conn := ({ s.conn with readBuf := b } : TcpConnection).handleClose })
        (by simp) now result

theorem handleMessage_only_eof (s : Session σ) (now : Int) (result : WriteResult) :
    server.handleMessage s [.eof] now result =
      .ok { s with conn := s.conn.handleClose } :=
  server.handleMessage_eof s [] now result

/-- What the bytes come to in an event of their own, the end of the stream included. -/
theorem apart_eq (s : Session σ) (pieces : List TcpConnection.Piece) (now : Int)
    (result : WriteResult) (later : Int) (result' : WriteResult) :
    server.apart s pieces now result later result' = (do
      let t ← server.together s pieces .eagain now result
      pure { t with conn := t.conn.handleClose }) := by
  rw [apart, together]
  show (server.handleMessage s (pieces.map TcpConnection.Piece.result ++ [.failed .eagain]) now
    result >>= _) = _
  congr 1
  funext t
  exact server.handleMessage_only_eof t later result'

/-- Answering delivers nothing more. -/
theorem answer_delivered {s t : Session σ} {result : WriteResult}
    {parsed : Bool × HttpContext} (answered : server.answer s result parsed = .ok t) :
    t.delivered = s.delivered := by
  obtain ⟨ok, context⟩ := parsed
  cases ok with
  | false => exact (server.answer_false_eq_ok answered).2.1
  | true =>
      cases complete : context.completeRequest with
      | false =>
          rw [server.answer_incomplete s complete, Except.ok.injEq] at answered
          rw [← answered]
      | true => exact (server.answer_complete_eq_ok complete answered).2.1

/-- An open connection hands over what it has read. -/
theorem onMessage_delivered {s t : Session σ} (connected : s.conn.state = .Connected)
    (valid : s.conn.readBuf.Valid) {now : Int} {result : WriteResult}
    (answered : server.onMessage now result s = .ok t) :
    t.delivered = s.delivered ++ s.conn.readBuf.readable := by
  rw [server.onMessage_of_connected connected valid] at answered
  split_ifs at answered with empty
  · cases answered
    rw [empty, List.append_nil]
  · obtain ⟨parsed, -, ended⟩ := bind_eq_ok answered
    exact server.answer_delivered ended

/-- **Data before the end of the stream.**  Whether the loop meets the end together
with the bytes or later makes no difference to the HTTP layer exactly if the
connection is not open, the loop does not meet the end, nothing is there to be
handed over, or the bytes do not fit the buffer. -/
theorem together_iff {s : Session σ} (valid : s.conn.readBuf.Valid)
    (pieces : List TcpConnection.Piece) (ending : Ending) (now : Int) (result : WriteResult)
    (later : Int) (result' : WriteResult) :
    SameDelivery (server.together s pieces ending now result)
        (server.apart s pieces now result later result') ↔
      s.conn.state ≠ .Connected ∨ ending = .eagain ∨
        s.conn.readBuf.readable ++ TcpConnection.bytesRead pieces = [] ∨
        ∃ f, TcpConnection.fill s.conn.readBuf pieces = .error f := by
  rw [apart_eq]
  cases ending with
  | eagain =>
      refine ⟨fun _ => Or.inr (Or.inl rfl), fun _ => ?_⟩
      cases server.together s pieces .eagain now result with
      | error f => exact .faulted f
      | ok t => exact .returned rfl rfl
  | eof =>
      have met : server.together s pieces .eof now result = _ :=
        server.handleMessage_eof s pieces now result
      have went : server.together s pieces .eagain now result = _ :=
        server.handleMessage_eagain s pieces now result
      rw [met, went]
      cases filled : TcpConnection.fill s.conn.readBuf pieces with
      | error f => exact ⟨fun _ => Or.inr (Or.inr (Or.inr ⟨f, rfl⟩)), fun _ => .faulted f⟩
      | ok b =>
          obtain ⟨valid', content⟩ := TcpConnection.fill_eq_ok valid filled
          simp only [ok_bind]
          rw [← content]
          by_cases connected : s.conn.state = .Connected
          · by_cases empty : b.readable = []
            · rw [server.onMessage_of_connected
                (s := { s with conn := { s.conn with readBuf := b } }) connected valid',
                if_pos empty]
              exact ⟨fun _ => Or.inr (Or.inr (Or.inl empty)), fun _ => .returned rfl rfl⟩
            · constructor
              · intro same
                cases answered : server.onMessage now result
                    { s with conn := { s.conn with readBuf := b } } with
                | error f =>
                    rw [answered] at same
                    cases same
                | ok t =>
                    rw [answered] at same
                    have delivered := server.onMessage_delivered
                      (s := { s with conn := { s.conn with readBuf := b } }) connected valid'
                      answered
                    cases same with
                    | returned sameDelivered =>
                        change s.delivered = t.delivered at sameDelivered
                        rw [delivered] at sameDelivered
                        exact absurd (List.append_right_eq_self.mp sameDelivered.symm) empty
              · intro condition
                rcases condition with closed | isEagain | isEmpty | ⟨f, overflow⟩
                · exact absurd connected closed
                · cases isEagain
                · exact absurd isEmpty empty
                · cases overflow
          · rw [server.onMessage_of_not_connected
              (s := { s with conn := { s.conn with readBuf := b } }) connected]
            exact ⟨fun _ => Or.inl connected, fun _ => .returned rfl rfl⟩

/-- A connection as `ConnectionEstablished` leaves it. -/
def established : Session Unit where
  conn := TcpConnection.established .Invalid false
  world := ()

def lastRequest : List TcpConnection.Piece := [.data (ascii "GET / HTTP/1.1\r\n\r\n")]

/-- A whole request, read together with the end of the stream, is not dispatched. -/
theorem request_lost :
    ¬ SameDelivery ((construct 0).together established lastRequest .eof 0 (.accepts 500))
      ((construct 0).apart established lastRequest 0 (.accepts 500) 1 (.accepts 500)) := by
  obtain ⟨s, met, nothing⟩ : ∃ s, (construct 0).together established lastRequest .eof 0
      (.accepts 500) = .ok s ∧ s.dispatched.length = 0 := eq_ok_of_map (by decide +kernel)
  obtain ⟨t, went, one⟩ : ∃ t, (construct 0).apart established lastRequest 0 (.accepts 500) 1
      (.accepts 500) = .ok t ∧ t.dispatched.length = 1 := eq_ok_of_map (by decide +kernel)
  rw [met, went]
  intro same
  cases same with
  | returned _ dispatched =>
      have lengths := congrArg List.length dispatched
      rw [nothing, one] at lengths
      exact absurd lengths (by decide)

/-- The same request, with the end of the stream in the next event. -/
theorem together_iff_eagain :
    SameDelivery ((construct 0).together established lastRequest .eagain 0 (.accepts 500))
      ((construct 0).apart established lastRequest 0 (.accepts 500) 1 (.accepts 500)) := by
  have valid : established.conn.readBuf.Valid := Buffer.construct_valid
  apply ((construct 0).together_iff valid lastRequest .eagain 0 (.accepts 500) 1
    (.accepts 500)).mpr
  exact Or.inr (Or.inl rfl)

end HttpServer

end CppFileServer.Http
