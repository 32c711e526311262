/-
# Http.HttpServer -- the HTTP layer on one connection

A `Session` is a connection together with the state behind `on_request_`, which
is any function that returns normally.  Two of its fields are not in the source
but record what has happened: `delivered`, the bytes handed to `ParseRequest`,
and `dispatched`, the requests handed to `on_request_`.

A call of `onMessage` makes at most one call of `Send`, so it needs the result of
one `write`.
-/
import CppFileServer.Http.HttpResponse
import CppFileServer.Tcp.TcpConnection

namespace CppFileServer.Http

set_option autoImplicit false

open CppFileServer.Cpp CppFileServer.Utils CppFileServer.Tcp

structure HttpServer (σ : Type) where
  onRequest_ : σ → HttpRequest → HttpResponse → σ × HttpResponse
  /-- The idle timeout in microseconds. -/
  timeout : Int

def HttpServer.defaultHttpCallback (world : Unit) (_ : HttpRequest) (response : HttpResponse) :
    Unit × HttpResponse :=
  (world, { response with
    statusCode := .k404NotFound
    statusMessage := ascii "Not Found"
    closeConnection := true })

/-- The server as constructed, before a callback is set. -/
def HttpServer.construct (timeout : Int) : HttpServer Unit where
  onRequest_ := defaultHttpCallback
  timeout := timeout

structure Session (σ : Type) where
  conn : TcpConnection
  world : σ
  delivered : Bytes := []
  dispatched : List HttpRequest := []

namespace HttpServer

variable {σ : Type} (server : HttpServer σ)

def autoCloseConn : Bool := 0 < server.timeout

def badRequest : Bytes := ascii "HTTP/1.1 400 Bad Request\r\n\r\n"

/-- The decision `onRequest` hands to the response. -/
def closes (req : HttpRequest) : Bool :=
  let connection := req.getHeaderString (ascii "Connection")
  connection == ascii "close" || req.version == .kHttp10 && connection != ascii "Keep-Alive"

def onRequest (s : Session σ) (req : HttpRequest) (result : WriteResult) :
    Result (Session σ) := do
  let (world, response) := server.onRequest_ s.world req (HttpResponse.construct (closes req))
  let conn ← s.conn.send response.message result
  let conn := if response.closeConnection then conn.handleClose else conn
  pure { s with conn := conn, world := world, dispatched := s.dispatched ++ [req] }

/-- `SetActTime`, on a server that closes idle connections. -/
def setActTime (conn : TcpConnection) (now : Int) : TcpConnection :=
  if server.autoCloseConn then { conn with timerstamp := now } else conn

/-- What `onMessage` does with the answer of `ParseRequest`. -/
def answer (s : Session σ) (result : WriteResult) : Bool × HttpContext → Result (Session σ)
  | (false, context) => do
      let conn ← ({ s.conn with context := context } : TcpConnection).send badRequest result
      pure { s with conn := conn.handleClose }
  | (true, context) =>
      let s := { s with conn := { s.conn with context := context } }
      if context.completeRequest then do
        let s ← server.onRequest s context.request result
        pure { s with conn := { s.conn with context := s.conn.context.reset } }
      else pure s

def onMessage (now : Int) (result : WriteResult) (s : Session σ) : Result (Session σ) :=
  if s.conn.state = .Connected then
    let conn := server.setActTime s.conn now
    if conn.readBuf.isEmpty then .ok { s with conn := conn }
    else do
      let (inBuffer, readBuf) ← conn.readBuf.retrieveAllAsString
      let parsed ← conn.context.parseRequest inBuffer
      server.answer
        { s with
          conn := { conn with readBuf := readBuf }
          delivered := s.delivered ++ inBuffer } result parsed
  else .ok s

/-- A readable event on the connection: `HandleMessage` with this server's callback. -/
def handleMessage (s : Session σ) (results : List ReadResult) (now : Int)
    (result : WriteResult) : Result (Session σ) :=
  TcpConnection.handleMessage (fun conn => { s with conn := conn })
    (some (server.onMessage now result)) s.conn results

/-- `HandleActiveClose`, on a connection that is still there; when it does not close
it, the timer is set anew. -/
def handleActiveClose (s : Session σ) (now : Int) : Session σ :=
  if s.conn.timerstamp + server.timeout < now then { s with conn := s.conn.handleClose } else s

/-! ## What the parts leave alone -/

@[simp] theorem setActTime_readBuf (conn : TcpConnection) (now : Int) :
    (server.setActTime conn now).readBuf = conn.readBuf := by
  unfold setActTime
  split_ifs <;> rfl

@[simp] theorem setActTime_sendBuf (conn : TcpConnection) (now : Int) :
    (server.setActTime conn now).sendBuf = conn.sendBuf := by
  unfold setActTime
  split_ifs <;> rfl

@[simp] theorem setActTime_context (conn : TcpConnection) (now : Int) :
    (server.setActTime conn now).context = conn.context := by
  unfold setActTime
  split_ifs <;> rfl

@[simp] theorem setActTime_state (conn : TcpConnection) (now : Int) :
    (server.setActTime conn now).state = conn.state := by
  unfold setActTime
  split_ifs <;> rfl

@[simp] theorem setActTime_messages (conn : TcpConnection) (now : Int) :
    (server.setActTime conn now).messages = conn.messages := by
  unfold setActTime
  split_ifs <;> rfl

@[simp] theorem setActTime_wire (conn : TcpConnection) (now : Int) :
    (server.setActTime conn now).wire = conn.wire := by
  unfold setActTime
  split_ifs <;> rfl

/-- A connection that is not `Connected` is left as it is. -/
theorem onMessage_of_not_connected {s : Session σ} (closed : s.conn.state ≠ .Connected)
    (now : Int) (result : WriteResult) : server.onMessage now result s = .ok s := by
  rw [onMessage, if_neg closed]

/-- `onMessage` on an open connection: the readable bytes are parsed. -/
theorem onMessage_of_connected {s : Session σ} (connected : s.conn.state = .Connected)
    (valid : s.conn.readBuf.Valid) (now : Int) (result : WriteResult) :
    server.onMessage now result s =
      if s.conn.readBuf.readable = [] then
        .ok { s with conn := server.setActTime s.conn now }
      else (do
        let parsed ← s.conn.context.parseRequest s.conn.readBuf.readable
        server.answer
          { s with
            conn := { server.setActTime s.conn now with readBuf := s.conn.readBuf.retrieveAll }
            delivered := s.delivered ++ s.conn.readBuf.readable } result parsed) := by
  rw [onMessage, if_pos connected]
  simp only [setActTime_readBuf, setActTime_context, Buffer.retrieveAllAsString_eq valid, ok_bind]
  by_cases empty : s.conn.readBuf.readable = []
  · rw [if_pos ((Buffer.isEmpty_iff valid).mpr empty), if_pos empty]
  · rw [if_neg (fun isEmpty => empty ((Buffer.isEmpty_iff valid).mp isEmpty)), if_neg empty]

/-- An event whose read loop ends with `EAGAIN`: `read_buf_` is filled, then parsed. -/
theorem handleMessage_eagain (s : Session σ) (pieces : List TcpConnection.Piece) (now : Int)
    (result : WriteResult) :
    server.handleMessage s (pieces.map TcpConnection.Piece.result ++ [.failed .eagain]) now result =
      (do
        let readBuf ← TcpConnection.fill s.conn.readBuf pieces
        server.onMessage now result { s with conn := { s.conn with readBuf := readBuf } }) := by
  rw [handleMessage, TcpConnection.handleMessage, TcpConnection.readNonBlocking_pieces]
  cases TcpConnection.fill s.conn.readBuf pieces with
  | error f => rfl
  | ok b => rfl

/-- `onRequest` hands the request over and leaves the parser and `read_buf_` alone. -/
theorem onRequest_eq_ok {s t : Session σ} {req : HttpRequest} {result : WriteResult}
    (answered : server.onRequest s req result = .ok t) :
    t.dispatched = s.dispatched ++ [req] ∧ t.delivered = s.delivered ∧
      t.conn.readBuf = s.conn.readBuf ∧ t.conn.context = s.conn.context ∧
      (t.conn.state = s.conn.state ∨ t.conn.state = .Disconected) := by
  obtain ⟨conn, sends, ended⟩ := bind_eq_ok answered
  obtain ⟨b, channel, wire, same⟩ := TcpConnection.send_eq_ok sends
  cases ended
  split_ifs
  · simp [same]
  · simp [same]

/-- A refused request is not dispatched, and the connection is closed. -/
theorem answer_false_eq_ok {s t : Session σ} {context : HttpContext} {result : WriteResult}
    (answered : server.answer s result (false, context) = .ok t) :
    t.dispatched = s.dispatched ∧ t.delivered = s.delivered ∧ t.conn.state = .Disconected := by
  obtain ⟨conn, -, ended⟩ := bind_eq_ok answered
  cases ended
  simp

/-- An incomplete request is kept. -/
theorem answer_incomplete (s : Session σ) {context : HttpContext}
    (unfinished : context.completeRequest = false) (result : WriteResult) :
    server.answer s result (true, context) =
      .ok { s with conn := { s.conn with context := context } } := by
  simp only [answer, unfinished, Bool.false_eq_true, if_false, pure_eq_ok]

/-- A complete request is dispatched and the parser reset. -/
theorem answer_complete_eq_ok {s t : Session σ} {context : HttpContext}
    (complete : context.completeRequest = true) {result : WriteResult}
    (answered : server.answer s result (true, context) = .ok t) :
    t.dispatched = s.dispatched ++ [context.request] ∧ t.delivered = s.delivered ∧
      t.conn.readBuf = s.conn.readBuf ∧ t.conn.context = context.reset ∧
      (t.conn.state = s.conn.state ∨ t.conn.state = .Disconected) := by
  simp only [answer, complete, if_true] at answered
  obtain ⟨u, requested, ended⟩ := bind_eq_ok answered
  cases ended
  obtain ⟨dispatched, delivered, readBuf, sameContext, state⟩ := server.onRequest_eq_ok requested
  exact ⟨dispatched, delivered, readBuf, by rw [sameContext], state⟩

end HttpServer

end CppFileServer.Http
