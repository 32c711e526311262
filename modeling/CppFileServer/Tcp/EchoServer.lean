/-
# Tcp.EchoServer -- the other server of the repository

`EchoServer::onMessage` sends back what it has read and closes the connection at once, so
a connection is for one message: what its first reading has brought.  The loop goes on
reporting events until `ConnectionDestructor` takes the channel out of the poller, and
these may still write what `Send` has left, but nothing is read or sent any more
(`echo_once`).

`readings` is not in the source but records what `read` has answered.
-/
import CppFileServer.Tcp.SendPath
import CppFileServer.Tcp.TcpServer

namespace CppFileServer.Tcp

set_option autoImplicit false

open CppFileServer.Cpp CppFileServer.Http CppFileServer.Theory CppFileServer.Utils

structure EchoConnection where
  conn : TcpConnection
  readings : List (List ReadResult) := []

inductive EchoAction
  /-- `HandleEvent`, with what `read` and the writes of `Send` and `HandleWrite` answer. -/
  | event (events : BitVec 32) (results : List ReadResult) (result result' : WriteResult)
  | connectionDestructor

/-- No `write` fails with a socket error. -/
def EchoAction.Clean : EchoAction → Prop
  | .event _ _ result result' => result.Clean ∧ result'.Clean
  | .connectionDestructor => True

namespace EchoServer

def onMessage (result : WriteResult) (c : TcpConnection) : Result TcpConnection :=
  if c.state = .Connected then do
    let (msg, readBuf) ← c.readBuf.retrieveAllAsString
    let c ← ({ c with readBuf := readBuf } : TcpConnection).send msg result
    pure c.handleClose
  else .ok c

end EchoServer

namespace EchoConnection

def readCallback (s : EchoConnection) (events : BitVec 32) (results : List ReadResult)
    (result : WriteResult) : Result EchoConnection :=
  if events &&& (EPOLLIN ||| EPOLLPRI ||| EPOLLRDHUP) ≠ 0 then do
    let conn ← s.conn.handleMessage id (some (EchoServer.onMessage result)) results
    pure { conn := conn, readings := s.readings ++ [results] }
  else .ok s

def writeCallback (s : EchoConnection) (events : BitVec 32) (result : WriteResult) :
    Result EchoConnection :=
  if events &&& EPOLLOUT ≠ 0 then do
    let conn ← s.conn.handleWrite result
    pure { s with conn := conn }
  else .ok s

def step (s : EchoConnection) : EchoAction → Option (Result EchoConnection)
  | .event events results result result' =>
      match s.conn.channel.registered with
      | none => none
      | some wanted =>
          if events &&& ~~~(wanted ||| EPOLLERR ||| EPOLLHUP) = 0 then some do
            let s ← s.readCallback events results result
            s.writeCallback events result'
          else none
  | .connectionDestructor =>
      some (.ok { s with conn := { s.conn with channel := s.conn.channel.delete } })

/-- What a reading is answered with: its bytes, when it ends because nothing is left. -/
def heard : List ReadResult → Option Bytes
  | .data bytes :: rest => (heard rest).map (bytes ++ ·)
  | .failed .eintr :: rest => heard rest
  | .failed .eagain :: _ => some []
  | _ => none

/-- A reading leaves the connection open with what it has heard, or closes it. -/
theorem readNonBlocking_heard {c t : TcpConnection} {results : List ReadResult}
    (valid : c.readBuf.Valid) (read : c.readNonBlocking results = .ok t) :
    (∃ b bytes, heard results = some bytes ∧ t = { c with readBuf := b } ∧ b.Valid ∧
        b.readable = c.readBuf.readable ++ bytes) ∨
      heard results = none ∧ ∃ b, t = ({ c with readBuf := b } : TcpConnection).handleClose := by
  induction results generalizing c with
  | nil => cases read
  | cons result rest ih =>
      have closed (same : Except.ok c.handleClose = (Except.ok t : Result TcpConnection)) :
          ∃ b, t = ({ c with readBuf := b } : TcpConnection).handleClose :=
        ⟨c.readBuf, (Except.ok.inj same).symm⟩
      cases result with
      | data bytes =>
          obtain ⟨b, appended, read⟩ := bind_eq_ok read
          obtain ⟨valid', content⟩ := Buffer.append_eq_ok valid appended
          obtain ⟨b', more, ends, same, valid'', content'⟩ | ⟨ends, shut⟩ :=
            ih (c := { c with readBuf := b }) valid' read
          · refine Or.inl ⟨b', bytes ++ more, by rw [heard, ends]; rfl, same, valid'', ?_⟩
            rw [content', content, List.append_assoc]
          · exact Or.inr ⟨by rw [heard, ends]; rfl, shut⟩
      | eof => exact Or.inr ⟨rfl, closed read⟩
      | failed errno =>
          cases errno with
          | eintr => exact ih valid read
          | eagain =>
              cases read
              exact Or.inl ⟨t.readBuf, [], rfl, rfl, valid, (List.append_nil _).symm⟩
          | epipe => exact Or.inr ⟨rfl, closed read⟩
          | econnreset => exact Or.inr ⟨rfl, closed read⟩
          | other code => exact Or.inr ⟨rfl, closed read⟩

/-! ## What every step keeps -/

/-- Where a connection is: before its first reading, or closed by it, with no more to send than
a buffer can have held. -/
inductive Echoes (s : EchoConnection) : Prop
  | listening (unread : s.readings = []) (state : s.conn.state = .Connected)
      (requests : s.conn.closeRequests = 0) (messages : s.conn.messages = [])
      (valid : s.conn.readBuf.Valid) (empty : s.conn.readBuf.readable = [])
  | closed {first : List ReadResult} {rest : List (List ReadResult)}
      (read : s.readings = first :: rest) (state : s.conn.state = .Disconected)
      (requests : s.conn.closeRequests = 1) (messages : s.conn.messages = (heard first).toList)
      (uncut : s.conn.Uncut)

variable {s t : EchoConnection}

/-- The first reading is echoed, and closes the connection. -/
theorem first_reading {results : List ReadResult} {result : WriteResult} {conn : TcpConnection}
    (unread : s.readings = []) (state : s.conn.state = .Connected)
    (requests : s.conn.closeRequests = 0) (messages : s.conn.messages = [])
    (valid : s.conn.readBuf.Valid) (empty : s.conn.readBuf.readable = [])
    (accounted : s.conn.Accounted) (clean : result.Clean)
    (handled : s.conn.handleMessage id (some (EchoServer.onMessage result)) results = .ok conn) :
    Echoes { conn := conn, readings := s.readings ++ [results] } ∧ conn.Accounted := by
  obtain ⟨c, read, handled⟩ := bind_eq_ok handled
  have handled : EchoServer.onMessage result c = .ok conn := handled
  obtain ⟨b, bytes, ends, rfl, valid', content⟩ | ⟨ends, b, rfl⟩ := readNonBlocking_heard valid read
  · rw [EchoServer.onMessage, if_pos state, Buffer.retrieveAllAsString_eq valid', ok_bind] at handled
    obtain ⟨u, sends, handled⟩ := bind_eq_ok handled
    cases handled
    have taken : ({ s.conn with readBuf := b.retrieveAll } : TcpConnection).Accounted :=
      accounted.congr rfl rfl rfl
    have books := TcpConnection.send_accounted taken clean sends
    obtain ⟨b', channel, wire, rfl⟩ := TcpConnection.send_eq_ok sends
    refine ⟨.closed (congrArg (· ++ [results]) unread) (TcpConnection.handleClose_state _) ?_ ?_ ?_,
      books.congr (by simp) (by simp) (by simp)⟩
    · rw [TcpConnection.handleClose, if_pos (by simp [state])]
      exact congrArg (· + 1) requests
    · rw [TcpConnection.handleClose_messages, ends, content, empty]
      exact congrArg (· ++ [bytes]) messages
    · have length := valid'.toOrdered.readable_length
      obtain ⟨⟨front, order, inside⟩, small⟩ := valid'
      simp only [kPrePendIndex_eq] at front
      intro msg among
      rw [TcpConnection.handleClose_messages, messages] at among
      cases List.mem_singleton.mp among
      omega
  · rw [EchoServer.onMessage, if_neg (by simp)] at handled
    cases handled
    refine ⟨.closed (congrArg (· ++ [results]) unread) (TcpConnection.handleClose_state _) ?_ ?_ ?_,
      accounted.congr (by simp) (by simp) (by simp)⟩
    · rw [TcpConnection.handleClose, if_pos (by simp [state])]
      exact congrArg (· + 1) requests
    · rw [TcpConnection.handleClose_messages, ends]
      exact messages
    · rw [TcpConnection.Uncut, TcpConnection.handleClose_messages, messages]
      exact fun msg among => by cases among

/-- What is read after the connection was closed is not echoed. -/
theorem later_reading {results : List ReadResult} {result : WriteResult} {conn : TcpConnection}
    (closed : s.conn.state = .Disconected)
    (handled : s.conn.handleMessage id (some (EchoServer.onMessage result)) results = .ok conn) :
    ∃ b, conn = { s.conn with readBuf := b } := by
  obtain ⟨c, read, handled⟩ := bind_eq_ok handled
  have handled : EchoServer.onMessage result c = .ok conn := handled
  obtain ⟨b, same⟩ : ∃ b, c = { s.conn with readBuf := b } := by
    obtain ⟨b, same | same⟩ := TcpConnection.readNonBlocking_frame read
    · exact ⟨b, same⟩
    · exact ⟨b, same.trans (TcpConnection.handleClose_of_closed closed)⟩
  have shut : c.state = .Disconected := by rw [same, closed]
  rw [EchoServer.onMessage, if_neg (by simp [shut])] at handled
  cases handled
  exact ⟨b, same⟩

theorem readCallback_echoes {events : BitVec 32} {results : List ReadResult} {result : WriteResult}
    (echoes : Echoes s) (accounted : s.conn.Accounted) (clean : result.Clean)
    (handled : s.readCallback events results result = .ok t) : Echoes t ∧ t.conn.Accounted := by
  unfold readCallback at handled
  split_ifs at handled
  · obtain ⟨conn, called, ended⟩ := bind_eq_ok handled
    cases ended
    cases echoes with
    | listening unread state requests messages valid empty =>
        exact first_reading unread state requests messages valid empty accounted clean called
    | @closed first rest read state requests messages uncut =>
        obtain ⟨b, rfl⟩ := later_reading state called
        have readings : s.readings ++ [results] = first :: (rest ++ [results]) := by
          rw [read, List.cons_append]
        exact ⟨.closed readings state requests messages uncut, accounted.congr rfl rfl rfl⟩
  · cases handled
    exact ⟨echoes, accounted⟩

theorem writeCallback_echoes {events : BitVec 32} {result : WriteResult} (echoes : Echoes s)
    (accounted : s.conn.Accounted) (clean : result.Clean)
    (handled : s.writeCallback events result = .ok t) : Echoes t ∧ t.conn.Accounted := by
  unfold writeCallback at handled
  split_ifs at handled
  · obtain ⟨conn, wrote, ended⟩ := bind_eq_ok handled
    cases ended
    obtain ⟨books, -⟩ := TcpConnection.handleWrite_accounted accounted clean wrote
    obtain ⟨b, channel, wire, rfl⟩ := TcpConnection.handleWrite_frame wrote
    refine ⟨?_, books⟩
    cases echoes with
    | listening unread state requests messages valid empty =>
        exact .listening unread state requests messages valid empty
    | closed read state requests messages uncut =>
        exact .closed read state requests messages uncut
  · cases handled
    exact ⟨echoes, accounted⟩

/-- **Step lemma**. -/
theorem step_echoes {action : EchoAction} (echoes : Echoes s) (accounted : s.conn.Accounted)
    (clean : action.Clean) (stepped : s.step action = some (.ok t)) :
    Echoes t ∧ t.conn.Accounted := by
  cases action with
  | event events results result result' =>
      simp only [step] at stepped
      split at stepped
      · cases stepped
      · split_ifs at stepped
        obtain ⟨u, readable, writable⟩ := bind_eq_ok (Option.some.inj stepped)
        obtain ⟨echoes', accounted'⟩ := readCallback_echoes echoes accounted clean.1 readable
        exact writeCallback_echoes echoes' accounted' clean.2 writable
  | connectionDestructor =>
      cases stepped
      refine ⟨?_, accounted.congr rfl rfl rfl⟩
      cases echoes with
      | listening unread state requests messages valid empty =>
          exact .listening unread state requests messages valid empty
      | closed read state requests messages uncut =>
        exact .closed read state requests messages uncut

/-- A connection of the server that has been established. -/
def start (state : ConnectionState) (completeHeaders : Bool) : EchoConnection where
  conn := TcpConnection.established state completeHeaders

/-- **A connection echoes its first reading, and nothing else.**  In every run without a
socket error it has sent one message, the bytes of its first reading, if that reading ended
because nothing was left, and none if the peer had hung up; it has been closed once when
there was a reading; and what it has sent is on the wire up to what is still unwritten. -/
theorem echo_once {state : ConnectionState} {completeHeaders : Bool} {actions : List EchoAction}
    (performed : perform step (start state completeHeaders) actions = some s)
    (clean : ∀ action ∈ actions, action.Clean) :
    s.conn.messages = (s.readings.head?.bind heard).toList ∧
      s.conn.closeRequests = min 1 s.readings.length ∧
      s.conn.messages.flatten = s.conn.wire ++ s.conn.sendBuf.readable := by
  have initial : Echoes (start state completeHeaders) ∧
      (start state completeHeaders).conn.Accounted := by
    refine ⟨.listening rfl rfl rfl rfl Buffer.construct_valid Buffer.construct_readable, ?_⟩
    exact ⟨Buffer.construct_valid, fun _ => rfl,
      fun cut => absurd (fun _ member => by cases member) cut⟩
  have allowed : Throughout step (fun _ action => action.Clean) (start state completeHeaders) actions :=
    throughout_of_forall fun _ => clean
  obtain ⟨echoes, accounted⟩ := allowed.invariant
    (P := fun s => Echoes s ∧ s.conn.Accounted)
    (fun _ _ _ kept clean stepped => step_echoes kept.1 kept.2 clean stepped) performed initial
  refine ⟨?_, ?_, accounted.whole ?_⟩
  · cases echoes with
    | listening unread state requests messages valid empty => rw [unread, messages]; rfl
    | closed read state requests messages uncut => rw [read, messages]; rfl
  · cases echoes with
    | listening unread state requests messages valid empty => rw [unread, requests]; rfl
    | closed read state requests messages uncut => rw [read, requests, List.length_cons]; omega
  · cases echoes with
    | listening unread state requests messages valid empty =>
        rw [TcpConnection.Uncut, messages]
        exact fun msg among => by cases among
    | closed read state requests messages uncut => exact uncut

/-- The peer goes on before its first message is written. -/
def hastyRun : List EchoAction :=
  [.event EPOLLIN [.data (ascii "hello"), .failed .eagain] (.accepts 2) (.accepts 0),
    .event (EPOLLIN ||| EPOLLOUT) [.data (ascii "again"), .failed .eagain] (.accepts 9) (.accepts 2),
    .connectionDestructor]

/-- Four bytes of the first message arrive, and nothing of the second. -/
theorem echo_once_hasty :
    ∃ s, perform step (start .Invalid false) hastyRun = some s ∧
      s.conn.messages = [ascii "hello"] ∧ s.conn.closeRequests = 1 ∧
      s.conn.wire ++ s.conn.sendBuf.readable = ascii "hello" ∧ s.conn.wire = ascii "hell" := by
  have performed : ((perform step (start .Invalid false) hastyRun).any fun s =>
      s.readings.length = 2 ∧ s.readings.head? = some [.data (ascii "hello"), .failed .eagain] ∧
        s.conn.wire = ascii "hell") = true := by
    decide +kernel
  obtain ⟨s, performed, known⟩ := (Option.any_eq_true _ _).mp performed
  obtain ⟨two, first, wire⟩ := of_decide_eq_true known
  have clean : ∀ action ∈ hastyRun, action.Clean := by
    simp [hastyRun, EchoAction.Clean, WriteResult.Clean]
  obtain ⟨messages, requests, books⟩ := echo_once performed clean
  rw [first] at messages
  rw [two] at requests
  rw [messages] at books
  exact ⟨s, performed, messages, requests, books.symm, wire⟩

end EchoConnection

end CppFileServer.Tcp
