/-
# Tcp.TcpConnection -- a connection and its two buffers

The system calls are inputs: `WriteResult` and `ReadResult` say what the kernel
answers.  Three fields of the state are not in the source but record what the
connection has done: `messages`, those passed to `Send`; `wire`, the bytes the kernel
has accepted; and `closeRequests`, the calls of `on_close_`.
-/
import CppFileServer.Http.HttpContext
import CppFileServer.Tcp.Channel
import CppFileServer.Utils.Buffer

namespace CppFileServer.Tcp

set_option autoImplicit false

open CppFileServer.Cpp CppFileServer.Http CppFileServer.Utils

/-- The values of `errno` that matter; `EWOULDBLOCK` is `EAGAIN`. -/
inductive Errno
  | eagain
  | eintr
  | epipe
  | econnreset
  | other (code : Nat)
  deriving DecidableEq, Repr

/-- What `write` answers: it accepts at most `count` of the bytes offered, or fails. -/
inductive WriteResult
  | accepts (count : Nat)
  | failed (errno : Errno)
  deriving DecidableEq, Repr

/-- What `read` answers: some bytes, zero, or -1. -/
inductive ReadResult
  | data (bytes : Bytes)
  | eof
  | failed (errno : Errno)
  deriving DecidableEq, Repr

inductive ConnectionState
  | Invalid
  | Connected
  | Disconected
  deriving DecidableEq, Repr

structure TcpConnection where
  state : ConnectionState
  channel : Channel
  readBuf : Buffer
  sendBuf : Buffer
  context : HttpContext
  /-- The time of the last message, in microseconds. -/
  timerstamp : Int
  messages : List Bytes
  wire : Bytes
  closeRequests : Nat

namespace TcpConnection

/-- The constructor, for a connection on a loop.  It initialises neither `state_`
nor the `complete_headers_` of the context. -/
def construct (state : ConnectionState) (completeHeaders : Bool) : TcpConnection where
  state := state
  channel := Channel.enableET {}
  readBuf := Buffer.construct
  sendBuf := Buffer.construct
  context := HttpContext.construct completeHeaders
  timerstamp := 0
  messages := []
  wire := []
  closeRequests := 0

/-- `ConnectionEstablished`, up to the call of `on_connect_`. -/
def connectionEstablished (c : TcpConnection) : TcpConnection :=
  { c with state := .Connected, channel := c.channel.enableRead }

/-- The bytes passed to `Send`. -/
def sent (c : TcpConnection) : Bytes := c.messages.flatten

/-! ## Writing -/

/-- The number `write` returns, with -1 for an error, after the test for `EAGAIN`. -/
def dataSend (offered : Bytes) : WriteResult → Int
  | .accepts count => (offered.take count).length
  | .failed .eagain => 0
  | .failed _ => -1

/-- The bytes the kernel has taken. -/
def accepted (offered : Bytes) : WriteResult → Bytes
  | .accepts count => offered.take count
  | .failed _ => []

def writeNonBlocking (c : TcpConnection) (result : WriteResult) : Result TcpConnection := do
  let size ← c.sendBuf.readablebytes
  let offered ← c.sendBuf.peek size
  let sendBuf ← c.sendBuf.retrieve (dataSend offered result)
  pure { c with sendBuf := sendBuf, wire := c.wire ++ accepted offered result }

/-- `Send(const char *msg, int len)`. -/
def sendChars (c : TcpConnection) (msg : Bytes) (len : Int) (result : WriteResult) :
    Result TcpConnection := do
  let sendBuf ← c.sendBuf.append msg len
  let c ← { c with sendBuf := sendBuf, messages := c.messages ++ [msg] }.writeNonBlocking result
  let left ← c.sendBuf.readablebytes
  if 0 < left then pure { c with channel := c.channel.enableWrite } else pure c

/-- `Send(const std::string &msg)`. -/
def send (c : TcpConnection) (msg : Bytes) (result : WriteResult) : Result TcpConnection :=
  c.sendChars msg (toInt msg.length) result

def handleWrite (c : TcpConnection) (result : WriteResult) : Result TcpConnection := do
  let c ← c.writeNonBlocking result
  let left ← c.sendBuf.readablebytes
  if left = 0 then pure { c with channel := c.channel.disableWrite } else pure c

/-! ## Closing and reading -/

def handleClose (c : TcpConnection) : TcpConnection :=
  if c.state ≠ .Disconected then
    { c with state := .Disconected, closeRequests := c.closeRequests + 1 }
  else c

/-- The read loop, on the results of its calls of `read`; it ends with the first
one that is neither data nor `EINTR`. -/
def readNonBlocking (c : TcpConnection) : List ReadResult → Result TcpConnection
  | [] => .error .fuel
  | .data bytes :: rest => do
      let readBuf ← c.readBuf.append bytes bytes.length
      readNonBlocking { c with readBuf := readBuf } rest
  | .failed .eintr :: rest => readNonBlocking c rest
  | .failed .eagain :: _ => .ok c
  | .eof :: _ => .ok c.handleClose
  | .failed _ :: _ => .ok c.handleClose

/-- `HandleMessage`, with a callback on a state that holds the connection. -/
def handleMessage {S : Type} (hold : TcpConnection → S) (onMessage : Option (S → Result S))
    (c : TcpConnection) (results : List ReadResult) : Result S := do
  let c ← c.readNonBlocking results
  match onMessage with
  | some callback => callback (hold c)
  | none => pure (hold { c with readBuf := c.readBuf.retrieveAll })

/-! ## What each operation leaves alone -/

@[simp] theorem handleClose_sendBuf (c : TcpConnection) : c.handleClose.sendBuf = c.sendBuf := by
  unfold handleClose
  split_ifs <;> rfl

@[simp] theorem handleClose_readBuf (c : TcpConnection) : c.handleClose.readBuf = c.readBuf := by
  unfold handleClose
  split_ifs <;> rfl

@[simp] theorem handleClose_context (c : TcpConnection) : c.handleClose.context = c.context := by
  unfold handleClose
  split_ifs <;> rfl

@[simp] theorem handleClose_messages (c : TcpConnection) :
    c.handleClose.messages = c.messages := by
  unfold handleClose
  split_ifs <;> rfl

@[simp] theorem handleClose_wire (c : TcpConnection) : c.handleClose.wire = c.wire := by
  unfold handleClose
  split_ifs <;> rfl

@[simp] theorem handleClose_state (c : TcpConnection) : c.handleClose.state = .Disconected := by
  unfold handleClose
  split_ifs with wasOpen
  · rfl
  · simpa using wasOpen

theorem handleClose_of_closed {c : TcpConnection} (closed : c.state = .Disconected) :
    c.handleClose = c := by
  rw [handleClose, if_neg (by simp [closed])]

/-- A write changes the send buffer and the record of the wire. -/
theorem writeNonBlocking_eq_ok {c t : TcpConnection} {result : WriteResult}
    (wrote : c.writeNonBlocking result = .ok t) :
    ∃ offered b, c.sendBuf.retrieve (dataSend offered result) = .ok b ∧
      t = { c with sendBuf := b, wire := c.wire ++ accepted offered result } := by
  obtain ⟨size, -, wrote⟩ := bind_eq_ok wrote
  obtain ⟨offered, -, wrote⟩ := bind_eq_ok wrote
  obtain ⟨b, retrieved, wrote⟩ := bind_eq_ok wrote
  cases wrote
  exact ⟨offered, b, retrieved, rfl⟩

/-- `Send` changes the send buffer, the channel and the records. -/
theorem send_eq_ok {c t : TcpConnection} {msg : Bytes} {result : WriteResult}
    (sends : c.send msg result = .ok t) :
    ∃ b channel wire, t = { c with
      sendBuf := b, channel := channel, messages := c.messages ++ [msg], wire := wire } := by
  obtain ⟨b, -, sends⟩ := bind_eq_ok sends
  obtain ⟨c₁, wrote, sends⟩ := bind_eq_ok sends
  obtain ⟨left, -, sends⟩ := bind_eq_ok sends
  obtain ⟨offered, b', -, rfl⟩ := writeNonBlocking_eq_ok wrote
  split_ifs at sends <;> cases sends
  · exact ⟨b', c.channel.enableWrite, _, rfl⟩
  · exact ⟨b', c.channel, _, rfl⟩

/-- `HandleWrite` looks at the buffer that the write has left. -/
theorem handleWrite_eq_ok {c t : TcpConnection} {result : WriteResult}
    (wrote : c.handleWrite result = .ok t) :
    ∃ c₁, c.writeNonBlocking result = .ok c₁ ∧
      (c₁.sendBuf.writeIndex - c₁.sendBuf.readIndex = 0 ∧
          t = { c₁ with channel := c₁.channel.disableWrite } ∨
        c₁.sendBuf.writeIndex - c₁.sendBuf.readIndex ≠ 0 ∧ t = c₁) := by
  obtain ⟨c₁, written, wrote⟩ := bind_eq_ok wrote
  obtain ⟨left, counted, wrote⟩ := bind_eq_ok wrote
  obtain ⟨-, rfl⟩ := checkedInt_eq_ok.mp counted
  refine ⟨c₁, written, ?_⟩
  split_ifs at wrote with drained
  · cases wrote
    exact Or.inl ⟨drained, rfl⟩
  · cases wrote
    exact Or.inr ⟨drained, rfl⟩

/-- `HandleWrite` changes the send buffer, the channel and the record of the wire. -/
theorem handleWrite_frame {c t : TcpConnection} {result : WriteResult}
    (wrote : c.handleWrite result = .ok t) :
    ∃ b channel wire, t = { c with sendBuf := b, channel := channel, wire := wire } := by
  obtain ⟨c₁, written, ended⟩ := handleWrite_eq_ok wrote
  obtain ⟨offered, b, -, rfl⟩ := writeNonBlocking_eq_ok written
  rcases ended with ⟨-, rfl⟩ | ⟨-, rfl⟩
  · exact ⟨b, c.channel.disableWrite, _, rfl⟩
  · exact ⟨b, c.channel, _, rfl⟩

/-- Reading fills `read_buf_`, and may close the connection then. -/
theorem readNonBlocking_frame {c t : TcpConnection} {results : List ReadResult}
    (read : c.readNonBlocking results = .ok t) :
    ∃ b, t = { c with readBuf := b } ∨ t = ({ c with readBuf := b } : TcpConnection).handleClose := by
  induction results generalizing c with
  | nil => cases read
  | cons result rest ih =>
      have closed (same : Except.ok c.handleClose = (Except.ok t : Result TcpConnection)) :
          ∃ b, t = { c with readBuf := b } ∨
            t = ({ c with readBuf := b } : TcpConnection).handleClose :=
        ⟨c.readBuf, Or.inr (Except.ok.inj same).symm⟩
      cases result with
      | data bytes =>
          obtain ⟨b, -, read⟩ := bind_eq_ok read
          exact ih (c := { c with readBuf := b }) read
      | eof => exact closed read
      | failed errno =>
          cases errno with
          | eintr => exact ih read
          | eagain =>
              cases read
              exact ⟨t.readBuf, Or.inl rfl⟩
          | epipe => exact closed read
          | econnreset => exact closed read
          | other code => exact closed read

/-- Reading leaves a buffer that is valid. -/
theorem readNonBlocking_valid {c t : TcpConnection} {results : List ReadResult}
    (valid : c.readBuf.Valid) (read : c.readNonBlocking results = .ok t) : t.readBuf.Valid := by
  induction results generalizing c with
  | nil => cases read
  | cons result rest ih =>
      have closed (same : Except.ok c.handleClose = (Except.ok t : Result TcpConnection)) :
          t.readBuf.Valid := by
        rw [← Except.ok.inj same, handleClose_readBuf]
        exact valid
      cases result with
      | data bytes =>
          obtain ⟨b, appended, read⟩ := bind_eq_ok read
          exact ih (c := { c with readBuf := b }) (Buffer.append_eq_ok valid appended).1 read
      | eof => exact closed read
      | failed errno =>
          cases errno with
          | eintr => exact ih valid read
          | eagain =>
              cases read
              exact valid
          | epipe => exact closed read
          | econnreset => exact closed read
          | other code => exact closed read

/-- Reading leaves the sending side alone, and the state unless it closes the connection. -/
theorem readNonBlocking_eq_ok {c t : TcpConnection} {results : List ReadResult}
    (read : c.readNonBlocking results = .ok t) :
    t.sendBuf = c.sendBuf ∧ t.messages = c.messages ∧ t.wire = c.wire ∧
      (t.state = c.state ∨ t.state = .Disconected) := by
  obtain ⟨b, rfl | rfl⟩ := readNonBlocking_frame read
  · exact ⟨rfl, rfl, rfl, Or.inl rfl⟩
  · simp

/-! ## The pieces of a read loop -/

/-- A result of `read` after which the loop goes on. -/
inductive Piece
  | data (bytes : Bytes)
  | interrupted

def Piece.result : Piece → ReadResult
  | .data bytes => .data bytes
  | .interrupted => .failed .eintr

def Piece.bytes : Piece → Bytes
  | .data bytes => bytes
  | .interrupted => []

/-- The bytes read by a loop. -/
def bytesRead (pieces : List Piece) : Bytes := (pieces.map Piece.bytes).flatten

/-- `read_buf_` after the pieces. -/
def fill (b : Buffer) : List Piece → Result Buffer
  | [] => .ok b
  | .data bytes :: rest => do
      let b ← b.append bytes bytes.length
      fill b rest
  | .interrupted :: rest => fill b rest

/-- The loop fills the buffer and ends as its last result says. -/
theorem readNonBlocking_pieces (c : TcpConnection) (pieces : List Piece) (last : ReadResult) :
    c.readNonBlocking (pieces.map Piece.result ++ [last]) = (do
      let readBuf ← fill c.readBuf pieces
      ({ c with readBuf := readBuf } : TcpConnection).readNonBlocking [last]) := by
  induction pieces generalizing c with
  | nil => rfl
  | cons piece pieces ih =>
      cases piece with
      | data bytes =>
          simp only [List.map_cons, List.cons_append, Piece.result, readNonBlocking, fill]
          cases c.readBuf.append bytes bytes.length with
          | error f => rfl
          | ok b =>
              simp only [ok_bind]
              exact ih { c with readBuf := b }
      | interrupted =>
          simp only [List.map_cons, List.cons_append, Piece.result, readNonBlocking, fill]
          exact ih c

/-- A buffer that was filled holds the bytes read behind what it held. -/
theorem fill_eq_ok {b b' : Buffer} (valid : b.Valid) {pieces : List Piece}
    (filled : fill b pieces = .ok b') :
    b'.Valid ∧ b'.readable = b.readable ++ bytesRead pieces := by
  induction pieces generalizing b with
  | nil =>
      cases filled
      exact ⟨valid, by simp [bytesRead]⟩
  | cons piece pieces ih =>
      cases piece with
      | data bytes =>
          obtain ⟨b₁, appended, filled⟩ := bind_eq_ok filled
          obtain ⟨valid₁, content⟩ := Buffer.append_eq_ok valid appended
          obtain ⟨valid', content'⟩ := ih valid₁ filled
          refine ⟨valid', ?_⟩
          rw [content', content]
          simp [bytesRead, Piece.bytes]
      | interrupted =>
          rw [fill] at filled
          obtain ⟨valid', content'⟩ := ih valid filled
          exact ⟨valid', by rw [content']; simp [bytesRead, Piece.bytes]⟩

end TcpConnection

end CppFileServer.Tcp
