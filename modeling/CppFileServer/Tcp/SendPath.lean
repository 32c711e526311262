/-
# Tcp.SendPath -- what becomes of the bytes passed to `Send`

Every byte passed to `Send` is either on the wire or still readable in
`send_buf_`, in order: `Intact`.  A call keeps that exactly if `write` does not
fail with an error other than `EAGAIN`, whose -1 goes into `Retrieve` as a
length, and if the message fits the `int` arithmetic of the buffer.
-/
import CppFileServer.Tcp.TcpConnection
import CppFileServer.Theory.Run

namespace CppFileServer.Tcp

set_option autoImplicit false

open CppFileServer.Cpp CppFileServer.Utils CppFileServer.Theory

/-- The result is not -1 with an `errno` other than `EAGAIN`. -/
def WriteResult.Clean : WriteResult → Prop
  | .accepts _ => True
  | .failed errno => errno = .eagain

instance (result : WriteResult) : Decidable result.Clean := by
  cases result <;> unfold WriteResult.Clean <;> infer_instance

/-- The calls that write to a connection. -/
inductive SendCall
  | send (msg : Bytes) (result : WriteResult)
  | handleWrite (result : WriteResult)

namespace TcpConnection

def call (c : TcpConnection) : SendCall → Result TcpConnection
  | .send msg result => c.send msg result
  | .handleWrite result => c.handleWrite result

/-- The messages sent are on the wire or readable in `send_buf_`, in order. -/
def Conserved (c : TcpConnection) : Prop := c.sent = c.wire ++ c.sendBuf.readable

structure Intact (c : TcpConnection) : Prop where
  conserved : c.Conserved
  ordered : c.sendBuf.Ordered

/-- The size of the message is an `int`, and so are the sums `Append` makes with it. -/
def Accommodates (c : TcpConnection) (msg : Bytes) : Prop :=
  msg.length < 2 ^ 31 ∧ c.sendBuf.Fits msg.length

/-- The condition on a call under which it keeps the bytes. -/
def Harmless (c : TcpConnection) : SendCall → Prop
  | .send msg result => c.Accommodates msg ∧ result.Clean
  | .handleWrite result => result.Clean

theorem sent_append (c : TcpConnection) (msg : Bytes) (b : Buffer) (channel : Channel)
    (wire : Bytes) :
    ({ c with sendBuf := b, channel := channel, messages := c.messages ++ [msg], wire := wire } :
      TcpConnection).sent = c.sent ++ msg := by
  simp [sent]

/-! ## One write -/

theorem dataSend_of_clean (offered : Bytes) {result : WriteResult} (clean : result.Clean) :
    dataSend offered result = (accepted offered result).length := by
  cases result with
  | accepts count => rfl
  | failed errno =>
      have blocked : errno = .eagain := clean
      subst blocked
      rfl

theorem dataSend_of_error (offered : Bytes) {result : WriteResult} (error : ¬ result.Clean) :
    dataSend offered result = -1 := by
  cases result with
  | accepts count => exact absurd trivial error
  | failed errno =>
      cases errno with
      | eagain => exact absurd rfl error
      | _ => rfl

theorem accepted_of_error (offered : Bytes) {result : WriteResult} (error : ¬ result.Clean) :
    accepted offered result = [] := by
  cases result with
  | accepts count => exact absurd trivial error
  | failed errno => rfl

theorem accepted_eq_take (offered : Bytes) (result : WriteResult) :
    accepted offered result = offered.take (accepted offered result).length := by
  cases result with
  | accepts count =>
      rw [accepted, List.length_take, ← List.take_eq_take_min]
  | failed errno => rfl

theorem accepted_length_le (offered : Bytes) (result : WriteResult) :
    (accepted offered result).length ≤ offered.length := by
  rw [accepted_eq_take, List.length_take]
  omega

theorem offered_eq {c : TcpConnection} (valid : c.sendBuf.Valid) :
    c.sendBuf.peek (c.sendBuf.writeIndex - c.sendBuf.readIndex) = .ok c.sendBuf.readable := by
  rw [← valid.readable_length, Buffer.peek_eq valid (le_refl _), List.take_length]

/-- A write that fails with nothing but `EAGAIN` moves the bytes accepted from the
front of the buffer to the wire. -/
theorem writeNonBlocking_spec {c : TcpConnection} (valid : c.sendBuf.Valid)
    {result : WriteResult} (clean : result.Clean) :
    ∃ b, c.writeNonBlocking result =
        .ok { c with sendBuf := b, wire := c.wire ++ accepted c.sendBuf.readable result } ∧
      b.Valid ∧
      b.readable = c.sendBuf.readable.drop (accepted c.sendBuf.readable result).length := by
  obtain ⟨b, retrieved, valid', rest⟩ :=
    Buffer.retrieve_spec valid (accepted_length_le c.sendBuf.readable result)
  refine ⟨b, ?_, valid', rest⟩
  rw [writeNonBlocking, Buffer.readablebytes_eq valid]
  simp only [ok_bind]
  rw [offered_eq valid]
  simp only [ok_bind]
  rw [dataSend_of_clean _ clean, retrieved]
  rfl

/-- Any other failure moves the read index backwards. -/
theorem writeNonBlocking_of_error {c : TcpConnection} (valid : c.sendBuf.Valid)
    {result : WriteResult} (error : ¬ result.Clean) :
    c.writeNonBlocking result =
      .ok { c with sendBuf := { c.sendBuf with readIndex := c.sendBuf.readIndex - 1 } } := by
  rw [writeNonBlocking, Buffer.readablebytes_eq valid]
  simp only [ok_bind]
  rw [offered_eq valid]
  simp only [ok_bind]
  rw [dataSend_of_error _ error, Buffer.retrieve_minus_one valid, accepted_of_error _ error]
  simp

/-- A write keeps the bytes that stand between the wire and the end of the buffer. -/
theorem wire_append_readable (wire readable : Bytes) (result : WriteResult) :
    (wire ++ accepted readable result) ++ readable.drop (accepted readable result).length =
      wire ++ readable := by
  conv_lhs => rw [List.append_assoc, accepted_eq_take readable result]
  rw [List.length_take, Nat.min_eq_left (accepted_length_le _ _), List.take_append_drop]

/-! ## One call -/

/-- The end of `Send` and `HandleWrite` changes the channel only. -/
theorem send_tail {c t : TcpConnection} {p : Int → Prop} [DecidablePred p] {channel : Channel}
    (ended : (do
      let left ← c.sendBuf.readablebytes
      if p left then pure { c with channel := channel } else pure c : Result TcpConnection) =
        .ok t) :
    t = { c with channel := t.channel } := by
  obtain ⟨left, -, ended⟩ := bind_eq_ok ended
  split_ifs at ended <;> cases ended <;> rfl

/-- On a valid buffer the end of `Send` and `HandleWrite` returns. -/
theorem send_tail_ok {c : TcpConnection} (valid : c.sendBuf.Valid) (p : Int → Prop)
    [DecidablePred p] (channel : Channel) :
    ∃ channel', (do
      let left ← c.sendBuf.readablebytes
      if p left then pure { c with channel := channel } else pure c : Result TcpConnection) =
        .ok { c with channel := channel' } := by
  simp only [Buffer.readablebytes_eq valid, ok_bind, pure_eq_ok]
  split_ifs
  · exact ⟨channel, rfl⟩
  · exact ⟨c.channel, rfl⟩

/-- `Send` on a valid buffer, with a message that fits and a clean result. -/
theorem send_spec {c : TcpConnection} (valid : c.sendBuf.Valid) {msg : Bytes}
    (room : c.Accommodates msg) {result : WriteResult} (clean : result.Clean) :
    ∃ b channel, c.send msg result = .ok { c with
        sendBuf := b
        channel := channel
        messages := c.messages ++ [msg]
        wire := c.wire ++ accepted (c.sendBuf.readable ++ msg) result } ∧
      b.Valid ∧ b.readable = (c.sendBuf.readable ++ msg).drop
        (accepted (c.sendBuf.readable ++ msg) result).length := by
  obtain ⟨b, appended, valid₁, content⟩ := Buffer.appendString_spec valid room.1 room.2
  obtain ⟨b', wrote, valid', rest⟩ :=
    writeNonBlocking_spec (c := { c with sendBuf := b, messages := c.messages ++ [msg] }) valid₁ clean
  simp only [content] at wrote rest
  obtain ⟨channel, ended⟩ := send_tail_ok (c := { c with
    sendBuf := b'
    messages := c.messages ++ [msg]
    wire := c.wire ++ accepted (c.sendBuf.readable ++ msg) result }) valid'
    (fun left => 0 < left) c.channel.enableWrite
  refine ⟨b', channel, ?_, valid', rest⟩
  rw [send, sendChars, show c.sendBuf.append msg (toInt msg.length) = .ok b from appended]
  simp only [ok_bind]
  rw [wrote]
  simp only [ok_bind]
  exact ended

theorem handleWrite_spec {c : TcpConnection} (valid : c.sendBuf.Valid) {result : WriteResult}
    (clean : result.Clean) :
    ∃ b channel, c.handleWrite result = .ok { c with
        sendBuf := b
        channel := channel
        wire := c.wire ++ accepted c.sendBuf.readable result } ∧
      b.Valid ∧
      b.readable = c.sendBuf.readable.drop (accepted c.sendBuf.readable result).length := by
  obtain ⟨b, wrote, valid', rest⟩ := writeNonBlocking_spec valid clean
  obtain ⟨channel, ended⟩ := send_tail_ok (c := { c with
    sendBuf := b
    wire := c.wire ++ accepted c.sendBuf.readable result }) valid'
    (fun left => left = 0) c.channel.disableWrite
  refine ⟨b, channel, ?_, valid', rest⟩
  rw [handleWrite, wrote]
  simp only [ok_bind]
  exact ended

/-- A harmless call keeps the bytes. -/
theorem call_intact {c : TcpConnection} (intact : c.Intact) (valid : c.sendBuf.Valid)
    {i : SendCall} (harmless : c.Harmless i) :
    ∃ t, c.call i = .ok t ∧ t.Intact ∧ t.sendBuf.Valid := by
  have conserved : c.sent = c.wire ++ c.sendBuf.readable := intact.conserved
  cases i with
  | send msg result =>
      obtain ⟨b, channel, sends, valid', rest⟩ := send_spec valid harmless.1 harmless.2
      refine ⟨_, sends, ⟨?_, valid'.toOrdered⟩, valid'⟩
      rw [Conserved, sent_append]
      show c.sent ++ msg = _ ++ b.readable
      rw [rest, wire_append_readable, conserved, List.append_assoc]
  | handleWrite result =>
      obtain ⟨b, channel, writes, valid', rest⟩ := handleWrite_spec valid harmless
      refine ⟨_, writes, ⟨?_, valid'.toOrdered⟩, valid'⟩
      show c.sent = _ ++ b.readable
      rw [rest, wire_append_readable, conserved]

/-- After an error the buffer would have to hold a byte more than was sent. -/
theorem write_intact {c t : TcpConnection} (valid : c.sendBuf.Valid) {result : WriteResult}
    (wrote : c.writeNonBlocking result = .ok t) (intact : t.Intact)
    (held : c.sent.length ≠ c.wire.length + c.sendBuf.readable.length + 1) :
    result.Clean ∧ c.Conserved := by
  by_cases clean : result.Clean
  · refine ⟨clean, ?_⟩
    obtain ⟨b, wrote', -, rest⟩ := writeNonBlocking_spec valid clean
    rw [wrote', Except.ok.injEq] at wrote
    subst wrote
    have conserved : c.sent = _ ++ b.readable := intact.conserved
    rw [rest, wire_append_readable] at conserved
    exact conserved
  · rw [writeNonBlocking_of_error valid clean, Except.ok.injEq] at wrote
    subst wrote
    have longer := intact.ordered.readable_length
    have length := valid.readable_length
    have conserved : c.sent = c.wire ++ _ := intact.conserved
    replace conserved := congrArg List.length conserved
    simp only [List.length_append] at conserved longer
    exact absurd (by omega) held

/-- A call that keeps the bytes is harmless. -/
theorem harmless_of_call {c t : TcpConnection} (conserved : c.Conserved)
    (valid : c.sendBuf.Valid) {i : SendCall} (called : c.call i = .ok t) (intact : t.Intact) :
    c.Harmless i := by
  have length : c.sent.length = c.wire.length + c.sendBuf.readable.length := by
    rw [conserved, List.length_append]
  cases i with
  | send msg result =>
      obtain ⟨b, appended, called⟩ := bind_eq_ok called
      obtain ⟨c₁, wrote, ended⟩ := bind_eq_ok called
      obtain ⟨valid₁, n, size, within, fits, content⟩ :=
        Buffer.appendString_eq_ok valid (show c.sendBuf.appendString msg = .ok b from appended)
      have same := send_tail ended
      have intact₁ : c₁.Intact := by
        rw [same] at intact
        exact ⟨intact.conserved, intact.ordered⟩
      have offBy := toInt_ne_pred (msg.length : Int)
      have held : ({ c with sendBuf := b, messages := c.messages ++ [msg] } :
          TcpConnection).sent.length ≠ c.wire.length + b.readable.length + 1 := by
        rw [sent_append c msg b c.channel c.wire, content, List.length_append,
          List.length_append, List.length_take]
        omega
      obtain ⟨clean, conserved₁⟩ := write_intact valid₁ wrote intact₁ held
      refine ⟨?_, clean⟩
      have all : c.sent ++ msg = c.wire ++ b.readable :=
        (sent_append c msg b c.channel c.wire).symm.trans conserved₁
      rw [content, conserved, List.append_assoc, List.append_cancel_left_eq,
        List.append_cancel_left_eq] at all
      have whole := congrArg List.length all
      rw [List.length_take] at whole
      have bound := toInt_lt (msg.length : Int)
      have exact : n = msg.length := by omega
      exact ⟨by omega, exact ▸ fits⟩
  | handleWrite result =>
      obtain ⟨c₁, wrote, ended⟩ := bind_eq_ok called
      have same := send_tail ended
      have intact₁ : c₁.Intact := by
        rw [same] at intact
        exact ⟨intact.conserved, intact.ordered⟩
      exact (write_intact valid wrote intact₁ (by omega)).1

/-! ## Messages of any length

A `Send` that returns may have cut a message whose length is no `int`.  The books
still balance: what is on the wire or readable is everything sent, or less. -/

/-- The length of every message is an `int`. -/
def Uncut (c : TcpConnection) : Prop := ∀ msg ∈ c.messages, msg.length < 2 ^ 31

structure Accounted (c : TcpConnection) : Prop where
  valid : c.sendBuf.Valid
  whole : c.Uncut → c.Conserved
  cut : ¬ c.Uncut → c.wire.length + c.sendBuf.readable.length < c.sent.length

theorem Accounted.le {c : TcpConnection} (accounted : c.Accounted) :
    c.wire.length + c.sendBuf.readable.length ≤ c.sent.length := by
  by_cases uncut : c.Uncut
  · have conserved : c.sent = c.wire ++ c.sendBuf.readable := accounted.whole uncut
    rw [conserved, List.length_append]
  · exact (accounted.cut uncut).le

theorem Accounted.congr {c t : TcpConnection} (accounted : c.Accounted)
    (sendBuf : t.sendBuf = c.sendBuf) (messages : t.messages = c.messages)
    (wire : t.wire = c.wire) : t.Accounted := by
  obtain ⟨valid, whole, cut⟩ := accounted
  unfold Uncut Conserved sent at whole
  unfold Uncut sent at cut
  refine ⟨sendBuf ▸ valid, ?_, ?_⟩
  · unfold Uncut Conserved sent
    rw [sendBuf, messages, wire]
    exact whole
  · unfold Uncut sent
    rw [sendBuf, messages, wire]
    exact cut

theorem send_accounted {c t : TcpConnection} (accounted : c.Accounted) {msg : Bytes}
    {result : WriteResult} (clean : result.Clean) (sends : c.send msg result = .ok t) :
    t.Accounted := by
  obtain ⟨b, appended, sends⟩ := bind_eq_ok sends
  obtain ⟨valid₁, n, size, within, fits, content⟩ := Buffer.appendString_eq_ok accounted.valid
    (show c.sendBuf.appendString msg = .ok b from appended)
  obtain ⟨b', wrote, valid', rest⟩ := writeNonBlocking_spec
    (c := { c with sendBuf := b, messages := c.messages ++ [msg] }) valid₁ clean
  rw [wrote, ok_bind] at sends
  have same := send_tail (c := { c with
    sendBuf := b'
    messages := c.messages ++ [msg]
    wire := c.wire ++ accepted b.readable result }) sends
  simp only at same rest
  have balance := wire_append_readable c.wire b.readable result
  rw [← rest] at balance
  have sent' : t.sent = c.sent ++ msg := by
    rw [same]
    exact sent_append c msg b' t.channel _
  have books : t.wire ++ t.sendBuf.readable = c.wire ++ c.sendBuf.readable ++ msg.take n := by
    rw [same]
    exact balance.trans (by rw [content, List.append_assoc])
  have messages' : t.messages = c.messages ++ [msg] := by rw [same]
  have bound := toInt_lt (msg.length : Int)
  constructor
  · rw [same]
    exact valid'
  · intro uncut
    rw [Uncut, messages'] at uncut
    have short := uncut msg (by simp)
    have earlier : c.Uncut := fun m member => uncut m (List.mem_append_left _ member)
    have conserved : c.sent = c.wire ++ c.sendBuf.readable := accounted.whole earlier
    rw [toInt_of_fits (by omega) (by omega)] at size
    rw [Conserved, sent', books, conserved, List.take_of_length_le (by omega)]
  · intro someCut
    have lengths := congrArg List.length books
    rw [List.length_append, List.length_append, List.length_append, List.length_take] at lengths
    rw [sent', List.length_append]
    have before := accounted.le
    by_cases earlier : c.Uncut
    · have long : ¬ msg.length < 2 ^ 31 := by
        intro short
        apply someCut
        rw [Uncut, messages']
        intro m member
        rcases List.mem_append.mp member with old | new
        · exact earlier m old
        · rw [List.mem_singleton.mp new]
          exact short
      omega
    · have strict := accounted.cut earlier
      omega

theorem handleWrite_accounted {c t : TcpConnection} (accounted : c.Accounted)
    {result : WriteResult} (clean : result.Clean) (wrote : c.handleWrite result = .ok t) :
    t.Accounted ∧ t.messages = c.messages ∧ t.state = c.state ∧
      t.sendBuf.readable =
        c.sendBuf.readable.drop (accepted c.sendBuf.readable result).length := by
  obtain ⟨b, channel, wrote', valid', rest⟩ := handleWrite_spec accounted.valid clean
  rw [wrote', Except.ok.injEq] at wrote
  subst wrote
  have balance := wire_append_readable c.wire c.sendBuf.readable result
  rw [← rest] at balance
  refine ⟨⟨valid', ?_, ?_⟩, rfl, rfl, rest⟩
  · intro uncut
    show c.sent = _
    have conserved : c.sent = c.wire ++ c.sendBuf.readable := accounted.whole uncut
    rw [conserved, ← balance]
  · intro someCut
    show (c.wire ++ accepted c.sendBuf.readable result).length + b.readable.length < c.sent.length
    rw [← List.length_append, balance, List.length_append]
    exact accounted.cut someCut

/-! ## Every run -/

/-- A connection that has just been established. -/
def established (state : ConnectionState) (completeHeaders : Bool) : TcpConnection :=
  (construct state completeHeaders).connectionEstablished

/-- **The send path.**  On an established connection the bytes and the order of the
indices are kept by every call of a run exactly if every call is harmless: `write`
does not fail with an error other than `EAGAIN`, and the message of a `Send` has an
`int` length that the buffer accommodates. -/
theorem send_path_intact (state : ConnectionState) (completeHeaders : Bool)
    (calls : List SendCall) :
    Along call Intact (established state completeHeaders) calls ↔
      Meets call Harmless (established state completeHeaders) calls := by
  have initial : (established state completeHeaders).Intact ∧
      (established state completeHeaders).sendBuf.Valid :=
    ⟨⟨rfl, Buffer.construct_valid.toOrdered⟩, Buffer.construct_valid⟩
  refine along_iff_meets (Q := fun c : TcpConnection => c.Intact ∧ c.sendBuf.Valid)
    (fun c kept => kept.1) ?_ ?_ initial calls
  · intro c i ⟨intact, valid⟩
    constructor
    · rintro ⟨t, called, intact'⟩
      exact harmless_of_call intact.conserved valid called intact'
    · intro harmless
      obtain ⟨t, called, intact', -⟩ := call_intact intact valid harmless
      exact ⟨t, called, intact'⟩
  · intro c i t ⟨intact, valid⟩ called intact'
    have harmless := harmless_of_call intact.conserved valid called intact'
    obtain ⟨u, called', -, valid'⟩ := call_intact intact valid harmless
    rw [called, Except.ok.injEq] at called'
    exact ⟨intact', called' ▸ valid'⟩

/-- The first write of a connection that the peer has reset leaves `read_index_` at 7. -/
theorem send_connection_reset :
    ¬ Along call Intact (established .Invalid false) [.send (ascii "ab") (.failed .econnreset)] := by
  rintro ⟨_, t, called, intact⟩
  have index : ((established .Invalid false).call (.send (ascii "ab") (.failed .econnreset))).toOption.map
      (·.sendBuf.readIndex) = some 7 := by decide
  rw [called] at index
  have seven : t.sendBuf.readIndex = 7 := Option.some.inj index
  have front : kPrePendIndex ≤ t.sendBuf.readIndex := intact.ordered.front
  rw [seven] at front
  exact absurd front (by decide)

end TcpConnection

end CppFileServer.Tcp
