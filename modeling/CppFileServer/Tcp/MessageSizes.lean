/-
# Tcp.MessageSizes -- the size of a message on its way to `write`

`Send` casts the size of a `std::string` to `int`, and `Append` adds it to
`kPrePendIndex` and to the write index.  A file of 2 GiB is a message whose size the
cast makes negative, and a file a little smaller one whose sums overflow.  `Fits` is
the exact condition for the sums, whatever `Retrieve` has done to the read index as
long as it is not in front of the storage (`sizesKept_iff`).
-/
import CppFileServer.Tcp.WriteInterest

namespace CppFileServer.Tcp

set_option autoImplicit false

open CppFileServer.Cpp CppFileServer.Utils

/-! ## Append in every state -/

namespace Bounded

variable {b : Buffer}

theorem writablebytes_eq (bounded : Bounded b) :
    b.writablebytes = .ok (b.buf.length - b.writeIndex) := by
  obtain ⟨front, order, inside, small⟩ := bounded
  rw [kPrePendIndex_eq] at front
  rw [Buffer.writablebytes, toInt_of_fits (by omega) (by omega)]
  exact checkedInt_of_fits (by omega) (by omega)

theorem readablebytes_eq (bounded : Bounded b) (natural : 0 ≤ b.readIndex) :
    b.readablebytes = .ok (b.writeIndex - b.readIndex) := by
  obtain ⟨front, order, inside, small⟩ := bounded
  exact checkedInt_of_fits (by omega) (by omega)

theorem readable_length (bounded : Bounded b) (natural : 0 ≤ b.readIndex) :
    (b.readable.length : Int) = b.writeIndex - b.readIndex := by
  obtain ⟨front, order, inside, small⟩ := bounded
  rw [Buffer.readable, List.length_take, List.length_drop]
  omega

theorem valid (bounded : Bounded b) (front : kPrePendIndex ≤ b.readIndex) : b.Valid :=
  ⟨⟨front, bounded.order, bounded.inside⟩, bounded.small⟩

/-- In front of `kPrePendIndex` there is nothing to move to, so the storage grows. -/
theorem ensureWritableBytes_low (bounded : Bounded b) (natural : 0 ≤ b.readIndex)
    (low : b.readIndex < kPrePendIndex) {n : Nat} (fits : b.Fits n) :
    ∃ buf, b.ensureWritableBytes n = .ok { b with buf := buf } ∧
      b.writeIndex + n ≤ buf.length ∧ buf.length < 2 ^ 31 ∧
      ({ b with buf := buf } : Buffer).readable = b.readable := by
  have writable := bounded.writablebytes_eq
  obtain ⟨front, order, inside, small⟩ := bounded
  simp only [Buffer.Fits, kPrePendIndex_eq] at front low fits
  rw [Buffer.ensureWritableBytes, writable]
  simp only [ok_bind, pure_eq_ok, Buffer.prependablebytes, kPrePendIndex_eq]
  by_cases enough : (n : Int) ≤ b.buf.length - b.writeIndex
  · rw [if_pos enough]
    exact ⟨b.buf, rfl, by omega, small, rfl⟩
  obtain ⟨wide, room⟩ := fits.resolve_left (fun behind => enough (by omega))
  have grows : b.writeIndex + n < 2 ^ 31 := room.resolve_left (by omega)
  rw [if_neg enough, checkedInt_of_fits (by omega) (by omega), ok_bind,
    checkedInt_of_fits (by omega) wide, ok_bind, if_neg (by omega),
    checkedInt_of_fits (by omega) grows, ok_bind, Buffer.resize, if_neg (by omega), ok_bind]
  have whole : b.buf.take (b.writeIndex + n).toNat = b.buf := List.take_of_length_le (by omega)
  have grown : (b.buf ++ List.replicate ((b.writeIndex + n).toNat - b.buf.length)
      (0 : UInt8)).length = (b.writeIndex + n).toNat := by
    rw [List.length_append, List.length_replicate]
    omega
  rw [whole]
  refine ⟨_, rfl, by rw [grown]; omega, by rw [grown]; omega, ?_⟩
  simp only [Buffer.readable]
  rw [List.drop_append_of_le_length (by omega),
    List.take_append_of_le_length (by rw [List.length_drop]; omega)]

theorem ensureWritableBytes_unfit (bounded : Bounded b) (natural : 0 ≤ b.readIndex) {n : Nat}
    (unfit : ¬ b.Fits n) : b.ensureWritableBytes n = .error .undefined := by
  by_cases front : kPrePendIndex ≤ b.readIndex
  · exact Buffer.ensureWritableBytes_unfit (bounded.valid front) unfit
  have writable := bounded.writablebytes_eq
  obtain ⟨ahead, order, inside, small⟩ := bounded
  simp only [Buffer.Fits, kPrePendIndex_eq, not_or, not_and] at ahead front unfit
  obtain ⟨behind, unmoved⟩ := unfit
  rw [Buffer.ensureWritableBytes, writable]
  simp only [ok_bind, Buffer.prependablebytes, kPrePendIndex_eq]
  rw [if_neg (by omega), checkedInt_of_fits (by omega) (by omega), ok_bind]
  by_cases wide : (8 : Int) + n < 2 ^ 31
  · obtain ⟨moved, grown⟩ := unmoved wide
    rw [checkedInt_of_fits (by omega) wide, ok_bind, if_neg (by omega),
      checkedInt_of_overflow (by omega), error_bind]
  · rw [checkedInt_of_overflow (by omega), error_bind]

/-- `Append` puts the bytes behind the readable ones, wherever these start. -/
theorem append_spec (bounded : Bounded b) (natural : 0 ≤ b.readIndex) {str : Bytes} {n : Nat}
    (within : n ≤ str.length) (fits : b.Fits n) :
    ∃ b', b.append str n = .ok b' ∧ 0 ≤ b'.readIndex ∧
      b'.readable = b.readable ++ str.take n := by
  by_cases front : kPrePendIndex ≤ b.readIndex
  · obtain ⟨b', appended, valid', content⟩ :=
      Buffer.append_spec (bounded.valid front) within fits
    have front' := valid'.front
    rw [kPrePendIndex_eq] at front'
    exact ⟨b', appended, by omega, content⟩
  · obtain ⟨buf, ensured, room, small, same⟩ :=
      bounded.ensureWritableBytes_low natural (by omega) fits
    obtain ⟨b', appended, r, -, -, content⟩ :=
      Buffer.append_of_room ensured natural bounded.order room small within
    exact ⟨b', appended, by rw [r]; exact natural, by rw [content, same]⟩

theorem peek_readable (bounded : Bounded b) (natural : 0 ≤ b.readIndex) :
    b.peek (b.writeIndex - b.readIndex) = .ok b.readable := by
  obtain ⟨front, order, inside, small⟩ := bounded
  have past : b.readIndex + (b.writeIndex - b.readIndex) = b.writeIndex := by omega
  rw [Buffer.peek, past, Buffer.slice, if_pos ⟨natural, order, inside⟩]
  rfl

/-- `Retrieve` of at most what is readable returns. -/
theorem retrieve_returns (bounded : Bounded b) (natural : 0 ≤ b.readIndex) {n : Nat}
    (held : n ≤ b.readable.length) :
    ∃ b', b.retrieve n = .ok b' ∧ 0 ≤ b'.readIndex := by
  have length := bounded.readable_length natural
  have counted := bounded.readablebytes_eq natural
  obtain ⟨front, order, inside, small⟩ := bounded
  rw [Buffer.retrieve, counted, ok_bind, if_neg (by omega),
    checkedInt_of_fits (by omega) (by omega), ok_bind]
  split_ifs with within
  · refine ⟨_, rfl, ?_⟩
    show 0 ≤ (n : Int) + b.readIndex
    omega
  · refine ⟨_, rfl, ?_⟩
    show 0 ≤ kPrePendIndex
    decide

end Bounded

/-! ## Send -/

namespace TcpConnection

variable {c : TcpConnection}

/-- No size is lost on the way of this message: the cast keeps it, `Append` puts the whole
message behind the readable bytes and counts them right, and `Send` offers these to
`write`, so that the first ones go out. -/
structure SizesKept (c : TcpConnection) (msg : Bytes) : Prop where
  cast : toInt msg.length = msg.length
  appended : ∃ b, c.sendBuf.appendString msg = .ok b ∧
    b.readable = c.sendBuf.readable ++ msg ∧
    b.readablebytes = .ok (c.sendBuf.readable ++ msg).length
  offered : ∀ count, ∃ t, c.send msg (.accepts count) = .ok t ∧
    t.wire = c.wire ++ (c.sendBuf.readable ++ msg).take count

theorem writeNonBlocking_accepts (bounded : Bounded c.sendBuf)
    (natural : 0 ≤ c.sendBuf.readIndex) (count : Nat) :
    ∃ t, c.writeNonBlocking (.accepts count) = .ok t ∧ 0 ≤ t.sendBuf.readIndex ∧
      Bounded t.sendBuf ∧ t.wire = c.wire ++ c.sendBuf.readable.take count := by
  have fewer : (c.sendBuf.readable.take count).length ≤ c.sendBuf.readable.length :=
    List.length_take_le' count c.sendBuf.readable
  obtain ⟨b, retrieved, natural'⟩ := bounded.retrieve_returns natural fewer
  refine ⟨{ c with sendBuf := b, wire := c.wire ++ c.sendBuf.readable.take count }, ?_, natural',
    bounded.retrieve retrieved, rfl⟩
  rw [writeNonBlocking, bounded.readablebytes_eq natural, ok_bind, bounded.peek_readable natural,
    ok_bind]
  show (c.sendBuf.retrieve (c.sendBuf.readable.take count).length >>= _) = _
  rw [retrieved]
  rfl

theorem sizesKept_of_fits (bounded : Bounded c.sendBuf) (natural : 0 ≤ c.sendBuf.readIndex)
    {msg : Bytes} (fits : c.sendBuf.Fits msg.length) : SizesKept c msg := by
  have small : msg.length < 2 ^ 31 := by
    obtain ⟨front, order, inside, small⟩ := bounded
    simp only [Buffer.Fits, kPrePendIndex_eq] at *
    omega
  have cast : toInt msg.length = msg.length := toInt_of_fits (by omega) (by omega)
  obtain ⟨b, appended, natural', content⟩ :=
    bounded.append_spec natural (Nat.le_refl msg.length) fits
  rw [List.take_length] at content
  have bounded' := bounded.append appended
  refine ⟨cast, ⟨b, ?_, content, ?_⟩, ?_⟩
  · rw [Buffer.appendString, cast, appended]
  · rw [← content, bounded'.readable_length natural']
    exact bounded'.readablebytes_eq natural'
  · intro count
    let c₁ : TcpConnection := { c with sendBuf := b, messages := c.messages ++ [msg] }
    obtain ⟨t, wrote, natural'', bounded'', wire⟩ :=
      writeNonBlocking_accepts (show Bounded c₁.sendBuf from bounded') natural' count
    have left := bounded''.readablebytes_eq natural''
    rw [send, cast, sendChars, appended, ok_bind, wrote, ok_bind, left, ok_bind]
    rw [show c₁.sendBuf.readable = c.sendBuf.readable ++ msg from content] at wire
    split_ifs
    · exact ⟨_, rfl, wire⟩
    · exact ⟨_, rfl, wire⟩

theorem fits_of_sizesKept (bounded : Bounded c.sendBuf) (natural : 0 ≤ c.sendBuf.readIndex)
    {msg : Bytes} (kept : SizesKept c msg) : c.sendBuf.Fits msg.length := by
  obtain ⟨b, appended, -, -⟩ := kept.appended
  by_contra unfit
  rw [Buffer.appendString, kept.cast, Buffer.append, bounded.ensureWritableBytes_unfit natural unfit,
    error_bind] at appended
  cases appended

/-- **Sizes of messages**: no size is lost exactly when the message fits the `int`
arithmetic of the buffer. -/
theorem sizesKept_iff (c : TcpConnection) (bounded : Bounded c.sendBuf)
    (natural : 0 ≤ c.sendBuf.readIndex) (msg : Bytes) :
    SizesKept c msg ↔ c.sendBuf.Fits msg.length :=
  ⟨fits_of_sizesKept bounded natural, sizesKept_of_fits bounded natural⟩

/-- A message of five bytes on a new connection. -/
theorem sizesKept_iff_hello :
    SizesKept (construct .Connected false) (ascii "hello") ↔
      (construct .Connected false).sendBuf.Fits 5 :=
  sizesKept_iff (construct .Connected false) Bounded.construct (by decide) (ascii "hello")

/-- The size of a message of 2 GiB is negative as an `int`. -/
theorem sizes_lost :
    ¬ SizesKept (construct .Connected false) (List.replicate (2 ^ 31) 0) := by
  intro kept
  have cast := kept.cast
  rw [List.length_replicate] at cast
  exact absurd cast (by decide)

end TcpConnection

end CppFileServer.Tcp
