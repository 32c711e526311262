/-
# Utils.BufferQueue -- a buffer is a queue of bytes

The specification of a `Buffer` is a list of bytes: appending puts bytes behind
it, peeking answers with its front, retrieving drops its front.  `step` is a call
of one of the member functions on the real buffer, `serve` the same call on the
list.  A call is `Allowed` when its length is one the assertions admit and the
storage it asks for stays within `int`; allowed calls are answered alike, so the
vector and its two indices never show.
-/
import CppFileServer.Theory.Refinement
import CppFileServer.Utils.Buffer

namespace CppFileServer.Utils

set_option autoImplicit false

open CppFileServer.Cpp CppFileServer.Theory

/-- A call of a member function. -/
inductive BufferOp
  | append (str : Bytes) (size : Int)
  | appendCString (str : Bytes)
  | appendString (str : Bytes)
  | ensureWritableBytes (len : Int)
  | peekAsString (len : Int)
  | peekAllAsString
  | retrieve (len : Int)
  | retrieveAsString (len : Int)
  | retrieveAll
  | retrieveAllAsString
  /-- With the pointer `Peek() + len`. -/
  | retrieveUtil (len : Int)
  | retrieveUtilAsString (len : Int)

namespace BufferOp

/-- The bytes a call puts behind the queue. -/
def appended : BufferOp → Bytes
  | append str size => str.take size.toNat
  | appendCString str => str.takeWhile (· ≠ 0)
  | appendString str => str
  | _ => []

/-- The bytes a call takes off the front of the queue. -/
def retrieved (queue : Bytes) : BufferOp → Bytes
  | retrieve len => queue.take len.toNat
  | retrieveAsString len => queue.take len.toNat
  | retrieveUtil len => queue.take len.toNat
  | retrieveUtilAsString len => queue.take len.toNat
  | retrieveAll => queue
  | retrieveAllAsString => queue
  | _ => []

/-- The writable bytes a call asks for. -/
def demand : BufferOp → Nat
  | append _ size => size.toNat
  | appendCString str => (str.takeWhile (· ≠ 0)).length
  | appendString str => str.length
  | ensureWritableBytes len => len.toNat
  | _ => 0

end BufferOp

/-- What a queue answers to a call, and what it holds then. -/
def serve (queue : Bytes) : BufferOp → Option Bytes × Bytes
  | .append str size => (none, queue ++ str.take size.toNat)
  | .appendCString str => (none, queue ++ str.takeWhile (· ≠ 0))
  | .appendString str => (none, queue ++ str)
  | .ensureWritableBytes _ => (none, queue)
  | .peekAsString len => (some (queue.take len.toNat), queue)
  | .peekAllAsString => (some queue, queue)
  | .retrieve len => (none, queue.drop len.toNat)
  | .retrieveAsString len => (some (queue.take len.toNat), queue.drop len.toNat)
  | .retrieveAll => (none, [])
  | .retrieveAllAsString => (some queue, [])
  | .retrieveUtil len => (none, queue.drop len.toNat)
  | .retrieveUtilAsString len => (some (queue.take len.toNat), queue.drop len.toNat)

theorem serve_conserves (queue : Bytes) (op : BufferOp) :
    op.retrieved queue ++ (serve queue op).2 = queue ++ op.appended := by
  cases op <;> simp [BufferOp.retrieved, BufferOp.appended, serve]

namespace Buffer

def silent (called : Result Buffer) : Result (Option Bytes × Buffer) := do
  let b ← called
  pure (none, b)

def speaking (called : Result (Bytes × Buffer)) : Result (Option Bytes × Buffer) := do
  let (str, b) ← called
  pure (some str, b)

/-- A call, with the string it returns if it returns one. -/
def step (b : Buffer) : BufferOp → Result (Option Bytes × Buffer)
  | .append str size => silent (b.append str size)
  | .appendCString str => silent (b.appendCString str)
  | .appendString str => silent (b.appendString str)
  | .ensureWritableBytes len => silent (b.ensureWritableBytes len)
  | .peekAsString len => do
      let str ← b.peekAsString len
      pure (some str, b)
  | .peekAllAsString => do
      let str ← b.peekAllAsString
      pure (some str, b)
  | .retrieve len => silent (b.retrieve len)
  | .retrieveAsString len => speaking (b.retrieveAsString len)
  | .retrieveAll => pure (none, b.retrieveAll)
  | .retrieveAllAsString => speaking b.retrieveAllAsString
  | .retrieveUtil len => silent (b.retrieveUtil (b.readIndex + len))
  | .retrieveUtilAsString len => speaking (b.retrieveUtilAsString (b.readIndex + len))

/-- The lengths of a call are within what it is given and what the buffer holds. -/
def InRange (b : Buffer) : BufferOp → Prop
  | .append str size => 0 ≤ size ∧ size ≤ str.length
  | .appendCString str => 0 ∈ str
  | .peekAsString len => 0 ≤ len ∧ len ≤ b.writeIndex - b.readIndex
  | .retrieve len => 0 ≤ len ∧ len ≤ b.writeIndex - b.readIndex
  | .retrieveAsString len => 0 ≤ len ∧ len ≤ b.writeIndex - b.readIndex
  | .retrieveUtil len => 0 ≤ len ∧ len ≤ b.writeIndex - b.readIndex
  | .retrieveUtilAsString len => 0 ≤ len ∧ len ≤ b.writeIndex - b.readIndex
  | _ => True

instance (b : Buffer) (op : BufferOp) : Decidable (b.InRange op) := by
  cases op <;> (unfold InRange; infer_instance)

/-- The precondition of a call: lengths in range, and a storage whose size is an `int`. -/
def Allowed (b : Buffer) (op : BufferOp) : Prop := b.InRange op ∧ b.Fits op.demand

instance (b : Buffer) (op : BufferOp) : Decidable (b.Allowed op) :=
  inferInstanceAs (Decidable (b.InRange op ∧ b.Fits op.demand))

/-- `EnsureWritableBytes(len)` moves the readable bytes to the front. -/
def Compacts (b : Buffer) (len : Int) : Prop :=
  ∃ writable, b.writablebytes = .ok writable ∧ writable < len ∧
    kPrePendIndex + len ≤ writable + b.prependablebytes

/-! ## Each call -/

/-- The buffer stands for the queue. -/
def Holds (b : Buffer) (queue : Bytes) : Prop := Valid b ∧ b.readable = queue

section Calls

variable {b : Buffer} (valid : Valid b)

include valid

theorem fits_lt {n : Nat} (fits : b.Fits n) : n < 2 ^ 31 := by
  obtain ⟨⟨front, order, inside⟩, small⟩ := valid
  simp only [Fits, kPrePendIndex_eq] at front fits
  omega

/-- A length the assertions admit counts readable bytes. -/
theorem held_of_range {len : Int} (range : 0 ≤ len ∧ len ≤ b.writeIndex - b.readIndex) :
    ∃ n : Nat, len = n ∧ n ≤ b.readable.length := by
  have length := valid.readable_length
  obtain ⟨n, rfl⟩ := Int.eq_ofNat_of_zero_le range.1
  exact ⟨n, rfl, by omega⟩

theorem appendCString_eq {str : Bytes} (terminated : 0 ∈ str)
    (fits : b.Fits (str.takeWhile (· ≠ 0)).length) :
    b.appendCString str = b.append str (str.takeWhile (· ≠ 0)).length := by
  have short := fits_lt valid fits
  rw [appendCString, if_pos terminated, toInt_of_fits (by omega) (by omega)]

/-- Making room for a negative or vanishing length does nothing. -/
theorem ensureWritableBytes_spec_int {len : Int} (fits : b.Fits len.toNat) :
    ∃ b', b.ensureWritableBytes len = .ok b' ∧ Valid b' ∧ b'.readable = b.readable ∧
      b'.writeIndex + len ≤ b'.buf.length ∧ b'.buf.length ≤ b.buf.length + len.toNat := by
  rcases Int.lt_or_le len 0 with negative | nonnegative
  · obtain ⟨⟨front, order, inside⟩, small⟩ := id valid
    refine ⟨b, ?_, valid, rfl, by omega, by omega⟩
    rw [ensureWritableBytes, writablebytes_eq valid]
    simp only [ok_bind]
    rw [if_pos (by omega)]
    rfl
  · obtain ⟨n, rfl⟩ := Int.eq_ofNat_of_zero_le nonnegative
    exact ensureWritableBytes_spec valid fits

end Calls

/-- The bytes that move to the front move down. -/
theorem compacts_behind {b : Buffer} {len : Int} (compacts : b.Compacts len) :
    kPrePendIndex < b.readIndex := by
  obtain ⟨writable, counted, short, room⟩ := compacts
  rw [prependablebytes] at room
  omega

theorem silent_ok {called : Result Buffer} {b : Buffer} (returned : called = .ok b) :
    silent called = .ok (none, b) := by
  rw [silent, returned]
  rfl

theorem speaking_ok {called : Result (Bytes × Buffer)} {str : Bytes} {b : Buffer}
    (returned : called = .ok (str, b)) : speaking called = .ok (some str, b) := by
  rw [speaking, returned]
  rfl

/-- A buffer answers an allowed call as its queue does. -/
theorem simulates : Simulates step serve Allowed Holds where
  answer := by
    rintro b _ op ⟨valid, rfl⟩ ⟨range, fits⟩
    cases op with
    | append str size =>
        obtain ⟨n, rfl⟩ := Int.eq_ofNat_of_zero_le range.1
        obtain ⟨b', appended, holds⟩ :=
          append_spec valid (Int.ofNat_le.mp range.2) fits
        exact ⟨b', silent_ok appended, holds⟩
    | appendCString str =>
        obtain ⟨b', appended, valid', content⟩ :=
          append_spec valid (List.takeWhile_sublist _).length_le fits
        rw [← List.prefix_iff_eq_take.mp (List.takeWhile_prefix _)] at content
        exact ⟨b', silent_ok ((appendCString_eq valid range fits).trans appended), valid', content⟩
    | appendString str =>
        obtain ⟨b', appended, holds⟩ := appendString_spec valid (fits_lt valid fits) fits
        exact ⟨b', silent_ok appended, holds⟩
    | ensureWritableBytes len =>
        obtain ⟨b', ensured, valid', same, -⟩ := ensureWritableBytes_spec_int valid fits
        exact ⟨b', silent_ok ensured, valid', same⟩
    | peekAsString len =>
        obtain ⟨n, rfl, held⟩ := held_of_range valid range
        have peeked : b.peekAsString n = .ok (b.readable.take n) := peek_eq valid held
        refine ⟨b, ?_, valid, rfl⟩
        rw [step, peeked]
        rfl
    | peekAllAsString =>
        refine ⟨b, ?_, valid, rfl⟩
        rw [step, peekAllAsString_eq valid]
        rfl
    | retrieve len =>
        obtain ⟨n, rfl, held⟩ := held_of_range valid range
        obtain ⟨b', retrieved, holds⟩ := retrieve_spec valid held
        exact ⟨b', silent_ok retrieved, holds⟩
    | retrieveAsString len =>
        obtain ⟨n, rfl, held⟩ := held_of_range valid range
        obtain ⟨b', retrieved, holds⟩ := retrieveAsString_spec valid held
        exact ⟨b', speaking_ok retrieved, holds⟩
    | retrieveAll => exact ⟨b.retrieveAll, rfl, retrieveAll_valid valid⟩
    | retrieveAllAsString =>
        exact ⟨b.retrieveAll, speaking_ok (retrieveAllAsString_eq valid), retrieveAll_valid valid⟩
    | retrieveUtil len =>
        obtain ⟨n, rfl, held⟩ := held_of_range valid range
        obtain ⟨b', retrieved, holds⟩ := retrieve_spec valid held
        exact ⟨b', silent_ok ((retrieveUtil_eq valid held).trans retrieved), holds⟩
    | retrieveUtilAsString len =>
        obtain ⟨n, rfl, held⟩ := held_of_range valid range
        obtain ⟨b', retrieved, holds⟩ := retrieveAsString_spec valid held
        exact ⟨b', speaking_ok ((retrieveUtilAsString_eq valid held).trans retrieved), holds⟩

/-! ## A bound on all that is asked for -/

theorem silent_eq_ok {called : Result Buffer} {o : Option Bytes} {t : Buffer}
    (returned : silent called = .ok (o, t)) : called = .ok t := by
  obtain ⟨b, called, same⟩ := bind_eq_ok returned
  cases same
  exact called

theorem speaking_eq_ok {called : Result (Bytes × Buffer)} {o : Option Bytes} {t : Buffer}
    (returned : speaking called = .ok (o, t)) : ∃ str, called = .ok (str, t) := by
  obtain ⟨⟨str, b⟩, called, same⟩ := bind_eq_ok returned
  cases same
  exact ⟨str, called⟩

theorem retrieve_buf {b b' : Buffer} {len : Int} (retrieved : b.retrieve len = .ok b') :
    b'.buf = b.buf := by
  obtain ⟨readable, -, retrieved⟩ := bind_eq_ok retrieved
  split_ifs at retrieved
  obtain ⟨next, -, retrieved⟩ := bind_eq_ok retrieved
  split_ifs at retrieved <;> (cases retrieved; rfl)

theorem retrieveAsString_buf {b b' : Buffer} {len : Int} {str : Bytes}
    (retrieved : b.retrieveAsString len = .ok (str, b')) : b'.buf = b.buf := by
  obtain ⟨readable, -, retrieved⟩ := bind_eq_ok retrieved
  split_ifs at retrieved
  obtain ⟨peeked, -, retrieved⟩ := bind_eq_ok retrieved
  obtain ⟨b₁, dropped, retrieved⟩ := bind_eq_ok retrieved
  cases retrieved
  exact retrieve_buf dropped

/-- The storage grows by at most what the call asks for. -/
theorem step_size {b t : Buffer} {op : BufferOp} {o : Option Bytes} (valid : Valid b)
    (allowed : b.Allowed op) (stepped : b.step op = .ok (o, t)) :
    t.buf.length ≤ b.buf.length + op.demand := by
  obtain ⟨range, fits⟩ := allowed
  cases op with
  | append str size =>
      obtain ⟨n, rfl⟩ := Int.eq_ofNat_of_zero_le range.1
      exact append_size valid fits (silent_eq_ok stepped)
  | appendCString str =>
      have appended := silent_eq_ok stepped
      rw [appendCString_eq valid range fits] at appended
      exact append_size valid fits appended
  | appendString str =>
      have short : str.length < 2 ^ 31 := fits_lt valid fits
      have appended := silent_eq_ok stepped
      rw [appendString, toInt_of_fits (by omega) (by omega)] at appended
      exact append_size valid fits appended
  | ensureWritableBytes len =>
      obtain ⟨b', ensured, -, -, -, grown⟩ := ensureWritableBytes_spec_int valid fits
      have called := silent_eq_ok stepped
      rw [ensured, Except.ok.injEq] at called
      exact called ▸ grown
  | peekAsString len =>
      obtain ⟨str, -, same⟩ := bind_eq_ok stepped
      cases same
      exact Nat.le_add_right _ _
  | peekAllAsString =>
      obtain ⟨str, -, same⟩ := bind_eq_ok stepped
      cases same
      exact Nat.le_add_right _ _
  | retrieve len => exact Nat.le_of_eq (congrArg List.length (retrieve_buf (silent_eq_ok stepped)))
  | retrieveAsString len =>
      obtain ⟨str, retrieved⟩ := speaking_eq_ok stepped
      exact Nat.le_of_eq (congrArg List.length (retrieveAsString_buf retrieved))
  | retrieveAll =>
      cases stepped
      exact Nat.le_refl _
  | retrieveAllAsString =>
      obtain ⟨str, retrieved⟩ := speaking_eq_ok stepped
      rw [retrieveAllAsString_eq valid] at retrieved
      cases retrieved
      exact Nat.le_refl _
  | retrieveUtil len =>
      have retrieved := silent_eq_ok stepped
      rw [retrieveUtil] at retrieved
      split_ifs at retrieved
      exact Nat.le_of_eq (congrArg List.length (retrieve_buf retrieved))
  | retrieveUtilAsString len =>
      obtain ⟨n, rfl, held⟩ := held_of_range valid range
      obtain ⟨str, retrieved⟩ := speaking_eq_ok stepped
      rw [retrieveUtilAsString_eq valid held] at retrieved
      exact Nat.le_of_eq (congrArg List.length (retrieveAsString_buf retrieved))

theorem fits_of_size {b : Buffer} {n : Nat} (valid : Valid b)
    (small : b.buf.length + n < 2 ^ 31) : b.Fits n := by
  obtain ⟨⟨front, order, inside⟩, -⟩ := valid
  simp only [Fits, kPrePendIndex_eq] at *
  omega

/-- When all the lengths asked for add up to less than `2 ^ 31`, prepended bytes
included, every call is allowed whose length is in range. -/
theorem allowed_of_total {ops : List BufferOp} (total : 8 + (ops.map BufferOp.demand).sum < 2 ^ 31)
    (ranges : Permitted step InRange construct ops) : Permitted step Allowed construct ops := by
  have within : 8 + (ops.map BufferOp.demand).sum ≤ 2 ^ 31 - 1 := by omega
  refine permitted_of_budget (Q := fun n b => Valid b ∧ b.buf.length ≤ n) ?_ ?_
    ⟨construct_valid, Nat.le_refl 8⟩ within ranges
  · rintro n b op ⟨valid, size⟩ within range
    exact ⟨range, fits_of_size valid (by omega)⟩
  · rintro n b op o t ⟨valid, size⟩ allowed stepped
    have grown := step_size valid allowed stepped
    obtain ⟨t', stepped', valid', -⟩ := simulates.answer b b.readable op ⟨valid, rfl⟩ allowed
    rw [stepped] at stepped'
    cases stepped'
    exact ⟨valid', by omega⟩

/-! ## Whole runs -/

/-- **A buffer is a FIFO queue of bytes.**  Every run of allowed calls on a fresh buffer
returns the answers of the queue and ends with the indices in order around the bytes of
the queue, which are those put in and not yet taken out.  Making room then keeps them,
and they only ever move down. -/
theorem buffer_refines_queue (ops : List BufferOp) (allowed : Permitted step Allowed construct ops) :
    ∃ b, answers step construct ops = .ok ((expected serve [] ops).1, b) ∧
      Ordered b ∧ b.readable = (expected serve [] ops).2 ∧
      gathered serve BufferOp.retrieved [] ops ++ b.readable = ops.flatMap BufferOp.appended ∧
      (∀ len, b.Fits len.toNat → ∃ b', b.ensureWritableBytes len = .ok b' ∧
        b'.readable = b.readable ∧ ∃ writable, b'.writablebytes = .ok writable ∧ len ≤ writable) ∧
      (∀ len, b.Compacts len → kPrePendIndex < b.readIndex) := by
  obtain ⟨b, ran, valid, content⟩ :=
    simulates.run ⟨construct_valid, construct_readable⟩ allowed
  refine ⟨b, ran, valid.toOrdered, content, ?_, ?_, fun len => compacts_behind⟩
  · rw [content]
    exact gathered_append_content id serve_conserves [] ops
  · intro len fits
    obtain ⟨b', ensured, valid', same, room, -⟩ := ensureWritableBytes_spec_int valid fits
    exact ⟨b', ensured, same, _, writablebytes_eq valid', by omega⟩

/-- The storage grows for the first line, is compacted for the second, and both come out. -/
theorem buffer_refines_queue_compacting :
    ∃ b, answers step construct
        [.append (ascii "hello world") 11, .retrieveAsString 6, .appendString (ascii "wide"),
          .peekAsString 3, .retrieveUtil 5, .peekAllAsString] =
        .ok ([none, some (ascii "hello "), none, some (ascii "wor"), none, some (ascii "wide")], b) ∧
      Ordered b ∧ b.readable = ascii "wide" := by
  obtain ⟨b, ran, ordered, content, -⟩ := buffer_refines_queue
    [.append (ascii "hello world") 11, .retrieveAsString 6, .appendString (ascii "wide"),
      .peekAsString 3, .retrieveUtil 5, .peekAllAsString] (by decide +kernel)
  exact ⟨b, ran, ordered, content⟩

end Buffer

end CppFileServer.Utils
