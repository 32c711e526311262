/-
# Utils.Buffer -- the growing byte buffer of a connection

`buf_` is a vector of bytes cut by two `int` indices: what is readable stands
between them, what is writable behind the second.  Index arithmetic is `int`
arithmetic, so an overflow is undefined behaviour, and so is a copy that leaves
the storage or overlaps itself forwards.

`Valid` is the invariant, `readable` what the buffer holds.  Each operation has
one theorem that says what it does to both, and when it does not return.
-/
import CppFileServer.Cpp.Basic

namespace CppFileServer.Utils

set_option autoImplicit false

open CppFileServer.Cpp

def kPrePendIndex : Int := 8

theorem kPrePendIndex_eq : kPrePendIndex = 8 := by decide

structure Buffer where
  buf : Bytes
  readIndex : Int
  writeIndex : Int

namespace Buffer

def construct : Buffer where
  buf := List.replicate 8 0
  readIndex := kPrePendIndex
  writeIndex := kPrePendIndex

def readablebytes (b : Buffer) : Result Int := checkedInt (b.writeIndex - b.readIndex)

def writablebytes (b : Buffer) : Result Int := checkedInt (toInt b.buf.length - b.writeIndex)

def prependablebytes (b : Buffer) : Int := b.readIndex

/-! ## Copies -/

/-- The bytes from `begin() + first` to `begin() + last`. -/
def slice (b : Buffer) (first last : Int) : Result Bytes :=
  if 0 ≤ first ∧ first ≤ last ∧ last ≤ b.buf.length then
    .ok ((b.buf.drop first.toNat).take (last - first).toNat)
  else .error .undefined

/-- The storage after `data` has been copied to `begin() + dest`. -/
def overwrite (buf : Bytes) (dest : Int) (data : Bytes) : Result Bytes :=
  if 0 ≤ dest ∧ dest + data.length ≤ buf.length then
    .ok (buf.take dest.toNat ++ data ++ buf.drop (dest.toNat + data.length))
  else .error .undefined

/-- `std::copy` of the readable bytes to the front, which must not start inside them. -/
def moveToFront (b : Buffer) : Result Bytes :=
  if b.readIndex ≤ kPrePendIndex ∧ kPrePendIndex < b.writeIndex then .error .undefined
  else do
    let data ← b.slice b.readIndex b.writeIndex
    overwrite b.buf kPrePendIndex data

/-- `buf_.resize(size)`, whose argument is converted to `size_t`. -/
def resize (buf : Bytes) (size : Int) : Result Bytes :=
  if size < 0 then .error .lengthError
  else .ok (buf.take size.toNat ++ List.replicate (size.toNat - buf.length) 0)

/-! ## The operations -/

def ensureWritableBytes (b : Buffer) (len : Int) : Result Buffer := do
  let writable ← b.writablebytes
  if len ≤ writable then pure b
  else
    let room ← checkedInt (writable + b.prependablebytes)
    let wanted ← checkedInt (kPrePendIndex + len)
    if wanted ≤ room then
      let buf ← b.moveToFront
      let readable ← b.readablebytes
      let writeIndex ← checkedInt (kPrePendIndex + readable)
      pure { buf := buf, readIndex := kPrePendIndex, writeIndex := writeIndex }
    else
      let size ← checkedInt (b.writeIndex + len)
      let buf ← resize b.buf size
      pure { b with buf := buf }

/-- `Append(const char *str, int size)`. -/
def append (b : Buffer) (str : Bytes) (size : Int) : Result Buffer := do
  let b ← b.ensureWritableBytes size
  if size < 0 ∨ str.length < size then .error .undefined
  else
    let buf ← overwrite b.buf b.writeIndex (str.take size.toNat)
    let writeIndex ← checkedInt (b.writeIndex + size)
    pure { b with buf := buf, writeIndex := writeIndex }

/-- `Append(const char *str)`, whose length is that of the bytes before the first NUL. -/
def appendCString (b : Buffer) (str : Bytes) : Result Buffer :=
  if 0 ∈ str then b.append str (toInt (str.takeWhile (· ≠ 0)).length) else .error .undefined

/-- `Append(const std::string &str)`. -/
def appendString (b : Buffer) (str : Bytes) : Result Buffer := b.append str (toInt str.length)

/-- The `len` bytes at `Peek()`. -/
def peek (b : Buffer) (len : Int) : Result Bytes := b.slice b.readIndex (b.readIndex + len)

def peekAsString (b : Buffer) (len : Int) : Result Bytes :=
  b.slice b.readIndex (b.readIndex + len)

def retrieveAll (b : Buffer) : Buffer :=
  { b with readIndex := kPrePendIndex, writeIndex := kPrePendIndex }

def retrieve (b : Buffer) (len : Int) : Result Buffer := do
  let readable ← b.readablebytes
  if readable < len then .error .assertion
  else
    let next ← checkedInt (len + b.readIndex)
    if next < b.writeIndex then pure { b with readIndex := next } else pure b.retrieveAll

def retrieveAsString (b : Buffer) (len : Int) : Result (Bytes × Buffer) := do
  let readable ← b.readablebytes
  if readable < len then .error .assertion
  else
    let str ← b.peekAsString len
    let b ← b.retrieve len
    pure (str, b)

/-- `RetrieveUtil(begin() + finish)`. -/
def retrieveUtil (b : Buffer) (finish : Int) : Result Buffer :=
  if finish < b.readIndex ∨ b.writeIndex < finish then .error .assertion
  else b.retrieve (toInt (finish - b.readIndex))

/-- `RetrieveUtilAsString(begin() + finish)`. -/
def retrieveUtilAsString (b : Buffer) (finish : Int) : Result (Bytes × Buffer) :=
  if finish < b.readIndex ∨ b.writeIndex < finish then .error .assertion
  else do
    let str ← b.peekAsString (toInt (finish - b.readIndex))
    let b ← b.retrieve (toInt (finish - b.readIndex))
    pure (str, b)

def peekAllAsString (b : Buffer) : Result Bytes := b.slice b.readIndex b.writeIndex

def retrieveAllAsString (b : Buffer) : Result (Bytes × Buffer) :=
  if b.writeIndex < b.readIndex then .error .assertion
  else do
    let str ← b.peekAllAsString
    pure (str, b.retrieveAll)

def isEmpty (b : Buffer) : Bool := b.readIndex == b.writeIndex

/-! ## The invariant and the content -/

/-- The indices stand in order inside the storage. -/
structure Ordered (b : Buffer) : Prop where
  front : kPrePendIndex ≤ b.readIndex
  order : b.readIndex ≤ b.writeIndex
  inside : b.writeIndex ≤ b.buf.length

/-- The storage is one whose size is an `int`. -/
structure Valid (b : Buffer) : Prop extends Ordered b where
  small : b.buf.length < 2 ^ 31

/-- The readable bytes. -/
def readable (b : Buffer) : Bytes :=
  (b.buf.drop b.readIndex.toNat).take (b.writeIndex - b.readIndex).toNat

theorem construct_valid : Valid construct := by
  refine ⟨⟨?_, ?_, ?_⟩, ?_⟩ <;> decide

@[simp] theorem construct_readable : construct.readable = [] := rfl

/-- An `Append` of `n` bytes stays within `int`: either they fit behind the write
index, or `kPrePendIndex + n` does not overflow and they fit once the readable
bytes are moved to the front or the storage is grown. -/
def Fits (b : Buffer) (n : Nat) : Prop :=
  b.writeIndex + n ≤ b.buf.length ∨
    (kPrePendIndex + n < 2 ^ 31 ∧
      (kPrePendIndex + n ≤ b.buf.length - b.writeIndex + b.readIndex ∨
        b.writeIndex + n < 2 ^ 31))

instance (b : Buffer) (n : Nat) : Decidable (b.Fits n) := by
  unfold Fits
  infer_instance

theorem Ordered.readable_length {b : Buffer} (ordered : Ordered b) :
    (b.readable.length : Int) = b.writeIndex - b.readIndex := by
  obtain ⟨front, order, inside⟩ := ordered
  simp only [readable, List.length_take, List.length_drop, kPrePendIndex_eq] at *
  omega

theorem overwrite_length {buf data buf' : Bytes} {dest : Int}
    (written : overwrite buf dest data = .ok buf') : buf'.length = buf.length := by
  rw [overwrite] at written
  split_ifs at written with inside
  cases written
  rw [List.length_append, List.length_append, List.length_take, List.length_drop]
  omega

section Specifications

variable {b : Buffer} (valid : Valid b)

include valid

theorem readablebytes_eq : b.readablebytes = .ok (b.writeIndex - b.readIndex) := by
  obtain ⟨⟨front, order, inside⟩, small⟩ := valid
  simp only [kPrePendIndex_eq] at front
  exact checkedInt_of_fits (by omega) (by omega)

theorem writablebytes_eq : b.writablebytes = .ok (b.buf.length - b.writeIndex) := by
  obtain ⟨⟨front, order, inside⟩, small⟩ := valid
  simp only [kPrePendIndex_eq] at front
  rw [writablebytes, toInt_of_fits (by omega) (by omega)]
  exact checkedInt_of_fits (by omega) (by omega)

/-- The bytes that are writable once the readable ones have moved to the front. -/
theorem room_eq : checkedInt (b.buf.length - b.writeIndex + b.readIndex) =
    .ok (b.buf.length - b.writeIndex + b.readIndex) := by
  obtain ⟨⟨front, order, inside⟩, small⟩ := valid
  simp only [kPrePendIndex_eq] at front
  exact checkedInt_of_fits (by omega) (by omega)

theorem isEmpty_iff : b.isEmpty = true ↔ b.readable = [] := by
  have length := valid.readable_length
  rw [isEmpty, beq_iff_eq, ← List.length_eq_zero_iff]
  omega

theorem peekAllAsString_eq : b.peekAllAsString = .ok b.readable := by
  obtain ⟨⟨front, order, inside⟩, small⟩ := valid
  simp only [kPrePendIndex_eq] at front
  rw [peekAllAsString, slice, if_pos ⟨by omega, order, inside⟩]
  rfl

theorem peek_eq {n : Nat} (held : n ≤ b.readable.length) :
    b.peek n = .ok (b.readable.take n) := by
  have length := valid.readable_length
  obtain ⟨⟨front, order, inside⟩, small⟩ := valid
  simp only [kPrePendIndex_eq] at front
  rw [peek, slice, if_pos ⟨by omega, by omega, by omega⟩, readable, List.take_take]
  congr 2
  omega

theorem retrieveAll_valid : Valid b.retrieveAll ∧ b.retrieveAll.readable = [] := by
  obtain ⟨⟨front, order, inside⟩, small⟩ := valid
  refine ⟨⟨⟨Int.le_refl _, Int.le_refl _, ?_⟩, small⟩, by simp [retrieveAll, readable]⟩
  show kPrePendIndex ≤ b.buf.length
  omega

theorem retrieveAllAsString_eq : b.retrieveAllAsString = .ok (b.readable, b.retrieveAll) := by
  rw [retrieveAllAsString, if_neg (by have := valid.order; omega), peekAllAsString_eq valid]
  rfl

/-- `Retrieve` of at most what is readable drops it. -/
theorem retrieve_spec {n : Nat} (held : n ≤ b.readable.length) :
    ∃ b', b.retrieve n = .ok b' ∧ Valid b' ∧ b'.readable = b.readable.drop n := by
  have length := valid.readable_length
  have all := retrieveAll_valid valid
  obtain ⟨⟨front, order, inside⟩, small⟩ := id valid
  simp only [kPrePendIndex_eq] at front
  rw [retrieve, readablebytes_eq valid]
  simp only [ok_bind]
  rw [if_neg (by omega), checkedInt_of_fits (by omega) (by omega)]
  simp only [ok_bind, pure_eq_ok]
  split_ifs with within
  · refine ⟨_, rfl, ⟨⟨by simp only [kPrePendIndex_eq]; omega, by simp only; omega, inside⟩, small⟩, ?_⟩
    simp only [readable, List.drop_take, List.drop_drop]
    congr 2 <;> omega
  · refine ⟨_, rfl, all.1, ?_⟩
    rw [all.2, List.drop_eq_nil_of_le (by omega)]

/-- `Retrieve(-1)` moves the read index backwards. -/
theorem retrieve_minus_one :
    b.retrieve (-1) = .ok { b with readIndex := b.readIndex - 1 } := by
  obtain ⟨⟨front, order, inside⟩, small⟩ := id valid
  simp only [kPrePendIndex_eq] at front
  rw [retrieve, readablebytes_eq valid]
  simp only [ok_bind]
  rw [if_neg (by omega), checkedInt_of_fits (by omega) (by omega)]
  simp only [ok_bind]
  rw [if_pos (by omega), pure_eq_ok]
  congr 2
  omega

theorem retrieveAsString_spec {n : Nat} (held : n ≤ b.readable.length) :
    ∃ b', b.retrieveAsString n = .ok (b.readable.take n, b') ∧ Valid b' ∧
      b'.readable = b.readable.drop n := by
  obtain ⟨b', retrieved, valid', content⟩ := retrieve_spec valid held
  refine ⟨b', ?_, valid', content⟩
  have peeked : b.peekAsString n = .ok (b.readable.take n) := peek_eq valid held
  rw [retrieveAsString, readablebytes_eq valid]
  simp only [ok_bind]
  rw [if_neg (by have := valid.readable_length; omega), peeked]
  simp only [ok_bind]
  rw [retrieved]
  rfl

/-- A pointer into the readable bytes stands for the number of bytes before it. -/
theorem retrieveUtil_eq {n : Nat} (held : n ≤ b.readable.length) :
    b.retrieveUtil (b.readIndex + n) = b.retrieve n := by
  have length := valid.readable_length
  obtain ⟨⟨front, order, inside⟩, small⟩ := id valid
  simp only [kPrePendIndex_eq] at front
  have offset : b.readIndex + n - b.readIndex = n := by omega
  rw [retrieveUtil, if_neg (by omega), offset, toInt_of_fits (by omega) (by omega)]

theorem retrieveUtilAsString_eq {n : Nat} (held : n ≤ b.readable.length) :
    b.retrieveUtilAsString (b.readIndex + n) = b.retrieveAsString n := by
  have length := valid.readable_length
  obtain ⟨⟨front, order, inside⟩, small⟩ := id valid
  simp only [kPrePendIndex_eq] at front
  have offset : b.readIndex + n - b.readIndex = n := by omega
  rw [retrieveUtilAsString, if_neg (by omega), offset, toInt_of_fits (by omega) (by omega),
    retrieveAsString, readablebytes_eq valid]
  simp only [ok_bind]
  rw [if_neg (by omega)]

theorem moveToFront_eq (behind : 8 < b.readIndex) :
    b.moveToFront = .ok (b.buf.take 8 ++ b.readable ++ b.buf.drop (8 + b.readable.length)) := by
  have length := valid.readable_length
  have peeked := peekAllAsString_eq valid
  obtain ⟨⟨front, order, inside⟩, small⟩ := id valid
  rw [peekAllAsString] at peeked
  simp only [moveToFront, kPrePendIndex_eq]
  rw [if_neg (by omega), peeked]
  simp only [ok_bind]
  rw [overwrite, if_pos (by omega)]
  rfl

/-- The content at the front of the storage. -/
theorem moved_spec {b' : Buffer} {n : Nat} (behind : 8 < b.readIndex)
    (room : 8 + (n : Int) ≤ b.buf.length - b.writeIndex + b.readIndex)
    (moved : b'.buf = b.buf.take 8 ++ b.readable ++ b.buf.drop (8 + b.readable.length))
    (reads : b'.readIndex = 8) (writes : b'.writeIndex = 8 + (b.writeIndex - b.readIndex)) :
    Valid b' ∧ b'.readable = b.readable ∧ b'.writeIndex + n ≤ b'.buf.length ∧
      b'.buf.length ≤ b.buf.length + n := by
  have length := valid.readable_length
  obtain ⟨⟨front, order, inside⟩, small⟩ := id valid
  have eight : (b.buf.take 8).length = 8 := by
    rw [List.length_take]
    omega
  have sameSize : b'.buf.length = b.buf.length := by
    rw [moved, List.length_append, List.length_append, eight, List.length_drop]
    omega
  refine ⟨⟨⟨?_, ?_, ?_⟩, ?_⟩, ?_, by omega, by omega⟩
  · rw [reads]
    exact Int.le_refl _
  · omega
  · omega
  · rw [sameSize]
    exact small
  · rw [readable, moved, reads, show Int.toNat 8 = 8 from rfl, List.append_assoc,
      List.drop_left' eight]
    exact List.take_left' (by omega)

/-- The storage with bytes added at its end. -/
theorem grown_spec {b' : Buffer} {n : Nat} (short : b.buf.length < b.writeIndex + n)
    (small : b.writeIndex + n < 2 ^ 31)
    (grown : b'.buf = b.buf ++ List.replicate ((b.writeIndex + n).toNat - b.buf.length) 0)
    (reads : b'.readIndex = b.readIndex) (writes : b'.writeIndex = b.writeIndex) :
    Valid b' ∧ b'.readable = b.readable ∧ b'.writeIndex + n ≤ b'.buf.length ∧
      b'.buf.length ≤ b.buf.length + n := by
  obtain ⟨⟨front, order, inside⟩, -⟩ := id valid
  simp only [kPrePendIndex_eq] at front
  have size : (b'.buf.length : Int) = b.writeIndex + n := by
    rw [grown, List.length_append, List.length_replicate]
    omega
  refine ⟨⟨⟨reads ▸ front, by omega, by omega⟩, by omega⟩, ?_, by omega, by omega⟩
  rw [readable, readable, grown, reads, writes, List.drop_append_of_le_length (by omega),
    List.take_append_of_le_length (by rw [List.length_drop]; omega)]

/-- `EnsureWritableBytes` makes room and keeps the content. -/
theorem ensureWritableBytes_spec {n : Nat} (fits : b.Fits n) :
    ∃ b', b.ensureWritableBytes n = .ok b' ∧ Valid b' ∧ b'.readable = b.readable ∧
      b'.writeIndex + n ≤ b'.buf.length ∧ b'.buf.length ≤ b.buf.length + n := by
  obtain ⟨⟨front, order, inside⟩, small⟩ := id valid
  simp only [Fits, kPrePendIndex_eq] at front fits
  simp only [ensureWritableBytes, writablebytes_eq valid, ok_bind, pure_eq_ok, prependablebytes,
    kPrePendIndex_eq]
  by_cases enough : (n : Int) ≤ b.buf.length - b.writeIndex
  · rw [if_pos enough]
    exact ⟨b, rfl, valid, rfl, by omega, by omega⟩
  obtain ⟨wide, room⟩ := fits.resolve_left (fun behind => enough (by omega))
  rw [if_neg enough, room_eq valid]
  simp only [ok_bind]
  rw [checkedInt_of_fits (by omega) wide]
  simp only [ok_bind]
  split_ifs with moves
  · rw [moveToFront_eq valid (by omega), readablebytes_eq valid]
    simp only [ok_bind]
    rw [checkedInt_of_fits (by omega) (by omega)]
    simp only [ok_bind]
    exact ⟨_, rfl, moved_spec valid (by omega) moves rfl rfl rfl⟩
  · have grows := room.resolve_left moves
    rw [checkedInt_of_fits (by omega) grows]
    simp only [ok_bind]
    rw [resize, if_neg (by omega)]
    simp only [ok_bind]
    rw [List.take_of_length_le (by omega)]
    exact ⟨_, rfl, grown_spec valid (by omega) grows rfl rfl rfl⟩

theorem ensureWritableBytes_unfit {n : Nat} (unfit : ¬ b.Fits n) :
    b.ensureWritableBytes n = .error .undefined := by
  obtain ⟨⟨front, order, inside⟩, small⟩ := id valid
  simp only [Fits, kPrePendIndex_eq, not_or, not_and] at front unfit
  obtain ⟨behind, unmoved⟩ := unfit
  simp only [ensureWritableBytes, writablebytes_eq valid, ok_bind, prependablebytes,
    kPrePendIndex_eq]
  rw [if_neg (by omega), room_eq valid]
  simp only [ok_bind]
  by_cases wide : (8 : Int) + n < 2 ^ 31
  · obtain ⟨moved, grown⟩ := unmoved wide
    rw [checkedInt_of_fits (by omega) wide]
    simp only [ok_bind]
    rw [if_neg (by omega), checkedInt_of_overflow (by omega), error_bind]
  · rw [checkedInt_of_overflow (by omega), error_bind]

omit valid in
/-- With room behind the write index, the bytes go there. -/
theorem append_of_room {b₁ : Buffer} {str : Bytes} {n : Nat}
    (ensured : b.ensureWritableBytes n = .ok b₁) (natural : 0 ≤ b₁.readIndex)
    (order : b₁.readIndex ≤ b₁.writeIndex) (room : b₁.writeIndex + n ≤ b₁.buf.length)
    (small : b₁.buf.length < 2 ^ 31) (within : n ≤ str.length) :
    ∃ b', b.append str n = .ok b' ∧ b'.readIndex = b₁.readIndex ∧
      b'.writeIndex = b₁.writeIndex + n ∧ b'.buf.length = b₁.buf.length ∧
      b'.readable = b₁.readable ++ str.take n := by
  have taken : ((n : Int).toNat) = n := Int.toNat_natCast n
  have dataLength : (str.take n).length = n := List.length_take_of_le within
  rw [append, ensured]
  simp only [ok_bind]
  rw [if_neg (by omega), taken, overwrite, if_pos (by rw [dataLength]; omega)]
  simp only [ok_bind]
  rw [checkedInt_of_fits (by omega) (by omega)]
  simp only [ok_bind, pure_eq_ok]
  have upTo : (b₁.buf.take b₁.writeIndex.toNat).length = b₁.writeIndex.toNat := by
    rw [List.length_take]
    omega
  have sameSize : (b₁.buf.take b₁.writeIndex.toNat ++ str.take n ++
      b₁.buf.drop (b₁.writeIndex.toNat + (str.take n).length)).length = b₁.buf.length := by
    rw [List.length_append, List.length_append, upTo, List.length_drop, dataLength]
    omega
  refine ⟨_, rfl, rfl, rfl, sameSize, ?_⟩
  have before : (b₁.buf.take b₁.writeIndex.toNat).drop b₁.readIndex.toNat = b₁.readable := by
    rw [List.drop_take, readable,
      show b₁.writeIndex.toNat - b₁.readIndex.toNat = (b₁.writeIndex - b₁.readIndex).toNat
        by omega]
  have length : (b₁.readable ++ str.take n).length =
      (b₁.writeIndex + n - b₁.readIndex).toNat := by
    rw [List.length_append, dataLength, ← before, List.length_drop, upTo]
    omega
  rw [readable]
  simp only
  rw [List.append_assoc, List.drop_append_of_le_length (by omega), before, ← List.append_assoc]
  exact List.take_left' length

/-- `Append` puts the bytes behind the readable ones. -/
theorem append_spec {str : Bytes} {n : Nat} (within : n ≤ str.length) (fits : b.Fits n) :
    ∃ b', b.append str n = .ok b' ∧ Valid b' ∧ b'.readable = b.readable ++ str.take n := by
  obtain ⟨b₁, ensured, valid₁, same, room, -⟩ := ensureWritableBytes_spec valid fits
  obtain ⟨⟨front, order, inside⟩, small⟩ := id valid₁
  have natural : 0 ≤ b₁.readIndex := by
    rw [kPrePendIndex_eq] at front
    omega
  obtain ⟨b', appended, r, w, size, content⟩ :=
    append_of_room ensured natural order room small within
  refine ⟨b', appended, ⟨⟨by omega, by omega, by omega⟩, by omega⟩, by rw [content, same]⟩

/-- The storage grows by at most what is appended. -/
theorem append_size {str : Bytes} {n : Nat} {b' : Buffer} (fits : b.Fits n)
    (appended : b.append str n = .ok b') : b'.buf.length ≤ b.buf.length + n := by
  obtain ⟨b₁, ensured, -, -, -, grown⟩ := ensureWritableBytes_spec valid fits
  rw [append, ensured] at appended
  simp only [ok_bind] at appended
  split_ifs at appended with short
  obtain ⟨buf, written, appended⟩ := bind_eq_ok appended
  obtain ⟨writeIndex, -, appended⟩ := bind_eq_ok appended
  rw [pure_eq_ok, Except.ok.injEq] at appended
  subst appended
  rwa [overwrite_length written]

/-- Where the indices stand when room has been made: the room was there, or the readable
bytes have moved to the front, or the storage has grown. -/
theorem ensureWritableBytes_layout {n : Nat} {b' : Buffer} (fits : b.Fits n)
    (ensured : b.ensureWritableBytes n = .ok b') :
    (b.writeIndex + n ≤ b.buf.length ∧ b' = b) ∨
    (b'.readIndex = kPrePendIndex ∧ b'.writeIndex = kPrePendIndex + (b.writeIndex - b.readIndex) ∧
      b'.buf.length = b.buf.length) ∨
    (b.buf.length - b.writeIndex + b.readIndex < kPrePendIndex + n ∧
      b'.readIndex = b.readIndex ∧ b'.writeIndex = b.writeIndex ∧ b.writeIndex + n < 2 ^ 31) := by
  obtain ⟨⟨front, order, inside⟩, small⟩ := id valid
  simp only [Fits, kPrePendIndex_eq] at front fits
  simp only [ensureWritableBytes, writablebytes_eq valid, ok_bind, pure_eq_ok, prependablebytes,
    kPrePendIndex_eq] at ensured ⊢
  by_cases enough : (n : Int) ≤ b.buf.length - b.writeIndex
  · rw [if_pos enough] at ensured
    cases ensured
    exact Or.inl ⟨by omega, rfl⟩
  obtain ⟨wide, room⟩ := fits.resolve_left (fun behind => enough (by omega))
  rw [if_neg enough, room_eq valid, ok_bind, checkedInt_of_fits (by omega) wide, ok_bind] at ensured
  split_ifs at ensured with moves
  · rw [moveToFront_eq valid (by omega), readablebytes_eq valid, ok_bind, ok_bind,
      checkedInt_of_fits (by omega) (by omega), ok_bind] at ensured
    cases ensured
    refine Or.inr (Or.inl ⟨rfl, rfl, ?_⟩)
    have length := valid.readable_length
    simp only [List.length_append, List.length_take, List.length_drop]
    omega
  · have grows := room.resolve_left moves
    obtain ⟨size, -, ensured⟩ := bind_eq_ok ensured
    obtain ⟨buf, -, ensured⟩ := bind_eq_ok ensured
    cases ensured
    exact Or.inr (Or.inr ⟨by omega, rfl, rfl, grows⟩)

/-- After an `Append` there is the room that was asked for beyond it. -/
theorem Fits.append {str : Bytes} {m n : Nat} {b' : Buffer} (fits : b.Fits (m + n))
    (appended : b.append str m = .ok b') : b'.Fits n := by
  have first : b.Fits m := by
    simp only [Fits] at fits ⊢
    omega
  obtain ⟨b₁, ensured, valid₁, -, room, -⟩ := ensureWritableBytes_spec valid first
  have layout := ensureWritableBytes_layout valid first ensured
  obtain ⟨⟨front, order, inside⟩, small⟩ := id valid
  rw [Buffer.append, ensured, ok_bind] at appended
  split_ifs at appended with short
  obtain ⟨buf, written, appended⟩ := bind_eq_ok appended
  obtain ⟨writeIndex, checked, appended⟩ := bind_eq_ok appended
  obtain ⟨-, rfl⟩ := checkedInt_eq_ok.mp checked
  have length := overwrite_length written
  cases appended
  simp only [Fits, kPrePendIndex_eq, length] at *
  rcases layout with ⟨behind, rfl⟩ | ⟨r, w, sameSize⟩ | ⟨tight, r, w, grows⟩ <;> omega

theorem append_unfit {str : Bytes} {n : Nat} (unfit : ¬ b.Fits n) :
    b.append str n = .error .undefined := by
  rw [append, ensureWritableBytes_unfit valid unfit, error_bind]

theorem append_negative {str : Bytes} {size : Int} (negative : size < 0) :
    b.append str size = .error .undefined := by
  obtain ⟨⟨front, order, inside⟩, small⟩ := id valid
  rw [append, ensureWritableBytes, writablebytes_eq valid]
  simp only [ok_bind]
  rw [if_pos (by omega)]
  simp only [pure_eq_ok, ok_bind]
  rw [if_pos (Or.inl negative)]

/-- An `Append` of all bytes that returns has put them there. -/
theorem append_eq_ok {str : Bytes} {b' : Buffer} (appended : b.append str str.length = .ok b') :
    Valid b' ∧ b'.readable = b.readable ++ str := by
  by_cases fits : b.Fits str.length
  · obtain ⟨b₁, appended₁, valid₁, content⟩ := append_spec valid (le_refl str.length) fits
    rw [appended₁, Except.ok.injEq] at appended
    subst appended
    exact ⟨valid₁, by rw [content, List.take_length]⟩
  · rw [append_unfit valid fits] at appended
    cases appended

/-- An `Append` that returns has put the bytes there that its `int` size counts. -/
theorem appendString_eq_ok {str : Bytes} {b' : Buffer} (appended : b.appendString str = .ok b') :
    Valid b' ∧ ∃ n : Nat, (n : Int) = toInt str.length ∧ n ≤ str.length ∧ b.Fits n ∧
      b'.readable = b.readable ++ str.take n := by
  rcases Int.lt_or_le (toInt str.length) 0 with negative | nonnegative
  · rw [appendString, append_negative valid negative] at appended
    cases appended
  · obtain ⟨n, size⟩ := Int.eq_ofNat_of_zero_le nonnegative
    have bound : (n : Int) < 2 ^ 31 := size ▸ toInt_lt _
    have within : n ≤ str.length := by
      rcases Nat.lt_or_ge str.length (2 ^ 31) with short | long
      · rw [toInt_of_fits (by omega) (by omega)] at size
        omega
      · omega
    by_cases fits : b.Fits n
    · obtain ⟨b₁, appended₁, valid₁, content⟩ := append_spec valid within fits
      rw [appendString, size, appended₁, Except.ok.injEq] at appended
      subst appended
      exact ⟨valid₁, n, size.symm, within, fits, content⟩
    · rw [appendString, size, append_unfit valid fits] at appended
      cases appended

theorem appendString_spec {str : Bytes} (short : str.length < 2 ^ 31)
    (fits : b.Fits str.length) :
    ∃ b', b.appendString str = .ok b' ∧ Valid b' ∧ b'.readable = b.readable ++ str := by
  obtain ⟨b', appended, valid', content⟩ := append_spec valid (le_refl str.length) fits
  refine ⟨b', ?_, valid', by rw [content, List.take_length]⟩
  rw [appendString, toInt_of_fits (by omega) (by omega), appended]

end Specifications

end Buffer

end CppFileServer.Utils
