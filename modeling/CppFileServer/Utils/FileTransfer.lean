/-
# Utils.FileTransfer -- files through a Buffer

A stream gives its unread bytes in blocks, and fails when a block is short.
`Append(std::istream &)` takes blocks until the stream has failed, so that a file whose
size is a multiple of the block ends with a block of no bytes; `Append(std::istream &,
size_t)` takes no more than it is asked for.  Both add each block to a `Buffer`, which
moves or grows on the way, and what they leave is the content followed by what was
read (`appendStream_spec`, `appendSized_spec`).
-/
import CppFileServer.Theory.Loop
import CppFileServer.Utils.Buffer
import CppFileServer.Utils.Disk

namespace CppFileServer.Utils

set_option autoImplicit false

open CppFileServer.Cpp CppFileServer.Theory

/-! ## Streams -/

/-- An `std::istream`. -/
structure InputStream where
  /-- The bytes that are not yet read. -/
  rest : Bytes
  failed : Bool := false

namespace InputStream

/-- `read(_, count)`: the `gcount()` bytes it delivers, and the stream after it. -/
def read (input : InputStream) (count : Nat) : Bytes × InputStream :=
  if input.failed then ([], input)
  else (input.rest.take count,
    { rest := input.rest.drop count, failed := decide (input.rest.length < count) })

end InputStream

def blockSize : Nat := 4096

namespace Buffer

/-- One turn of `Append(std::istream &)`. -/
def streamTurn (s : Buffer × InputStream) :
    Result (Turn (Buffer × InputStream) (Buffer × InputStream)) :=
  if s.2.failed then pure (.done s)
  else do
    let (block, input) := s.2.read blockSize
    let b ← s.1.append block block.length
    pure (.again (b, input))

/-- `Append(std::istream &)`. -/
def appendStream (b : Buffer) (input : InputStream) : Result (Buffer × InputStream) :=
  loop streamTurn .fuel (input.rest.length + 2) (b, input)

/-- One turn of `Append(std::istream &, size_t)`, with what is left of the size. -/
def sizedTurn (s : (Buffer × InputStream) × Nat) :
    Result (Turn ((Buffer × InputStream) × Nat) (Buffer × InputStream)) :=
  if s.1.2.failed ∨ s.2 = 0 then pure (.done s.1)
  else do
    let count := min s.2 blockSize
    let (block, input) := s.1.2.read count
    let b ← s.1.1.append block block.length
    pure (.again ((b, input), s.2 - count))

/-- `Append(std::istream &, size_t)`. -/
def appendSized (b : Buffer) (input : InputStream) (size : Nat) :
    Result (Buffer × InputStream) :=
  loop sizedTurn .fuel (size + 1) ((b, input), size)

end Buffer

/-! ## The functions of FileHandler -/

namespace FileSystem

variable (fs : FileSystem)

/-- `readFileBinary(const std::string &, Buffer *)`. -/
def readFileBinaryInto (path : Bytes) (out : Buffer) : FileResult Buffer := do
  let (content, size) ← fs.openFile path
  let out ← liftFault (out.ensureWritableBytes (toInt size))
  let (out, _) ← liftFault (out.appendSized { rest := content } size)
  pure out

/-- `readFileText(const std::string &, Buffer *)`. -/
def readFileTextInto (path : Bytes) (out : Buffer) : FileResult Buffer := do
  let (content, _) ← fs.openFile path
  let (out, _) ← liftFault (out.appendStream { rest := content })
  pure out

/-- `writeFileBinary(const std::string &, Buffer *, int)`, and the buffer after it. -/
def writeFileBinaryFrom (path : Bytes) (data : Buffer) (size : Int) :
    FileResult Change × Buffer :=
  if fs.creatable path then
    match data.retrieveAsString size with
    | .ok (str, rest) => (.ok (.wrote path (str.take size.toNat)), rest)
    | .error fault => (.error (.fault fault), data)
  else (.error (.runtimeError (ascii "Failed to open file: " ++ path)), data)

end FileSystem

/-! ## What the loops add -/

namespace Buffer

/-- A block of the stream goes behind the content and leaves the room for what follows. -/
theorem append_block {b : Buffer} {rest : Bytes} {count n : Nat} (valid : b.Valid)
    (fits : b.Fits (min count rest.length + n)) :
    ∃ b', b.append (rest.take count) (rest.take count).length = .ok b' ∧ b'.Valid ∧
      b'.readable = b.readable ++ rest.take count ∧ b'.Fits n := by
  rw [List.length_take]
  have first : b.Fits (min count rest.length) := by
    simp only [Fits] at fits ⊢
    omega
  have length : (rest.take count).length = min count rest.length := List.length_take
  obtain ⟨b', appended, valid', content⟩ := append_spec valid (Nat.le_of_eq length.symm) first
  refine ⟨b', appended, valid', ?_, Fits.append valid fits appended⟩
  rw [content, ← length, List.take_length]

/-- **`Append(std::istream &)`** adds all that is unread and ends with a failed stream. -/
theorem appendStream_loop {fuel : Nat} {b : Buffer} {rest : Bytes} (valid : b.Valid)
    (fits : b.Fits rest.length) (enough : rest.length + 1 < fuel) :
    ∃ b', loop streamTurn .fuel fuel (b, { rest := rest }) = .ok (b', ⟨[], true⟩) ∧ b'.Valid ∧
      b'.readable = b.readable ++ rest := by
  induction fuel generalizing b rest with
  | zero => exact absurd enough (Nat.not_lt_zero _)
  | succ fuel ih =>
      have split : min blockSize rest.length + (rest.drop blockSize).length = rest.length := by
        rw [List.length_drop]
        omega
      obtain ⟨b', appended, valid', content, fits'⟩ := append_block valid (split ▸ fits)
      have turned : streamTurn (b, { rest := rest }) = .ok (.again (b',
          { rest := rest.drop blockSize, failed := decide (rest.length < blockSize) })) := by
        show (b.append (rest.take blockSize) (rest.take blockSize).length >>= _) = _
        rw [appended]
        rfl
      rw [loop, turned]
      by_cases short : rest.length < blockSize
      · -- The short block was the last one: the stream has failed.
        have all : rest.take blockSize = rest := List.take_of_length_le (Nat.le_of_lt short)
        have ended : rest.drop blockSize = [] := List.drop_eq_nil_of_le (Nat.le_of_lt short)
        obtain ⟨fuel, rfl⟩ : ∃ more, fuel = more + 1 := ⟨fuel - 1, by omega⟩
        rw [ended, decide_eq_true short]
        exact ⟨b', rfl, valid', by rw [content, all]⟩
      · rw [decide_eq_false short]
        have size : blockSize = 4096 := rfl
        obtain ⟨b'', looped, valid'', final⟩ := ih valid' fits' (by rw [List.length_drop]; omega)
        refine ⟨b'', looped, valid'', ?_⟩
        rw [final, content, List.append_assoc, List.take_append_drop]

/-- **`Append(std::istream &, size_t)`** adds as many of the unread bytes as it is asked for
and there are. -/
theorem appendSized_loop {fuel size : Nat} {b : Buffer} {rest : Bytes} (valid : b.Valid)
    (fits : b.Fits (min size rest.length)) (enough : size < fuel) :
    ∃ b', loop sizedTurn .fuel fuel ((b, { rest := rest }), size) =
        .ok (b', { rest := rest.drop size, failed := decide (rest.length < size) }) ∧ b'.Valid ∧
      b'.readable = b.readable ++ rest.take size := by
  induction fuel generalizing b rest size with
  | zero => exact absurd enough (Nat.not_lt_zero _)
  | succ fuel ih =>
      by_cases finished : size = 0
      · subst finished
        refine ⟨b, ?_, valid, by rw [List.take_zero, List.append_nil]⟩
        rw [decide_eq_false (Nat.not_lt_zero _)]
        rfl
      have block : blockSize = 4096 := rfl
      obtain ⟨count, counted⟩ : ∃ count, count = min size blockSize := ⟨_, rfl⟩
      have atMost : count ≤ size := by omega
      have split : min count rest.length + min (size - count) (rest.drop count).length =
          min size rest.length := by
        rw [List.length_drop]
        omega
      obtain ⟨b', appended, valid', content, fits'⟩ := append_block valid (split ▸ fits)
      have turned : sizedTurn ((b, { rest := rest }), size) = .ok (.again ((b',
          { rest := rest.drop count, failed := decide (rest.length < count) }), size - count)) := by
        have goesOn : ¬ (false = true ∨ size = 0) := by
          rintro (impossible | ended)
          · cases impossible
          · exact finished ended
        rw [sizedTurn, if_neg goesOn]
        rw [← counted]
        show (b.append (rest.take count) (rest.take count).length >>= _) = _
        rw [appended]
        rfl
      rw [loop, turned]
      by_cases short : rest.length < count
      · have all : rest.take count = rest := List.take_of_length_le (Nat.le_of_lt short)
        have ended : rest.drop count = [] := List.drop_eq_nil_of_le (Nat.le_of_lt short)
        have shorter : rest.length < size := by omega
        have allOfSize : rest.take size = rest := List.take_of_length_le (Nat.le_of_lt shorter)
        have noneOfSize : rest.drop size = [] := List.drop_eq_nil_of_le (Nat.le_of_lt shorter)
        obtain ⟨fuel, rfl⟩ : ∃ more, fuel = more + 1 := ⟨fuel - 1, by omega⟩
        rw [ended, noneOfSize, decide_eq_true short, decide_eq_true shorter]
        exact ⟨b', rfl, valid', by rw [content, all, allOfSize]⟩
      · rw [decide_eq_false short]
        obtain ⟨b'', looped, valid'', final⟩ := ih valid' fits' (by omega)
        have later : (rest.drop count).length < size - count ↔ rest.length < size := by
          rw [List.length_drop]
          omega
        rw [List.drop_drop, Nat.add_sub_cancel' atMost, decide_eq_decide.mpr later] at looped
        refine ⟨b'', looped, valid'', ?_⟩
        rw [final, content, List.append_assoc, ← List.take_add, Nat.add_sub_cancel' atMost]

theorem appendStream_spec {b : Buffer} {rest : Bytes} (valid : b.Valid)
    (fits : b.Fits rest.length) :
    ∃ b', b.appendStream { rest := rest } = .ok (b', ⟨[], true⟩) ∧ b'.Valid ∧
      b'.readable = b.readable ++ rest :=
  appendStream_loop valid fits (Nat.lt_succ_self _)

theorem appendSized_spec {b : Buffer} {rest : Bytes} {size : Nat} (valid : b.Valid)
    (fits : b.Fits (min size rest.length)) :
    ∃ b', b.appendSized { rest := rest } size =
        .ok (b', { rest := rest.drop size, failed := decide (rest.length < size) }) ∧ b'.Valid ∧
      b'.readable = b.readable ++ rest.take size :=
  appendSized_loop valid fits (Nat.lt_succ_self _)

theorem Fits.small {b : Buffer} {n : Nat} (valid : b.Valid) (fits : b.Fits n) : n < 2 ^ 31 := by
  obtain ⟨⟨front, order, inside⟩, small⟩ := valid
  simp only [Fits, kPrePendIndex_eq] at *
  omega

/-- Room that has been made is there. -/
theorem fits_of_ensured {b b' : Buffer} {n : Nat} (valid : b.Valid) (fits : b.Fits n)
    (ensured : b.ensureWritableBytes n = .ok b') :
    b'.Valid ∧ b'.readable = b.readable ∧ b'.Fits n := by
  obtain ⟨b₁, ensured₁, valid₁, same, room, -⟩ := ensureWritableBytes_spec valid fits
  rw [ensured] at ensured₁
  cases ensured₁
  exact ⟨valid₁, same, Or.inl room⟩

end Buffer

/-! ## What the functions leave -/

namespace FileSystem

variable {fs : FileSystem} {path : Bytes} {content : FileContent} {b : Buffer}

theorem readFileBinaryInto_spec (holds : fs.Holds path content) (valid : b.Valid)
    (fits : b.Fits content.bytes.length) :
    ∃ b', fs.readFileBinaryInto path b = .ok b' ∧ b'.Valid ∧
      b'.readable = b.readable ++ content.bytes := by
  have small := Buffer.Fits.small valid fits
  obtain ⟨b₁, ensured, -⟩ := Buffer.ensureWritableBytes_spec valid fits
  obtain ⟨valid₁, same, fits₁⟩ := Buffer.fits_of_ensured valid fits ensured
  have sized : b₁.Fits (min content.bytes.length content.bytes.length) := by rwa [Nat.min_self]
  obtain ⟨b', appended, valid', read⟩ := Buffer.appendSized_spec valid₁ sized
  refine ⟨b', ?_, valid', by rw [read, same, List.take_length]⟩
  rw [readFileBinaryInto, openFile_of_holds holds, FileResult.ok_bind]
  show (liftFault (b.ensureWritableBytes (toInt content.bytes.length)) >>= _) = _
  rw [toInt_of_fits (by omega) (by omega), ensured]
  show (liftFault (b₁.appendSized { rest := content.bytes } content.bytes.length) >>= _) = _
  rw [appended]
  rfl

theorem readFileTextInto_spec (holds : fs.Holds path content) (valid : b.Valid)
    (fits : b.Fits content.bytes.length) :
    ∃ b', fs.readFileTextInto path b = .ok b' ∧ b'.Valid ∧
      b'.readable = b.readable ++ content.bytes := by
  obtain ⟨b', appended, valid', read⟩ := Buffer.appendStream_spec valid fits
  refine ⟨b', ?_, valid', read⟩
  rw [readFileTextInto, openFile_of_holds holds, FileResult.ok_bind]
  show (liftFault (b.appendStream { rest := content.bytes }) >>= _) = _
  rw [appended]
  rfl

theorem writeFileBinaryFrom_spec (opens : fs.creatable path = true) (valid : b.Valid) {n : Nat}
    (held : n ≤ b.readable.length) :
    ∃ b', fs.writeFileBinaryFrom path b n = (.ok (.wrote path (b.readable.take n)), b') ∧
      b'.Valid ∧ b'.readable = b.readable.drop n := by
  obtain ⟨b', retrieved, valid', rest⟩ := Buffer.retrieveAsString_spec valid held
  refine ⟨b', ?_, valid', rest⟩
  simp only [writeFileBinaryFrom, if_pos opens, retrieved]
  rw [Int.toNat_natCast, List.take_take, Nat.min_self]

/-- A file that cannot be opened takes nothing from the buffer. -/
theorem writeFileBinaryFrom_throws (closed : fs.creatable path = false) (size : Int) :
    fs.writeFileBinaryFrom path b size =
      (.error (.runtimeError (ascii "Failed to open file: " ++ path)), b) := by
  rw [writeFileBinaryFrom, if_neg (by rw [closed]; exact Bool.false_ne_true)]

end FileSystem

namespace Buffer

variable {b : Buffer}

/-- What a buffer holds fits into an empty one. -/
theorem construct_fits (valid : b.Valid) {n : Nat} (held : n ≤ b.readable.length) :
    construct.Fits n := by
  have length := valid.readable_length
  obtain ⟨⟨front, order, inside⟩, small⟩ := valid
  have start : construct.writeIndex = 8 := rfl
  simp only [Fits, kPrePendIndex_eq, start] at *
  omega

/-- **File transfer is exact.**  From any buffer with room for what is added: a file that is
read, as binary or as text, stands behind the content as a whole, and so do the first
bytes of a stream; bytes that are written to a file leave the buffer, and are what is
read from the file; and a file that cannot be opened changes nothing. -/
theorem transfer_exact (b : Buffer) (valid : b.Valid) :
    (∀ (fs : FileSystem) (path : Bytes) (content : FileContent), fs.Holds path content →
      b.Fits content.bytes.length →
      (∃ b', fs.readFileBinaryInto path b = .ok b' ∧ b'.Valid ∧
        b'.readable = b.readable ++ content.bytes) ∧
      ∃ b', fs.readFileTextInto path b = .ok b' ∧ b'.Valid ∧
        b'.readable = b.readable ++ content.bytes) ∧
    (∀ (rest : Bytes) (size : Nat), b.Fits (min size rest.length) →
      ∃ b' input, b.appendSized { rest := rest } size = .ok (b', input) ∧ b'.Valid ∧
        b'.readable = b.readable ++ rest.take size) ∧
    ∀ (N : Type) [DecidableEq N] (disk : Disk N) (path : Bytes) (n : Nat),
      n ≤ b.readable.length →
      if disk.system.creatable path then
        ∃ change b' content, disk.system.writeFileBinaryFrom path b n = (.ok change, b') ∧
          b'.Valid ∧ b'.readable = b.readable.drop n ∧
          (disk.apply (some change)).system.Holds path content ∧
          content.bytes = b.readable.take n ∧
          ∃ back, (disk.apply (some change)).system.readFileBinaryInto path construct = .ok back ∧
            back.readable = b.readable.take n
      else disk.system.writeFileBinaryFrom path b n =
        (.error (.runtimeError (ascii "Failed to open file: " ++ path)), b) := by
  refine ⟨?_, ?_, ?_⟩
  · intro fs path content holds fits
    exact ⟨FileSystem.readFileBinaryInto_spec holds valid fits,
      FileSystem.readFileTextInto_spec holds valid fits⟩
  · intro rest size fits
    obtain ⟨b', appended, valid', read⟩ := appendSized_spec valid fits
    exact ⟨b', _, appended, valid', read⟩
  · intro N _ disk path n held
    split_ifs with opens
    · obtain ⟨b', written, valid', left⟩ :=
        FileSystem.writeFileBinaryFrom_spec opens valid held
      have length : (b.readable.take n).length = n := List.length_take_of_le held
      have fits := construct_fits valid held
      have large : maxSize = 2 ^ 62 - 1 := rfl
      have bounded : (b.readable.take n).length ≤ maxSize := by
        have small := Fits.small construct_valid fits
        omega
      have holds : (disk.apply (some (.wrote path (b.readable.take n)))).system.Holds path
          ⟨b.readable.take n, bounded⟩ := Disk.holds_iff.mpr (Disk.occupant_wrote bounded)
      obtain ⟨back, readBack, -, same⟩ :=
        FileSystem.readFileBinaryInto_spec holds construct_valid (length.symm ▸ fits)
      exact ⟨_, b', _, written, valid', left, holds, rfl, back, readBack, same⟩
    · exact FileSystem.writeFileBinaryFrom_throws (Bool.not_eq_true _ ▸ opens) n

/-- Five bytes behind two others, by each of the functions, and the two written to a file. -/
theorem transfer_exact_hello :
    let b : Buffer := ⟨List.replicate 8 0 ++ ascii "a\n", 8, 10⟩
    let hello : FileContent := ⟨ascii "hello", by decide⟩
    let disk : Disk Bytes := ⟨id, fun _ => none, fun _ _ => none, id⟩
    (∃ b', (FileSystem.oneFile (ascii "f") hello).readFileBinaryInto (ascii "f") b = .ok b' ∧
      b'.Valid ∧ b'.readable = b.readable ++ hello.bytes) ∧
    (∃ b' input, b.appendSized { rest := ascii "hello" } 3 = .ok (b', input) ∧ b'.Valid ∧
      b'.readable = b.readable ++ (ascii "hello").take 3) ∧
    ∃ change b' content, disk.system.writeFileBinaryFrom (ascii "f") b (2 : Nat) =
      (.ok change, b') ∧ b'.Valid ∧ b'.readable = b.readable.drop 2 ∧
      (disk.apply (some change)).system.Holds (ascii "f") content ∧
      content.bytes = b.readable.take 2 ∧
      ∃ back, (disk.apply (some change)).system.readFileBinaryInto (ascii "f") construct =
          .ok back ∧ back.readable = b.readable.take 2 := by
  intro b hello disk
  have valid : b.Valid := ⟨⟨by decide, by decide, by decide⟩, by decide⟩
  obtain ⟨reads, appends, writes⟩ := transfer_exact b valid
  have holds : (FileSystem.oneFile (ascii "f") hello).Holds (ascii "f") hello := by
    simp [FileSystem.Holds, FileSystem.Offers, FileSystem.oneFile]
  have opens : disk.system.creatable (ascii "f") = true := rfl
  have written := writes Bytes disk (ascii "f") 2 (by decide)
  rw [if_pos opens] at written
  exact ⟨(reads _ _ _ holds (by decide)).1, appends _ _ (by decide), written⟩

end Buffer

end CppFileServer.Utils
