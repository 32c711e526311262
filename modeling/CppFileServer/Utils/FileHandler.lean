/-
# Utils.FileHandler -- files, as the server reads and changes them

`FileSystem` is what the system answers about each path, errors included; it does
not change while a request is handled, and what a call changes is its result.  A
stream that is open gives its bytes and the position of its end; a directory, a
device or a pipe can be opened too.  A stream that fails stops giving bytes without
an exception, so a read of more than there is leaves zeros in the buffer.  Files are
of any size, and a string of more than `maxSize` bytes cannot be made.
-/
import CppFileServer.Cpp.Decimal

namespace CppFileServer.Utils

set_option autoImplicit false

open CppFileServer.Cpp

/-! ## Exceptions -/

/-- What the file functions throw, beside the faults of `Cpp.Basic`. -/
inductive FileFault
  | fault (fault : Fault)
  | runtimeError (what : Bytes)
  | filesystemError
  deriving DecidableEq

abbrev FileResult := Except FileFault

def liftFault {α : Type} : Result α → FileResult α
  | .ok a => .ok a
  | .error fault => .error (.fault fault)

namespace FileResult

@[simp] theorem ok_bind {α β : Type} (a : α) (f : α → FileResult β) :
    (Except.ok a >>= f : FileResult β) = f a := rfl

@[simp] theorem error_bind {α β : Type} (e : FileFault) (f : α → FileResult β) :
    (Except.error e >>= f : FileResult β) = .error e := rfl

theorem bind_eq_ok {α β : Type} {x : FileResult α} {f : α → FileResult β} {b : β}
    (returned : (x >>= f) = .ok b) : ∃ a, x = .ok a ∧ f a = .ok b := by
  cases x with
  | error e => cases returned
  | ok a => exact ⟨a, rfl, returned⟩

theorem liftFault_eq_ok {α : Type} {x : Result α} {a : α} :
    liftFault x = .ok a ↔ x = .ok a := by
  cases x with
  | error e => simp [liftFault]
  | ok a => simp [liftFault]

end FileResult

/-! ## The file system -/

/-- The largest size of an `std::string`. -/
def maxSize : Nat := 2 ^ 62 - 1

/-- What an `std::string` can hold. -/
@[ext] structure FileContent where
  bytes : Bytes
  bounded : bytes.length ≤ maxSize

/-- What `status` and an attempt to open find at a path. -/
inductive Status
  /-- An error other than that nothing is there. -/
  | failed
  | absent
  | regular (bytes : Bytes) (readable : Bool)
  /-- A directory, a device or a pipe.  A stream on it, if one can be opened, gives these bytes,
  and `size` is what its end is as a `size_t`: without positions, the largest. -/
  | other (openable : Bool) (bytes : Bytes) (size : Nat)

structure FileSystem where
  status : Bytes → Status
  /-- An `std::ofstream` can be opened. -/
  creatable : Bytes → Bool
  /-- What `remove` returns, when it does not throw. -/
  removal : Bytes → Option Bool
  /-- What `recursive_directory_iterator` finds, when it does not throw. -/
  entries : Bytes → Option (List Bytes)
  /-- `what()` of the library's error about a path. -/
  describe : Bytes → Bytes

/-- A system with one regular file, where files can be created. -/
def FileSystem.oneFile (path : Bytes) (content : FileContent) : FileSystem where
  status := fun p => if p = path then .regular content.bytes true else .absent
  creatable := fun _ => true
  removal := fun _ => some false
  entries := fun _ => some []
  describe := fun _ => []

/-- What a call changes. -/
inductive Change
  | wrote (path data : Bytes)
  | removed (path : Bytes)

namespace FileSystem

variable (fs : FileSystem)

/-- A regular file that can be read. -/
def Offers (path bytes : Bytes) : Prop := fs.status path = .regular bytes true

/-- A regular file that can be read into a string. -/
def Holds (path : Bytes) (content : FileContent) : Prop := fs.Offers path content.bytes

/-- A stream on the path can be opened, and gives these bytes. -/
def Streams (path bytes : Bytes) : Prop :=
  fs.Offers path bytes ∨ ∃ size, fs.status path = .other true bytes size

/-- An `std::ifstream`: its bytes, and what `tellg` gives at its end. -/
def openFile (path : Bytes) : FileResult (Bytes × Nat) :=
  match fs.status path with
  | .regular bytes true => .ok (bytes, bytes.length)
  | .other true bytes size => .ok (bytes, size)
  | _ => .error (.runtimeError (ascii "Failed to open file: " ++ path))

/-- `std::string(size, '\0')`. -/
def checkSize (size : Nat) : FileResult Unit :=
  if size ≤ maxSize then .ok () else .error (.fault .lengthError)

/-- What `read` leaves in a buffer of zeros. -/
def readInto (content : Bytes) (pos size : Nat) : Bytes :=
  let got := (content.drop pos).take size
  got ++ List.replicate (size - got.length) 0

def readFileBinary (path : Bytes) : FileResult Bytes := do
  let (content, size) ← fs.openFile path
  checkSize size
  pure (readInto content 0 size)

/-- `size_t` of an `int`. -/
def sizeOfInt (n : Int) : Nat := (n % sizeModulus).toNat

/-- `readFileBinary` with a beginning and an end; a seek to a negative position fails. -/
def readFileRange (path : Bytes) (first past : Int) : FileResult Bytes := do
  let (content, _) ← fs.openFile path
  let difference ← liftFault (checkedInt (past - first))
  let size := sizeOfInt difference
  checkSize size
  pure (if first < 0 then List.replicate size 0 else readInto content first.toNat size)

/-- `readFileText`; the text grows no longer than a string can be. -/
def readFileText (path : Bytes) : FileResult Bytes := do
  let (content, _) ← fs.openFile path
  pure (content.take maxSize)

def writeFileBinary (path data : Bytes) : FileResult Change :=
  if fs.creatable path then .ok (.wrote path data)
  else .error (.runtimeError (ascii "Failed to open file: " ++ path))

def pathExists (path : Bytes) : FileResult Bool :=
  match fs.status path with
  | .failed => .error .filesystemError
  | .absent => .ok false
  | _ => .ok true

def getFileSize (path : Bytes) : FileResult Nat :=
  match fs.status path with
  | .regular bytes _ => .ok bytes.length
  | _ => .error (.runtimeError (ascii "Failed to get file size: " ++ fs.describe path))

def deleteFile (path : Bytes) : FileResult (Option Change) :=
  match fs.removal path with
  | some true => .ok (some (.removed path))
  | some false => .ok none
  | none => .error (.runtimeError (ascii "Failed to remove file: " ++ fs.describe path))

def listFiles (directory : Bytes) : FileResult (List Bytes) :=
  match fs.entries directory with
  | some files => .ok files
  | none => .error .filesystemError

end FileSystem

/-! ## PathUtils -/

namespace PathUtils

def getFileName (path : Bytes) : Bytes := afterLast 47 path

/-- `path(p).extension()`: from the last period of the file name, unless it is the first byte. -/
def getExtension (path : Bytes) : Bytes :=
  let name := getFileName path
  let front := name.reverse.dropWhile (· != 46)
  if name = ascii ".." ∨ front.length ≤ 1 then [] else name.drop (front.length - 1)

def mimeTypes : List (Bytes × Bytes) :=
  [(ascii ".html", ascii "text/html"),
    (ascii ".htm", ascii "text/html"),
    (ascii ".js", ascii "text/javascript"),
    (ascii ".css", ascii "text/css"),
    (ascii ".json", ascii "application/json"),
    (ascii ".xml", ascii "application/xml"),
    (ascii ".png", ascii "image/png"),
    (ascii ".jpg", ascii "image/jpeg"),
    (ascii ".gif", ascii "image/gif"),
    (ascii ".svg", ascii "image/svg+xml"),
    (ascii ".mp4", ascii "video/mp4"),
    (ascii ".avi", ascii "video/x-msvideo"),
    (ascii ".mp3", ascii "audio/mpeg"),
    (ascii ".wav", ascii "audio/wav"),
    (ascii ".pdf", ascii "application/pdf")]

def getMimeType (path : Bytes) : Bytes :=
  (mimeTypes.lookup (getExtension path)).getD (ascii "application/octet-stream")

example : getMimeType (ascii "../resources/cat.jpg") = ascii "image/jpeg" := by decide +kernel

end PathUtils

/-! ## When the functions return -/

namespace FileSystem

variable {fs : FileSystem} {path bytes : Bytes} {content : FileContent}

theorem readInto_length (bytes : Bytes) (pos size : Nat) :
    (readInto bytes pos size).length = size := by
  unfold readInto
  simp only [List.length_append, List.length_replicate, List.length_take]
  omega

theorem checkSize_eq_ok {size : Nat} : checkSize size = .ok () ↔ size ≤ maxSize := by
  unfold checkSize
  split_ifs with fits <;> simp [fits]

/-- A read of bytes that are there. -/
theorem readInto_of_le {bytes : Bytes} {pos size : Nat} (inside : pos + size ≤ bytes.length) :
    readInto bytes pos size = (bytes.drop pos).take size := by
  have full : ((bytes.drop pos).take size).length = size := by
    rw [List.length_take, List.length_drop]
    omega
  simp only [readInto, full, Nat.sub_self, List.replicate_zero, List.append_nil]

theorem sizeOfInt_of_fits {n : Int} (low : 0 ≤ n) (high : n < 2 ^ 31) : sizeOfInt n = n.toNat := by
  have small : n % (sizeModulus : Int) = n := Int.emod_eq_of_lt low (by
    have : (sizeModulus : Int) = 2 ^ 64 := by decide
    omega)
  rw [sizeOfInt, small]

/-- A negative number is no size of a string. -/
theorem sizeOfInt_of_negative {n : Int} (low : -2 ^ 31 ≤ n) (negative : n < 0) :
    maxSize < sizeOfInt n := by
  have modulus : (sizeModulus : Int) = 2 ^ 64 := by decide
  have wrapped : n % (sizeModulus : Int) = n + sizeModulus := by
    rw [← Int.add_emod_right]
    exact Int.emod_eq_of_lt (by omega) (by omega)
  have large : maxSize = 2 ^ 62 - 1 := rfl
  rw [sizeOfInt, wrapped, modulus]
  omega

theorem openFile_of_offers (offers : fs.Offers path bytes) :
    fs.openFile path = .ok (bytes, bytes.length) := by
  unfold openFile
  rw [offers]

@[simp] theorem openFile_of_holds (holds : fs.Holds path content) :
    fs.openFile path = .ok (content.bytes, content.bytes.length) := openFile_of_offers holds

theorem getFileSize_of_offers (offers : fs.Offers path bytes) :
    fs.getFileSize path = .ok bytes.length := by
  unfold getFileSize
  rw [offers]

theorem pathExists_of_offers (offers : fs.Offers path bytes) : fs.pathExists path = .ok true := by
  unfold pathExists
  rw [offers]

theorem openFile_of_streams (streams : fs.Streams path bytes) :
    ∃ size, fs.openFile path = .ok (bytes, size) := by
  rcases streams with offers | ⟨size, status⟩
  · exact ⟨_, openFile_of_offers offers⟩
  · refine ⟨size, ?_⟩
    unfold openFile
    rw [status]

theorem streams_of_openFile {size : Nat} (opened : fs.openFile path = .ok (bytes, size)) :
    fs.Streams path bytes := by
  unfold openFile at opened
  unfold Streams Offers
  split at opened
  · rename_i status
    cases opened
    exact Or.inl status
  · rename_i status
    cases opened
    exact Or.inr ⟨size, status⟩
  · cases opened

theorem readFileBinary_of_holds (holds : fs.Holds path content) :
    fs.readFileBinary path = .ok content.bytes := by
  have whole : readInto content.bytes 0 content.bytes.length = content.bytes := by
    rw [readInto_of_le (by omega), List.drop_zero, List.take_length]
  simp only [readFileBinary, openFile_of_holds holds, FileResult.ok_bind, checkSize,
    if_pos content.bounded, whole]
  rfl

theorem readFileRange_of_offers (offers : fs.Offers path bytes) {first past : Int}
    (ordered : first ≤ past) (fits : past - first < 2 ^ 31) :
    fs.readFileRange path first past = .ok (if first < 0 then List.replicate (past - first).toNat 0
      else readInto bytes first.toNat (past - first).toNat) := by
  have checked : checkedInt (past - first) = .ok (past - first) :=
    checkedInt_of_fits (by omega) fits
  have size : sizeOfInt (past - first) = (past - first).toNat :=
    sizeOfInt_of_fits (by omega) fits
  have small : (past - first).toNat ≤ maxSize := by
    have large : maxSize = 2 ^ 62 - 1 := rfl
    omega
  simp only [readFileRange, openFile_of_offers offers, FileResult.ok_bind, checked, liftFault, size,
    checkSize, if_pos small]
  rfl

/-- `deleteFile` removes nothing else than its path. -/
theorem deleteFile_eq_ok {change : Option Change} (deleted : fs.deleteFile path = .ok change) :
    change = none ∨ change = some (.removed path) := by
  unfold deleteFile at deleted
  split at deleted
  · cases deleted
    exact Or.inr rfl
  · cases deleted
    exact Or.inl rfl
  · cases deleted

/-- Only a regular file has both an open stream and a size. -/
theorem offers_of_open_of_size {size position : Nat} (opens : fs.openFile path = .ok (bytes, position))
    (sized : fs.getFileSize path = .ok size) : fs.Offers path bytes ∧ position = bytes.length := by
  unfold openFile at opens
  unfold getFileSize at sized
  unfold Offers
  cases status : fs.status path with
  | failed => simp [status] at opens
  | absent => simp [status] at opens
  | regular content readable =>
      cases readable with
      | true =>
          simp only [status, Except.ok.injEq, Prod.mk.injEq] at opens
          obtain ⟨rfl, rfl⟩ := opens
          exact ⟨rfl, rfl⟩
      | false => simp [status] at opens
  | other openable bytes size => simp [status] at sized

end FileSystem

end CppFileServer.Utils
