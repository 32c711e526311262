/-
# Utils.OpenFiles -- the system calls behind the file functions

The functions of `FileHandler` make several system calls each, and a stream keeps its
file between them.  An `std::ofstream` creates or empties its file and then writes at a
position of its own; an `std::ifstream` measures its file by a seek to the end and then
reads.  A `Volume` is a disk at this level: a node has a file, which is known by its
inode to those who have it open, and what is written through one of them is seen by all.

As on a `Disk`, every call on a plain file succeeds, and no write falls short: the
source does not look at the state of its streams, so a full device is not modelled.
-/
import CppFileServer.Utils.Disk

namespace CppFileServer.Utils

set_option autoImplicit false

open CppFileServer.Cpp CppFileServer.Theory

/-- What a node has, and what a stream has open. -/
inductive DirEntry
  | file (inode : Nat)
  | directory (removable openable : Bool) (size : Nat)
  deriving DecidableEq

structure Volume (N : Type) where
  resolve : Bytes → N
  entry : N → Option DirEntry
  content : Nat → FileContent
  /-- The inodes from here on have not been used. -/
  fresh : Nat := 0
  entries : Store N Occupant → Bytes → Option (List Bytes)
  describe : Bytes → Bytes

namespace Volume

variable {N : Type} (volume : Volume N)

def occupant : DirEntry → Occupant
  | .file inode => .file (volume.content inode)
  | .directory removable openable size => .directory removable openable size

/-- The disk that a call sees which nothing comes between. -/
def disk : Disk N where
  resolve := volume.resolve
  held node := (volume.entry node).map volume.occupant
  entries := volume.entries
  describe := volume.describe

/-! ## The calls -/

/-- The constructor of an `std::ofstream`, with `O_CREAT` and `O_TRUNC`. -/
def create [DecidableEq N] (path : Bytes) : FileResult (Volume N × Nat) :=
  match volume.entry (volume.resolve path) with
  | none => .ok
      ({ volume with
          entry := Function.update volume.entry (volume.resolve path) (some (.file volume.fresh))
          content := Function.update volume.content volume.fresh (.ofBytes [])
          fresh := volume.fresh + 1 }, volume.fresh)
  | some (.file inode) => .ok
      ({ volume with content := Function.update volume.content inode (.ofBytes []) }, inode)
  | some (.directory _ _ _) => .error (.runtimeError (ascii "Failed to open file: " ++ path))

/-- The bytes after a write at a position; what lies before it and was never written is zero. -/
def overwrite (bytes : Bytes) (offset : Nat) (data : Bytes) : Bytes :=
  bytes.take offset ++ List.replicate (offset - bytes.length) 0 ++ data ++
    bytes.drop (offset + data.length)

def write (inode offset : Nat) (data : Bytes) : Volume N :=
  { volume with
    content := Function.update volume.content inode
      (.ofBytes (overwrite (volume.content inode).bytes offset data)) }

/-- The constructor of an `std::ifstream`. -/
def openEntry (path : Bytes) : FileResult DirEntry :=
  match volume.entry (volume.resolve path) with
  | some (.file inode) => .ok (.file inode)
  | some (.directory removable true size) => .ok (.directory removable true size)
  | _ => .error (.runtimeError (ascii "Failed to open file: " ++ path))

/-- `seekg` to the end and `tellg`. -/
def measure : DirEntry → Nat
  | .file inode => (volume.content inode).bytes.length
  | .directory _ _ size => size

/-- The bytes that a stream can read; a directory has none. -/
def bytes : DirEntry → Bytes
  | .file inode => (volume.content inode).bytes
  | .directory _ _ _ => []

/-- At most `count` bytes from a position on. -/
def readAt (opened : DirEntry) (offset count : Nat) : Bytes :=
  ((volume.bytes opened).drop offset).take count

/-! ## What a call leaves alone -/

/-- Inodes are given to nodes one by one. -/
structure Sound : Prop where
  used : ∀ node inode, volume.entry node = some (.file inode) → inode < volume.fresh
  own : ∀ node other inode, volume.entry node = some (.file inode) →
    volume.entry other = some (.file inode) → node = other

variable {volume} {volume' : Volume N} {path data : Bytes} {inode offset : Nat}

theorem occupant_of_entry {node : N} {entry : DirEntry} (held : volume.entry node = some entry) :
    volume.disk.held node = some (volume.occupant entry) := by
  show (volume.entry node).map volume.occupant = _
  rw [held, Option.map_some]

theorem pathExists_disk (volume : Volume N) (path : Bytes) :
    volume.disk.system.pathExists path =
      .ok (volume.entry (volume.resolve path)).isSome := by
  rw [Disk.pathExists_eq]
  exact congrArg Except.ok Option.isSome_map

theorem holds_of_entry (held : volume.entry (volume.resolve path) = some (.file inode)) :
    volume.disk.system.Holds path (volume.content inode) := by
  rw [Disk.holds_iff]
  exact occupant_of_entry held

theorem take_length_take (bytes : Bytes) (count : Nat) :
    bytes.take (bytes.take count).length = bytes.take count := by
  rw [List.length_take, ← List.take_eq_take_min]

/-- A read goes on where the last one has ended. -/
theorem append_drop_take {bytes got : Bytes} (front : got = bytes.take got.length) (count : Nat) :
    got ++ (bytes.drop got.length).take count =
      bytes.take (got ++ (bytes.drop got.length).take count).length := by
  rw [List.length_append, List.take_add, ← front, take_length_take]

/-- The reads end when nothing is left, and the buffer has zeros from there. -/
theorem readInto_of_ended {bytes got : Bytes} {size count : Nat}
    (front : got = bytes.take got.length) (whole : bytes.length ≤ size)
    (asked : got.length < size → 0 < count) (nothing : (bytes.drop got.length).take count = []) :
    got ++ List.replicate (size - got.length) 0 = FileSystem.readInto bytes 0 size := by
  have atEnd : bytes.length ≤ got.length := by
    by_contra short
    have lengths := congrArg List.length nothing
    rw [List.length_take, List.length_drop, List.length_nil] at lengths
    have positive := asked (by omega)
    omega
  have all : got = bytes := by rw [front, List.take_of_length_le atEnd]
  rw [FileSystem.readInto, List.drop_zero, List.take_of_length_le whole, all]

/-- A write in the order of the bytes, where the ones before are there. -/
theorem overwrite_next (bytes : Bytes) (offset count : Nat) (inside : offset ≤ bytes.length) :
    overwrite (bytes.take offset) offset ((bytes.drop offset).take count) =
      bytes.take (offset + ((bytes.drop offset).take count).length) := by
  have front : (bytes.take offset).length = offset := by
    rw [List.length_take]
    omega
  have nothing : (bytes.take offset).drop (offset + ((bytes.drop offset).take count).length) = [] :=
    List.drop_of_length_le (by omega)
  rw [overwrite, nothing, List.append_nil, front, Nat.sub_self, List.replicate_zero,
    List.append_nil, List.take_of_length_le (le_of_eq front), List.take_add, take_length_take]

section Create

variable [DecidableEq N]

/-- What creating a file comes to: the node has it, and it is empty. -/
theorem create_eq_ok (created : volume.create path = .ok (volume', inode)) :
    volume'.entry = Function.update volume.entry (volume.resolve path) (some (.file inode)) ∧
      volume'.content = Function.update volume.content inode (.ofBytes []) ∧
      volume'.resolve = volume.resolve ∧
      (volume.entry (volume.resolve path) = none ∧ inode = volume.fresh ∧
          volume'.fresh = volume.fresh + 1 ∨
        volume.entry (volume.resolve path) = some (.file inode) ∧ volume'.fresh = volume.fresh) := by
  unfold create at created
  split at created
  · rename_i free
    cases created
    exact ⟨rfl, rfl, rfl, Or.inl ⟨free, rfl, rfl⟩⟩
  · rename_i there held
    cases created
    exact ⟨(Function.update_eq_self_iff.mpr held.symm).symm, rfl, rfl, Or.inr ⟨held, rfl⟩⟩
  · cases created

theorem Sound.create (sound : volume.Sound) (created : volume.create path = .ok (volume', inode)) :
    volume'.Sound := by
  obtain ⟨entry, -, -, origin⟩ := create_eq_ok created
  have kept {node : N} {j : Nat} (held : volume'.entry node = some (.file j)) :
      node = volume.resolve path ∧ j = inode ∨
        node ≠ volume.resolve path ∧ volume.entry node = some (.file j) := by
    rw [entry] at held
    by_cases here : node = volume.resolve path
    · subst here
      rw [Function.update_self] at held
      cases held
      exact Or.inl ⟨rfl, rfl⟩
    · rw [Function.update_of_ne here] at held
      exact Or.inr ⟨here, held⟩
  have apart {node : N} (elsewhere : node ≠ volume.resolve path)
      (held : volume.entry node = some (.file inode)) : False := by
    rcases origin with ⟨-, rfl, -⟩ | ⟨there, -⟩
    · exact absurd (sound.used node _ held) (lt_irrefl _)
    · exact elsewhere (sound.own node _ inode held there)
  refine ⟨?_, ?_⟩
  · intro node j held
    rcases kept held with ⟨-, rfl⟩ | ⟨-, old⟩
    · rcases origin with ⟨-, rfl, more⟩ | ⟨there, same⟩
      · omega
      · rw [same]
        exact sound.used _ _ there
    · have before := sound.used node j old
      rcases origin with ⟨-, -, more⟩ | ⟨-, same⟩
      · omega
      · omega
  · intro node other j held held'
    rcases kept held with ⟨rfl, rfl⟩ | ⟨elsewhere, old⟩
    · rcases kept held' with ⟨rfl, -⟩ | ⟨elsewhere', old'⟩
      · rfl
      · exact absurd old' fun there => apart elsewhere' there
    · rcases kept held' with ⟨rfl, rfl⟩ | ⟨-, old'⟩
      · exact absurd old fun there => apart elsewhere there
      · exact sound.own node other j old old'

end Create

theorem Sound.write (sound : volume.Sound) (inode offset : Nat) (data : Bytes) :
    (volume.write inode offset data).Sound :=
  ⟨sound.used, sound.own⟩

theorem write_other {other : Nat} (elsewhere : other ≠ inode) :
    (volume.write inode offset data).content other = volume.content other :=
  Function.update_of_ne elsewhere _ _

/-- A write that continues what has been written so far. -/
theorem write_next {bytes : Bytes} (bounded : bytes.length ≤ maxSize) (inside : offset ≤ bytes.length)
    (before : (volume.content inode).bytes = bytes.take offset) (count : Nat) :
    ((volume.write inode offset ((bytes.drop offset).take count)).content inode).bytes =
      bytes.take (offset + ((bytes.drop offset).take count).length) := by
  have short : (bytes.take (offset + ((bytes.drop offset).take count).length)).length ≤ maxSize :=
    (List.length_take_le' _ _).trans bounded
  show (Function.update volume.content inode (.ofBytes (overwrite _ offset _)) inode).bytes = _
  rw [Function.update_self, before, overwrite_next bytes offset count inside]
  exact List.take_of_length_le short

end Volume

end CppFileServer.Utils
