/-
# Utils.Disk -- a file system that the calls change

`FileSystem` is what a system answers at one moment.  A `Disk` is a system that
keeps its files from one call to the next: a path leads to a node, which is a
directory entry, and a node holds a file, a directory or nothing.  Two paths can lead
to the same node, as a name and the same name behind `./` do; how they do is not fixed,
so a path may just as well be its own node.

There are no hard or symbolic links, every call on a plain file succeeds, a file is
what an `std::string` can hold, and it can be created wherever there is nothing.
-/
import CppFileServer.Theory.WriteOnce
import CppFileServer.Utils.FileHandler

namespace CppFileServer.Utils

set_option autoImplicit false

open CppFileServer.Cpp CppFileServer.Theory

/-- What a file takes of these bytes. -/
def FileContent.ofBytes (data : Bytes) : FileContent where
  bytes := data.take maxSize
  bounded := List.length_take_le maxSize data

theorem FileContent.ofBytes_eq {data : Bytes} (bounded : data.length ≤ maxSize) :
    FileContent.ofBytes data = ⟨data, bounded⟩ := by
  unfold ofBytes
  congr 1
  exact List.take_of_length_le bounded

inductive Occupant
  | file (content : FileContent)
  /-- A directory, which `remove` removes when it is empty; a stream on it, if one can be
  opened, ends at `size`. -/
  | directory (removable openable : Bool) (size : Nat)

structure Disk (N : Type) where
  resolve : Bytes → N
  held : Store N Occupant
  /-- What `recursive_directory_iterator` finds, when it does not throw. -/
  entries : Store N Occupant → Bytes → Option (List Bytes)
  /-- `what()` of the library's error about a path. -/
  describe : Bytes → Bytes

namespace Disk

variable {N : Type} (disk : Disk N)

/-- What a path leads to. -/
def occupant (path : Bytes) : Option Occupant := disk.held (disk.resolve path)

/-- What the system answers. -/
def system : FileSystem where
  status path :=
    match disk.occupant path with
    | none => .absent
    | some (.file content) => .regular content.bytes true
    | some (.directory _ openable size) => .other openable [] size
  creatable path :=
    match disk.occupant path with
    | some (.directory _ _ _) => false
    | _ => true
  removal path :=
    match disk.occupant path with
    | none => some false
    | some (.file _) => some true
    | some (.directory removable _ _) => if removable then some true else none
  entries := disk.entries disk.held
  describe := disk.describe

/-- The disk after a change. -/
def apply [DecidableEq N] : Option Change → Disk N
  | none => disk
  | some (.wrote path data) =>
      { disk with
        held := Function.update disk.held (disk.resolve path) (some (.file (.ofBytes data))) }
  | some (.removed path) =>
      { disk with held := Function.update disk.held (disk.resolve path) none }

variable {disk} {path : Bytes}

theorem holds_iff {content : FileContent} :
    disk.system.Holds path content ↔ disk.occupant path = some (.file content) := by
  unfold FileSystem.Holds FileSystem.Offers system
  simp only
  cases disk.occupant path with
  | none => simp
  | some occupant =>
      cases occupant with
      | file held => simp [FileContent.ext_iff]
      | directory removable openable size => simp

theorem file_of_offers {bytes : Bytes} (offers : disk.system.Offers path bytes) :
    ∃ content, disk.occupant path = some (.file content) := by
  unfold FileSystem.Offers system at offers
  simp only at offers
  split at offers
  · cases offers
  · exact ⟨_, ‹_›⟩
  · cases offers

/-- `Exists` never fails here. -/
theorem pathExists_eq (disk : Disk N) (path : Bytes) :
    disk.system.pathExists path = .ok (disk.occupant path).isSome := by
  unfold FileSystem.pathExists system
  simp only
  cases disk.occupant path with
  | none => rfl
  | some occupant =>
      cases occupant with
      | file content => rfl
      | directory removable openable size => rfl

theorem creatable_of_absent (absent : disk.occupant path = none) : disk.system.creatable path = true := by
  simp only [system, absent]

/-! ## What a change changes -/

variable [DecidableEq N]

theorem occupant_wrote {data : Bytes} (bounded : data.length ≤ maxSize) :
    (disk.apply (some (.wrote path data))).occupant path = some (.file ⟨data, bounded⟩) := by
  rw [← FileContent.ofBytes_eq bounded]
  exact Function.update_self _ _ _

theorem occupant_wrote_of_ne {data other : Bytes}
    (elsewhere : disk.resolve other ≠ disk.resolve path) :
    (disk.apply (some (.wrote path data))).occupant other = disk.occupant other :=
  Function.update_of_ne elsewhere _ _

theorem occupant_removed_of_ne {other : Bytes}
    (elsewhere : disk.resolve other ≠ disk.resolve path) :
    (disk.apply (some (.removed path))).occupant other = disk.occupant other :=
  Function.update_of_ne elsewhere _ _

end Disk

end CppFileServer.Utils
