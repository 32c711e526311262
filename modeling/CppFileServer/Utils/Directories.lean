/-
# Utils.Directories -- directory entries, links and permissions

A path names an entry: a name in a directory.  What the entry has is an inode, and
other entries may have the same one; the inode of a symbolic link leads on to its
target.  `remove` takes the entry that its path names away, not the inode and not what a
link leads to, and any call may be refused.

`Directories` is any such state, with what the system allows the process as fields.
`unrestricted` is the same state for one who may look everything up: what there is,
whether the process may see it or not.
-/
import CppFileServer.Theory.Walk
import CppFileServer.Utils.FileHandler
import Mathlib.Logic.Function.Basic

namespace CppFileServer.Utils

set_option autoImplicit false

open CppFileServer.Cpp CppFileServer.Theory

inductive Inode
  | file (bytes : Bytes) (readable writable : Bool)
  | directory (openable : Bool) (size : Nat)
  /-- A device or a pipe, with what a stream on it gives. -/
  | device (openable writable : Bool) (bytes : Bytes) (size : Nat)
  | link (target : Bytes)
  deriving DecidableEq

/-- Why a path cannot be followed. -/
inductive Refusal
  | absent
  | notDirectory
  /-- Permissions, too many links, a path that is too long, and any other error. -/
  | refused
  deriving DecidableEq

/-- The entries of all directories, with `.` and `..` among them. -/
abbrev Entries (I : Type) := I → Bytes → Option I

structure Directories (I : Type) where
  inode : I → Inode
  entry : Entries I
  root : I
  /-- The working directory. -/
  working : I
  /-- The process may look a name up in a directory. -/
  searchable : I → Bytes → Bool
  /-- A path is not too long. -/
  accepts : Bytes → Bool
  /-- `unlink` or `rmdir` of an entry succeeds. -/
  removable : Entries I → I → Bytes → Bool
  /-- A new file can be made. -/
  creatable : Entries I → I → Bytes → Bool
  /-- The inode that it gets. -/
  newInode : Entries I → I
  /-- What `recursive_directory_iterator` finds, when it does not throw. -/
  listing : Entries I → Bytes → Option (List Bytes)
  /-- `what()` of the library's error about a path. -/
  describe : Bytes → Bytes

/-- The bytes of a path, up to the first that is zero. -/
def cString (path : Bytes) : Bytes := path.takeWhile (· != 0)

/-- The names of a path; a slash at its end asks for a directory. -/
def components (path : Bytes) : List Bytes :=
  let names := ((cString path).splitOn 47).filter (· ≠ [])
  if names ≠ [] ∧ (cString path).getLast? = some 47 then names ++ [ascii "."] else names

example : components (ascii "../files//a.txt") = [ascii "..", ascii "files", ascii "a.txt"] := by
  decide

example : components (ascii "/files/") = [ascii "files", ascii "."] := by decide

/-- The links that one path may follow. -/
def maxLinks : Nat := 40

namespace Directories

variable {I : Type} (t : Directories I)

/-- Where a path starts that is found in a directory. -/
def start (path : Bytes) (place : I) : I := if path.head? = some 47 then t.root else place

/-- One name on a path. -/
def look (place : I) (name : Bytes) : Except Refusal I :=
  match t.inode place with
  | .directory _ _ =>
      if t.searchable place name then
        match t.entry place name with
        | some there => .ok there
        | none => .error .absent
      else .error .refused
  | _ => .error .notDirectory

def ways : Ways I Bytes Refusal where
  look := t.look
  link place there :=
    match t.inode there with
    | .link target => some (t.start target place, components target)
    | _ => none
  tooMany := .refused

abbrev Stopped (I : Type) := Stop I Bytes Refusal

/-- Where a path starts, and its names. -/
def route (path : Bytes) : Except (Stopped I) (I × List Bytes) :=
  if cString path = [] then .error ⟨t.working, [], .absent⟩
  else if t.accepts path then .ok (t.start path t.working, components path)
  else .error ⟨t.working, [], .refused⟩

/-- `stat`: the inode that a path leads to. -/
def find (path : Bytes) : Except (Stopped I) I := do
  let (place, names) ← t.route path
  t.ways.walk maxLinks place names

/-- The entry that a path names; the last name is not followed. -/
def lookup (path : Bytes) : Except (Stopped I) (I × Bytes) := do
  let (place, names) ← t.route path
  match names.getLast? with
  | none => .error ⟨place, [], .refused⟩
  | some name => do
      let directory ← t.ways.walk maxLinks place names.dropLast
      match t.look directory name with
      | .ok _ => .ok (directory, name)
      | .error reason => .error ⟨directory, [name], reason⟩

/-- What the system answers. -/
def system : FileSystem where
  status path :=
    match t.find path with
    | .ok found =>
        match t.inode found with
        | .file bytes readable _ => .regular bytes readable
        | .directory openable size => .other openable [] size
        | .device openable _ bytes size => .other openable bytes size
        | .link _ => .failed
    | .error stop => if stop.reason = .refused then .failed else .absent
  creatable path :=
    match t.find path with
    | .ok found =>
        match t.inode found with
        | .file _ _ writable => writable
        | .device _ writable _ _ => writable
        | _ => false
    | .error ⟨place, [name], .absent⟩ => t.creatable t.entry place name
    | .error _ => false
  removal path :=
    match t.lookup path with
    | .ok (place, name) => if t.removable t.entry place name then some true else none
    | .error stop => if stop.reason = .absent then some false else none
  entries := t.listing t.entry
  describe := t.describe

section Change

variable [DecidableEq I]

def Entries.set (entry : Entries I) (e : I × Bytes) (value : Option I) : Entries I :=
  fun place name => if (place, name) = e then value else entry place name

/-- The state without an entry. -/
def without (e : I × Bytes) : Directories I := { t with entry := Entries.set t.entry e none }

/-- The state after a change. -/
def apply : Option Change → Directories I
  | none => t
  | some (.removed path) =>
      match t.lookup path with
      | .ok e => t.without e
      | .error _ => t
  | some (.wrote path data) =>
      match t.find path with
      | .ok found =>
          match t.inode found with
          | .file _ readable writable =>
              { t with inode := Function.update t.inode found (.file data readable writable) }
          | _ => t
      | .error ⟨place, [name], .absent⟩ =>
          let new := t.newInode t.entry
          { t with
            entry := Entries.set t.entry (place, name) (some new)
            inode := Function.update t.inode new (.file data true true) }
      | .error _ => t

end Change

/-! ## What there is -/

/-- The same state for one who may look everything up. -/
def unrestricted : Directories I :=
  { t with searchable := fun _ _ => true, accepts := fun _ => true }

/-- A path leads to something. -/
def Present (path : Bytes) : Prop := ∃ found, t.unrestricted.find path = .ok found

/-- A path names an entry that has a file. -/
def PlainFile (path : Bytes) (e : I × Bytes) : Prop :=
  t.unrestricted.lookup path = .ok e ∧
    ∃ found bytes readable writable, t.entry e.1 e.2 = some found ∧
      t.inode found = .file bytes readable writable

variable {t} {path : Bytes} {e : I × Bytes}

/-! ## One name -/

theorem look_eq_ok {place there : I} {name : Bytes} (looked : t.look place name = .ok there) :
    (∃ openable size, t.inode place = .directory openable size) ∧
      t.searchable place name = true ∧ t.entry place name = some there := by
  unfold look at looked
  split at looked
  · rename_i openable size isDirectory
    split_ifs at looked with searchable
    split at looked
    · rename_i found held
      cases looked
      exact ⟨⟨openable, size, isDirectory⟩, searchable, held⟩
    · cases looked
  · cases looked

theorem look_file {place : I} {bytes : Bytes} {readable writable : Bool}
    (isFile : t.inode place = .file bytes readable writable) (name : Bytes) (there : I) :
    t.look place name ≠ .ok there := by
  intro looked
  obtain ⟨⟨openable, size, isDirectory⟩, -⟩ := look_eq_ok looked
  rw [isFile] at isDirectory
  cases isDirectory

theorem look_unrestricted {place there : I} {name : Bytes} (looked : t.look place name = .ok there) :
    t.unrestricted.look place name = .ok there := by
  obtain ⟨⟨openable, size, isDirectory⟩, -, held⟩ := look_eq_ok looked
  simp only [look, unrestricted, isDirectory, held, if_true]

/-! ## Paths -/

theorem lookup_eq_ok (looked : t.lookup path = .ok e) :
    ∃ place names there, t.route path = .ok (place, names ++ [e.2]) ∧
      t.ways.Arrives maxLinks place names e.1 ∧ t.look e.1 e.2 = .ok there := by
  unfold lookup at looked
  cases routed : t.route path with
  | error stop =>
      rw [routed] at looked
      cases looked
  | ok route =>
      obtain ⟨place, names⟩ := route
      simp only [routed, bind, Except.bind] at looked
      cases last : names.getLast? with
      | none =>
          simp only [last] at looked
          cases looked
      | some name =>
          simp only [last] at looked
          cases walked : t.ways.walk maxLinks place names.dropLast with
          | error stop =>
              simp only [walked] at looked
              cases looked
          | ok directory =>
              simp only [walked] at looked
              split at looked
              · rename_i there found
                cases looked
                have split : names.dropLast ++ [name] = names :=
                  List.dropLast_append_getLast? name last
                exact ⟨place, names.dropLast, there, by rw [split], Ways.arrives_of_walk walked,
                  found⟩
              · cases looked

theorem lookup_of_arrives {place directory there : I} {names : List Bytes} {name : Bytes}
    (routed : t.route path = .ok (place, names ++ [name]))
    (arrives : t.ways.Arrives maxLinks place names directory)
    (looked : t.look directory name = .ok there) : t.lookup path = .ok (directory, name) := by
  simp only [lookup, routed, bind, Except.bind, List.getLast?_concat, List.dropLast_concat,
    arrives.walk, looked]

theorem find_of_route {place : I} {names : List Bytes} (routed : t.route path = .ok (place, names)) :
    t.find path = t.ways.walk maxLinks place names := by
  simp only [find, routed, bind, Except.bind]

/-- A path that names a file leads to it. -/
theorem find_of_lookup {found : I} {bytes : Bytes} {readable writable : Bool}
    (looked : t.lookup path = .ok e) (held : t.entry e.1 e.2 = some found)
    (isFile : t.inode found = .file bytes readable writable) : t.find path = .ok found := by
  obtain ⟨place, names, there, routed, arrives, last⟩ := lookup_eq_ok looked
  obtain ⟨-, -, same⟩ := look_eq_ok last
  rw [held, Option.some.injEq] at same
  subst same
  obtain ⟨left, goesOn⟩ := arrives.walk_append
  have plain : t.ways.link e.1 found = none := by simp only [ways, isFile]
  rw [find_of_route routed, goesOn, Ways.walk_cons_on (show t.ways.look _ _ = _ from last) plain,
    Ways.walk_nil]

theorem present_of_plainFile (plain : t.PlainFile path e) : t.Present path := by
  obtain ⟨named, there, bytes, readable, writable, held, isFile⟩ := plain
  exact ⟨there, find_of_lookup named held isFile⟩

theorem route_unrestricted {found : I × List Bytes} (routed : t.route path = .ok found) :
    t.unrestricted.route path = .ok found := by
  unfold route at routed ⊢
  split_ifs at routed with empty accepted
  · rw [if_neg empty]
    exact routed

theorem arrives_unrestricted {links : Nat} {place goal : I} {names : List Bytes}
    (arrives : t.ways.Arrives links place names goal) :
    t.unrestricted.ways.Arrives links place names goal := by
  have links_eq : t.unrestricted.ways.link = t.ways.link := rfl
  exact arrives.mono links_eq fun _ _ _ => look_unrestricted

theorem find_unrestricted {found : I} (leads : t.find path = .ok found) :
    t.unrestricted.find path = .ok found := by
  cases routed : t.route path with
  | error stop =>
      simp only [find, routed, bind, Except.bind] at leads
      cases leads
  | ok route =>
      rw [find_of_route routed] at leads
      rw [find_of_route (route_unrestricted routed)]
      exact (arrives_unrestricted (Ways.arrives_of_walk leads)).walk

/-- Where the process finds something, it finds the entry that there is. -/
theorem lookup_of_find {found : I} (leads : t.find path = .ok found)
    (named : t.unrestricted.lookup path = .ok e) : t.lookup path = .ok e := by
  obtain ⟨place, names, there, routed, arrives, -⟩ := lookup_eq_ok named
  cases own : t.route path with
  | error stop =>
      simp only [find, own, bind, Except.bind] at leads
      cases leads
  | ok route =>
      rw [route_unrestricted own, Except.ok.injEq] at routed
      subst routed
      rw [find_of_route own] at leads
      obtain ⟨middle, front⟩ := (Ways.arrives_of_walk leads).front rfl
      -- both walks over the first names come to the same directory
      have same : middle = e.1 := by
        have walked := (arrives_unrestricted front).walk
        rw [arrives.walk, Except.ok.injEq] at walked
        exact walked.symm
      subst same
      obtain ⟨left, goesOn⟩ := front.walk_append
      rw [goesOn] at leads
      cases looked : t.look e.1 e.2 with
      | ok there => exact lookup_of_arrives own front looked
      | error reason =>
          rw [Ways.walk_cons_error (show t.ways.look _ _ = _ from looked)] at leads
          cases leads

/-! ## What the calls answer -/

theorem pathExists_eq_true (found : t.system.pathExists path = .ok true) :
    ∃ there, t.find path = .ok there := by
  unfold FileSystem.pathExists system at found
  cases leads : t.find path with
  | ok there => exact ⟨there, rfl⟩
  | error stop =>
      simp only [leads] at found
      split_ifs at found
      cases found

theorem pathExists_of_file {found : I} {bytes : Bytes} {readable writable : Bool}
    (leads : t.find path = .ok found) (isFile : t.inode found = .file bytes readable writable) :
    t.system.pathExists path = .ok true := by
  simp only [FileSystem.pathExists, system, leads, isFile]

theorem pathExists_of_absent {place : I} {names : List Bytes}
    (stops : t.find path = .error ⟨place, names, .absent⟩) :
    t.system.pathExists path = .ok false := by
  simp only [FileSystem.pathExists, system, stops]
  rfl

theorem creatable_of_absent {place : I} {name : Bytes}
    (stops : t.find path = .error ⟨place, [name], .absent⟩) :
    t.system.creatable path = t.creatable t.entry place name := by
  simp only [system, stops]

/-- `deleteFile` removes the entry that its path names. -/
theorem deleteFile_eq_removed (deleted : t.system.deleteFile path = .ok (some (.removed path))) :
    ∃ e, t.lookup path = .ok e ∧ t.removable t.entry e.1 e.2 = true := by
  unfold FileSystem.deleteFile system at deleted
  cases looked : t.lookup path with
  | ok e =>
      simp only [looked] at deleted
      refine ⟨e, rfl, ?_⟩
      by_contra refused
      rw [if_neg refused] at deleted
      cases deleted
  | error stop =>
      simp only [looked] at deleted
      split_ifs at deleted
      cases deleted

theorem deleteFile_of_lookup (looked : t.lookup path = .ok e)
    (removable : t.removable t.entry e.1 e.2 = true) :
    t.system.deleteFile path = .ok (some (.removed path)) := by
  simp only [FileSystem.deleteFile, system, looked, if_pos removable]

/-! ## Without an entry -/

section Without

variable [DecidableEq I]

theorem look_without_of_ne {place : I} {name : Bytes} (elsewhere : (place, name) ≠ e) :
    (t.without e).look place name = t.look place name := by
  simp only [look, without, Entries.set, if_neg elsewhere]

theorem look_without {there : I} (looked : t.look e.1 e.2 = .ok there) :
    (t.without e).look e.1 e.2 = .error .absent := by
  obtain ⟨⟨openable, size, isDirectory⟩, searchable, -⟩ := look_eq_ok looked
  simp only [look, without, Entries.set, isDirectory, searchable, if_true]

/-- **The path of a file leads nowhere without its entry**, and a file can be made there: the
walk to its directory does not pass the entry. -/
theorem find_without {found : I} {bytes : Bytes} {readable writable : Bool}
    (looked : t.lookup path = .ok e) (held : t.entry e.1 e.2 = some found)
    (isFile : t.inode found = .file bytes readable writable) :
    (t.without e).find path = .error ⟨e.1, [e.2], .absent⟩ := by
  obtain ⟨place, names, there, routed, arrives, last⟩ := lookup_eq_ok looked
  obtain ⟨⟨openable, size, isDirectory⟩, -, same⟩ := look_eq_ok last
  rw [held, Option.some.injEq] at same
  subst same
  have elsewhere : e.1 ≠ found := by
    intro same
    rw [same, isFile] at isDirectory
    cases isDirectory
  have plain : t.ways.link e.1 found = none := by simp only [ways, isFile]
  have links_eq : (t.without e).ways.link = t.ways.link := rfl
  have arrives' : (t.without e).ways.Arrives maxLinks place names e.1 :=
    arrives.avoids links_eq (fun _ _ => look_without_of_ne) last plain (look_file isFile) elsewhere
  obtain ⟨left, goesOn⟩ := arrives'.walk_append
  have routed' : (t.without e).route path = .ok (place, names ++ [e.2]) := routed
  rw [find_of_route routed', goesOn,
    Ways.walk_cons_error (show (t.without e).ways.look _ _ = _ from look_without last)]

end Without

end Directories

end CppFileServer.Utils
