import SyncAudit.FileSystem.Operations

/-!
# Describing file systems

A file system can be given by the things in it, one after the other. Directories above a thing
are made as needed. The process owns all of them and may do everything with them, except where
permissions are given: there the bits for the owner decide.
-/
namespace SyncAudit

inductive Fixture where
  | directory (path : Path)
  | file (path : Path) (content : List UInt8)
  | link (path target : Path)
  /-- Permissions of the owner: 4 to read or list, 2 to write, 1 to search. -/
  | permissions (path : Path) (bits : Nat)
  deriving DecidableEq, Repr

def Access.ofBits (bits : Nat) : Access :=
  ⟨bits / 4 % 2 = 1, bits / 2 % 2 = 1, bits % 2 = 1⟩

/-- The node with another access. A link has none of its own. -/
def Node.withAccess (access : Access) : Node → Node
  | .file _ content => .file access content
  | .directory _ => .directory access
  | .link target => .link target

namespace FileSystem

/-- The file system with the directories above a path. -/
def withParents (fs : FileSystem) (p : Path) : FileSystem :=
  match p.parent? with
  | some parent => (fs.makeDirectories parent).1
  | none => fs

/-- The file system with one more thing in it. Permissions are not applied here. -/
def add (fs : FileSystem) : Fixture → FileSystem
  | .directory p => (fs.makeDirectories p).1
  | .file p content =>
    let fs := fs.withParents p
    match fs.write p content with
    | .ok fs => fs
    | .error _ => fs
  | .link p target =>
    let fs := fs.withParents p
    match fs.lookup .keepToCreate p with
    | .ok (.missing dir n) => fs.put (n :: dir) (.link target)
    | _ => fs
  | .permissions _ _ => fs

/-- The location that each of the permissions is about. -/
def permissionLocations (fs : FileSystem) (things : List Fixture) : List (Location × Nat) :=
  things.filterMap fun
    | .permissions p bits =>
      match fs.locate .follow p with
      | .ok (loc, _) => some (loc, bits)
      | .error _ => none
    | _ => none

/-- The file system with other permissions of what stands at a location. -/
def restrict (fs : FileSystem) (given : Location × Nat) : FileSystem :=
  match fs.node? given.1 with
  | some node => fs.put given.1 (node.withAccess (.ofBits given.2))
  | none => fs

/-- The file system with the given things in it, seen from the directory `here`. Permissions come
last, so that they bar none of the things. -/
def ofFixtures (here : Location) (things : List Fixture) : FileSystem :=
  let fs := things.foldl add (empty here)
  (permissionLocations fs things).foldl restrict fs

end FileSystem
end SyncAudit
