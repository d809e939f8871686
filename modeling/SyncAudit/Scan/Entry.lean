import SyncAudit.FileSystem.Operations
import SyncAudit.Run
import SyncAudit.Settings.Basic

/-!
# What becomes of a directory entry

The walk goes two levels down from a root. Each entry that it meets is admitted as a directory,
passed over as a file or a hidden directory, passed over as a link that cannot be followed, or it
breaks the walk off.
-/
namespace SyncAudit.Scan

/-- A directory on the walk's path, by its path and by where that leads. -/
structure Ancestor where
  path : Path
  loc : Location
  deriving DecidableEq, Repr

inductive Outcome where
  | admitted (path : Path)
  | notDirectory (path : Path)
  | hidden (path : Path)
  | unfollowable (e : WalkError)
  | broken (e : WalkError)
  deriving DecidableEq, Repr

/-- Whether an error of the walk comes from a link that is passed over: a loop, or any error whose
path is itself a symbolic link. -/
def isUnfollowable (fs : FileSystem) : WalkError → Bool
  | .loop _ _ => true
  | .io path _ => fs.isLink path
  | .unopened _ => false

def Outcome.ofError (fs : FileSystem) (e : WalkError) : Outcome :=
  if isUnfollowable fs e then .unfollowable e else .broken e

/-- Whether a name is text that starts with a dot. -/
def isHidden (n : Name) : Bool :=
  match Text.ofBytes? n with
  | some s => s.toList.head? = some '.'
  | none => false

/-- The outcome for an entry that is a directory. -/
def sift (options : AuditOptions) (path : Path) (n : Name) : Outcome :=
  if options.skipHidden && isHidden n then .hidden path else .admitted path

/-- The outcome for a link that is followed. A link to a directory on the walk's path, innermost
first, is a loop. -/
def follow (fs : FileSystem) (options : AuditOptions) (above : List Ancestor) (path : Path)
    (n : Name) : Outcome :=
  match fs.locate .follow path with
  | .error e => .ofError fs (.io path e)
  | .ok (_, .directory _) =>
    match fs.openForReading path with
    | .error e => .ofError fs (.unopened e)
    | .ok (loc, _) =>
      match above.find? fun a => a.loc = loc with
      | some a => .ofError fs (.loop path a.path)
      | none => sift options path n
  | .ok _ => .notDirectory path

/-- The outcome for the entry `n` of the directory at `dir`, which leads to the location
`dirLoc`. -/
def visit (fs : FileSystem) (options : AuditOptions) (above : List Ancestor) (dir : Path)
    (dirLoc : Location) (n : Name) : Outcome :=
  let path := dir.child n
  match fs.node? (n :: dirLoc) with
  | some (.directory _) => sift options path n
  | some (.link _) =>
    if options.followLinks then follow fs options above path n else .notDirectory path
  | _ => .notDirectory path

end SyncAudit.Scan
