import SyncAudit.FileSystem.Basic

/-!
# From paths to locations

A path is followed name by name. Every directory on the way, the last one included, must allow
searching; a symbolic link is replaced by the names of its target, forty times at most. A name
that is absent is an error unless it is the last one, whose absence is reported with the directory
that lacks it.
-/
namespace SyncAudit

/-- What is done with a symbolic link at the end of a path. -/
inductive LastLink where
  /-- It is followed. -/
  | follow
  /-- It stands for itself, unless a slash behind it asks for the directory it leads to. -/
  | keep
  /-- It is followed, and no slash may stand behind the last name: a file is to be created. -/
  | followToCreate
  /-- It stands for itself: a directory is to be created in this place. -/
  | keepToCreate
  deriving DecidableEq, Repr

/-- Where a path leads. -/
inductive Reached where
  | found (loc : Location) (node : Node)
  | missing (dir : Location) (name : Name)
  deriving DecidableEq, Repr

namespace FileSystem

def maxName : Nat := 255

def maxPath : Nat := 4095

def maxLinks : Nat := 40

/-- The names still to be followed, whether a slash stands behind the last of them, and the
directory to start from. -/
structure Route where
  start : Location
  names : List Name
  slashEnded : Bool

def Route.ofPath (base : Location) (p : Path) : Route :=
  ⟨if p.isAbsolute then [] else base, p.names, p.endsInSlash⟩

/-- The route that goes on through a link's target. -/
def Route.through (base : Location) (target : Path) (rest : List Name) (slashEnded : Bool) :
    Route :=
  let route := Route.ofPath base target
  ⟨route.start, route.names ++ rest, slashEnded || (rest.isEmpty && route.slashEnded)⟩

/-- Follows names that lead through directories; `onLink` takes over at a symbolic link. -/
def followNames (fs : FileSystem) (last : LastLink) (onLink : Route → Except Errno Reached)
    (slashEnded : Bool) : Location → List Name → Except Errno Reached
  | loc, [] =>
    match fs.node? loc with
    | some node => .ok (.found loc node)
    | none => .error .noEntry
  | loc, n :: rest =>
    match fs.node? loc with
    | some (.directory access) =>
      if !access.search then .error .accessDenied
      else if rest.isEmpty && slashEnded && last = .followToCreate then .error .isDirectory
      else if n = dot then followNames fs last onLink slashEnded loc rest
      else if n = dotDot then followNames fs last onLink slashEnded loc.tail rest
      else if maxName < n.length then .error .nameTooLong
      else
        match fs.node? (n :: loc) with
        | none => if rest.isEmpty then .ok (.missing loc n) else .error .noEntry
        | some (.link target) =>
          if rest.isEmpty && (last = .keepToCreate || (last = .keep && !slashEnded)) then
            .ok (.found (n :: loc) (.link target))
          else onLink (Route.through loc target rest slashEnded)
        | some (.file access content) =>
          if rest.isEmpty && (last = .keepToCreate || !slashEnded) then
            .ok (.found (n :: loc) (.file access content))
          else .error .notDirectory
        | some (.directory _) => followNames fs last onLink slashEnded (n :: loc) rest
    | some _ => .error .notDirectory
    | none => .error .noEntry

/-- Follows a route with at most `links` symbolic links on it. -/
def followRoute (fs : FileSystem) (last : LastLink) : Nat → Route → Except Errno Reached
  | 0, route =>
    fs.followNames last (fun _ => .error .tooManyLinks) route.slashEnded route.start route.names
  | links + 1, route =>
    fs.followNames last (fs.followRoute last links) route.slashEnded route.start route.names

/-- Where a path leads from the directory `fs.here`. -/
def lookup (fs : FileSystem) (last : LastLink) (p : Path) : Except IoError Reached :=
  if p.bytes.contains 0 then .error .nulInPath
  else if p.isEmpty then .error (.os .noEntry)
  else if maxPath < p.bytes.length then .error (.os .nameTooLong)
  else (fs.followRoute last maxLinks (Route.ofPath fs.here p)).mapError .os

/-- What a path leads to, absence being an error. -/
def locate (fs : FileSystem) (last : LastLink) (p : Path) : Except IoError (Location × Node) :=
  match fs.lookup last p with
  | .ok (.found loc node) => .ok (loc, node)
  | .ok (.missing _ _) => .error (.os .noEntry)
  | .error e => .error e

end FileSystem
end SyncAudit
