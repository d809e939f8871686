import SyncAudit.FileSystem.Lookup
import SyncAudit.Sorting

/-!
# File operations

Reading a file, listing a directory, asking what a path leads to, writing a file and making
directories. Each is a function of the file system, with the access of the auditing process.
-/
namespace SyncAudit.FileSystem

/-- The path of a location from the top. -/
def pathTo (loc : Location) : Path :=
  ⟨slash :: (Path.ofNames loc.reverse).bytes⟩

/-- The path of the current directory from the top. -/
def herePath (fs : FileSystem) : Path :=
  pathTo fs.here

/-- The node that a path leads to, links followed. -/
def stat (fs : FileSystem) (p : Path) : Except IoError Node :=
  (fs.locate .follow p).map Prod.snd

/-- The node at a path, a link at its end not followed. -/
def linkStat (fs : FileSystem) (p : Path) : Except IoError Node :=
  (fs.locate .keep p).map Prod.snd

def isDirectory (fs : FileSystem) (p : Path) : Bool :=
  match fs.stat p with
  | .ok node => node.isDirectory
  | .error _ => false

def isFile (fs : FileSystem) (p : Path) : Bool :=
  match fs.stat p with
  | .ok node => node.isFile
  | .error _ => false

/-- Whether a path is itself a symbolic link. -/
def isLink (fs : FileSystem) (p : Path) : Bool :=
  match fs.linkStat p with
  | .ok node => node.isLink
  | .error _ => false

/-- Whether a path leads to something. Only plain absence counts as a no. -/
def exists? (fs : FileSystem) (p : Path) : Except IoError Bool :=
  match fs.stat p with
  | .ok _ => .ok true
  | .error (.os .noEntry) => .ok false
  | .error e => .error e

/-- The location that a path leads to, opened for reading. -/
def openForReading (fs : FileSystem) (p : Path) : Except IoError (Location × Node) :=
  match fs.locate .follow p with
  | .ok (loc, .file access content) =>
    if access.read then .ok (loc, .file access content) else .error (.os .accessDenied)
  | .ok (loc, .directory access) =>
    if access.read then .ok (loc, .directory access) else .error (.os .accessDenied)
  | .ok (loc, .link target) => .ok (loc, .link target)
  | .error e => .error e

/-- The bytes of a file. -/
def read (fs : FileSystem) (p : Path) : Except IoError (List UInt8) :=
  match fs.openForReading p with
  | .ok (_, .file _ content) => .ok content
  | .ok _ => .error (.os .isDirectory)
  | .error e => .error e

/-- Names in the order of their bytes. -/
def sortNames (names : List Name) : List Name :=
  sortBy (· ≤ ·) names

/-- The location of a directory and the names in it, in the order of their bytes. -/
def list (fs : FileSystem) (p : Path) : Except IoError (Location × List Name) :=
  match fs.locate .follow p with
  | .ok (loc, .directory access) =>
    if access.read then .ok (loc, sortNames (fs.namesIn loc)) else .error (.os .accessDenied)
  | .ok _ => .error (.os .notDirectory)
  | .error e => .error e

/-- The file system after a file has been given a content, and created if it was absent. -/
def write (fs : FileSystem) (p : Path) (content : List UInt8) : Except IoError FileSystem :=
  match fs.lookup .followToCreate p with
  | .ok (.found loc (.file access _)) =>
    if access.write then .ok (fs.put loc (.file access content)) else .error (.os .accessDenied)
  | .ok (.found _ _) => .error (.os .isDirectory)
  | .ok (.missing dir n) =>
    match fs.node? dir with
    | some (.directory access) =>
      if access.write then .ok (fs.put (n :: dir) (.file .full content))
      else .error (.os .accessDenied)
    | _ => .error (.os .notDirectory)
  | .error e => .error e

/-- The file system with one more directory. -/
def makeDirectory (fs : FileSystem) (p : Path) : Except IoError FileSystem :=
  match fs.lookup .keepToCreate p with
  | .ok (.found _ _) => .error (.os .exists)
  | .ok (.missing dir n) =>
    match fs.node? dir with
    | some (.directory access) =>
      if access.write then .ok (fs.put (n :: dir) (.directory .full))
      else .error (.os .accessDenied)
    | _ => .error (.os .notDirectory)
  | .error e => .error e

/-- Makes a directory and, where the one above it is absent, that one first. The file system is
returned on failure too, with the directories made so far. -/
def makeDirectoriesWithin (fs : FileSystem) : Nat → Path → FileSystem × Except IoError Unit
  | 0, _ => (fs, .error (.os .noEntry))
  | fuel + 1, p =>
    if p.isEmpty then (fs, .ok ())
    else
      match fs.makeDirectory p with
      | .ok fs => (fs, .ok ())
      | .error (.os .noEntry) =>
        match p.parent? with
        | none => (fs, .error (.os .noEntry))
        | some parent =>
          match fs.makeDirectoriesWithin fuel parent with
          | (fs, .error e) => (fs, .error e)
          | (fs, .ok ()) =>
            match fs.makeDirectory p with
            | .ok fs => (fs, .ok ())
            | .error e => (fs, if fs.isDirectory p then .ok () else .error e)
      | .error e => (fs, if fs.isDirectory p then .ok () else .error e)

/-- Makes a directory together with those above it. Each parent is shorter than its path. -/
def makeDirectories (fs : FileSystem) (p : Path) : FileSystem × Except IoError Unit :=
  fs.makeDirectoriesWithin (p.bytes.length + 1) p

end SyncAudit.FileSystem
