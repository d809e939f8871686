import SyncAudit.FileSystem.Operations
import SyncAudit.Run
import SyncAudit.Text.Lines

/-!
# Sets of valid ids

The ids that count as valid are kept as trimmed lines, whatever the lines hold; a line that is no
repository id is kept too and merely never equals a key. Blank lines are passed over or kept as
the empty text.
-/
namespace SyncAudit

/-- A set of texts, none of them twice. -/
structure IdSet where
  ids : List String
  nodup : ids.Nodup
  deriving DecidableEq

namespace IdSet

def empty : IdSet :=
  ⟨[], List.nodup_nil⟩

def insert (set : IdSet) (id : String) : IdSet :=
  if h : id ∈ set.ids then set else ⟨id :: set.ids, List.nodup_cons.mpr ⟨h, set.nodup⟩⟩

/-- The set of the given texts, taken as they are. -/
def ofList (ids : List String) : IdSet :=
  ids.foldl insert empty

def size (set : IdSet) : Nat :=
  set.ids.length

def isEmpty (set : IdSet) : Bool :=
  set.ids.isEmpty

/-- Whether the key of an id is in the set. -/
def contains (set : IdSet) (id : RepoId) : Bool :=
  decide (id.key ∈ set.ids)

/-- Adds the lines of a stream, the first of which has the given number. A line that is not valid
UTF-8 ends the reading. -/
def addLines (skipBlank : Bool) : Nat → IdSet → List (List UInt8) → Run IdSet
  | _, set, [] => pure set
  | number, set, line :: rest =>
    match Text.ofBytes? line with
    | none => Run.fail (.io .invalidUtf8)
    | some text =>
      let id := Text.trim text
      if id = "" ∧ skipBlank then do
        Run.log (.skippingBlankLine number)
        addLines skipBlank (number + 1) set rest
      else if RepoId.parse? id = none then do
        Run.log (.malformedLine number id)
        addLines skipBlank (number + 1) (set.insert id) rest
      else addLines skipBlank (number + 1) (set.insert id) rest

/-- The set of the trimmed lines of a stream. -/
def read (skipBlank : Bool) (bytes : List UInt8) : Run IdSet :=
  addLines skipBlank 1 empty (Text.lines bytes)

/-- A failure to read the stream, as a failure of the file that it came from. -/
def blame (path : Path) : AuditError → AuditError
  | .io e => .fileOperation path e
  | e => e

/-- The set of the trimmed lines of a file. -/
def load (fs : FileSystem) (skipBlank : Bool) (path : Path) : Run IdSet :=
  match fs.read path with
  | .error e => Run.fail (.fileOperation path e)
  | .ok bytes =>
    let run := read skipBlank bytes
    match run.result with
    | .error e => ⟨run.events, .error (blame path e)⟩
    | .ok set => ⟨run.events ++ [.loadedIds set.size], .ok set⟩

end IdSet
end SyncAudit
