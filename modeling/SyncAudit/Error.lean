import SyncAudit.Settings.Error

/-!
# What can go wrong

Every failure of an audit, with its cause. Each belongs to one of six kinds, and its message opens
with the words of its kind.
-/
namespace SyncAudit

/-- An error met while walking the directories under the root. -/
inductive WalkError where
  | io (path : Path) (e : IoError)
  /-- A link whose target could not be opened to compare it with the directories above it. -/
  | unopened (e : IoError)
  | loop (child ancestor : Path)
  deriving DecidableEq, Repr

def WalkError.message : WalkError → String
  | .io path e => s!"IO error for operation on {path.display}: {e.message}"
  | .unopened e => e.message
  | .loop child ancestor =>
    s!"File system loop found: {child.display} points to an ancestor {ancestor.display}"

inductive ValidationError where
  | malformedId (trimmed : String)
  | idsNotFile (path : Path)
  | rootNotDirectory (path : Path)
  | noNamespace (path : Path)
  deriving DecidableEq, Repr

def ValidationError.message : ValidationError → String
  | .malformedId trimmed =>
    s!"Invalid repo id (expected namespace/repo): {Text.quote trimmed}"
  | .idsNotFile path =>
    s!"Repo id list must be a file of namespace/repo lines: {path.display}"
  | .rootNotDirectory path =>
    s!"Sync root must be a directory of namespace/repo folders: {path.display}"
  | .noNamespace path => s!"Repo path has no namespace: {path.display}"

inductive RenderError where
  | undecodablePath
  deriving DecidableEq, Repr

def RenderError.message : RenderError → String
  | .undecodablePath => "path contains invalid UTF-8 characters"

inductive AuditError where
  | config (e : SettingsError)
  | fileOperation (path : Path) (e : IoError)
  | walk (e : WalkError)
  | validation (e : ValidationError)
  | io (e : IoError)
  | serialization (e : RenderError)
  deriving DecidableEq, Repr

/-- The kinds of failure. A failed file operation carries the path it was about. -/
inductive ErrorKind where
  | config
  | fileOperation (path : Path)
  | walk
  | validation
  | io
  | serialization
  deriving DecidableEq, Repr

/-- The message of a failure of this kind whose cause has the given message. -/
def ErrorKind.message (cause : String) : ErrorKind → String
  | .config => s!"Configuration error: {cause}"
  | .fileOperation path => s!"File operation failed for {path.display}: {cause}"
  | .walk => s!"Directory walk failed: {cause}"
  | .validation => s!"Validation error: {cause}"
  | .io => s!"IO error: {cause}"
  | .serialization => s!"Serialization error: {cause}"

namespace AuditError

def kind : AuditError → ErrorKind
  | .config _ => .config
  | .fileOperation path _ => .fileOperation path
  | .walk _ => .walk
  | .validation _ => .validation
  | .io _ => .io
  | .serialization _ => .serialization

def cause : AuditError → String
  | .config e => e.message
  | .fileOperation _ e => e.message
  | .walk e => e.message
  | .validation e => e.message
  | .io e => e.message
  | .serialization e => e.message

def message (e : AuditError) : String :=
  e.kind.message e.cause

end AuditError
end SyncAudit
