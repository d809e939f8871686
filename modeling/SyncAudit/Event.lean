import SyncAudit.RepoId

/-!
# Log events

What an audit tells while it runs, event by event. The time that an audit took is not known to
the event that reports its end and is given when the message is written.
-/
namespace SyncAudit

inductive Level where
  | debug
  | info
  | warn
  deriving DecidableEq, Repr

def Level.name : Level → String
  | .debug => "DEBUG"
  | .info => "INFO"
  | .warn => "WARN"

inductive Event where
  | skippingBlankLine (number : Nat)
  | malformedLine (number : Nat) (id : String)
  | loadedIds (count : Nat)
  | scanning (root : Path)
  | processing (path : Path)
  | skippingLink (e : WalkError)
  | skippingNonDirectory (path : Path)
  | skippingHidden (path : Path)
  | undecodableName (lossy : String) (path : Path)
  | foundRepos (count : Nat)
  | checking (id : RepoId)
  | isValid (path : Path)
  | notValid (path : Path)
  | auditComplete (count : Nat)
  | writingReport (path : Path)
  | exportComplete (count stale : Nat)
  | started
  | loadingSettings (file : Path)
  | settingsFileMissing (file : Path)
  | fallingBack (e : AuditError)
  deriving DecidableEq, Repr

namespace Event

def level : Event → Level
  | .skippingBlankLine _ | .skippingNonDirectory _ | .skippingHidden _ => .debug
  | .malformedLine _ _ | .skippingLink _ | .undecodableName _ _ | .settingsFileMissing _
  | .fallingBack _ => .warn
  | _ => .info

/-- The message of an event, where an audit took the time `elapsed`. -/
def message (elapsed : String) : Event → String
  | .skippingBlankLine number => s!"Skipping blank line {number}"
  | .malformedLine number id =>
    s!"Line {number} is not a namespace/repo id and will never match: {Text.quote id}"
  | .loadedIds count => s!"Got {count} repos"
  | .scanning root => s!"Scanning sync directory: {root.display}"
  | .processing path => s!"Processing {path.display}"
  | .skippingLink e => s!"Skipping unfollowable symlink: {e.message}"
  | .skippingNonDirectory path => s!"Skipping non-directory: {path.display}"
  | .skippingHidden path => s!"Skipping hidden directory: {path.display}"
  | .undecodableName lossy path =>
    s!"Directory name is not valid UTF-8, checking it as {Text.quote lossy}: {path.display}"
  | .foundRepos count => s!"Found {count} repo directories"
  | .checking id => s!"Checking {id.key}"
  | .isValid path => s!"Is valid: {path.display}"
  | .notValid path => s!"Not valid: {path.display}"
  | .auditComplete count => s!"Audit of {count} repos complete in {elapsed}"
  | .writingReport path => s!"Writing JSON report to {path.display}"
  | .exportComplete count stale => s!"Export complete: {count} repos ({stale} stale)"
  | .started => "Repo audit"
  | .loadingSettings file => s!"Loading configuration from: {file.display}"
  | .settingsFileMissing file =>
    s!"Config file {file.display} not found, using default configuration"
  | .fallingBack e => s!"Falling back to built-in defaults: {e.message}"

end Event
end SyncAudit
