import SyncAudit.IdSet
import SyncAudit.Report.Basic
import SyncAudit.Scan.Walk

/-!
# Classification

A repository is valid if its key is among the valid ids, and configured if besides the marker
exists below its directory. The marker of a repository that is not valid is never looked for.
-/
namespace SyncAudit

/-- Whether the marker exists below a repository directory. -/
def hasMarker (fs : FileSystem) (marker repo : Path) : Except AuditError Bool :=
  (fs.exists? (repo.join marker)).mapError (.fileOperation (repo.join marker))

/-- The entry of a found repository. -/
def classify (fs : FileSystem) (valid : IdSet) (marker : Path) (repo : FoundRepo) :
    Run RepoEntry := do
  Run.log (.checking repo.id)
  if valid.contains repo.id then
    Run.log (.isValid repo.path)
    let configured ← Run.ofExcept (hasMarker fs marker repo.path)
    pure ⟨repo.id, repo.path, if configured then .validWithConfig else .valid⟩
  else
    Run.log (.notValid repo.path)
    pure ⟨repo.id, repo.path, .invalid⟩

end SyncAudit
