import SyncAudit.Classify
import SyncAudit.Report.Progress

/-!
# Audits

An audit checks that it was given a file of ids and a directory, loads the ids, scans the
directory and classifies what it found, in this order. The first failure ends it.
-/
namespace SyncAudit

/-- The id list must lead to a file. -/
def checkIdsFile (fs : FileSystem) (path : Path) : Except AuditError Unit :=
  match fs.stat path with
  | .error e => .error (.fileOperation path e)
  | .ok node => if node.isFile then .ok () else .error (.validation (.idsNotFile path))

/-- The root must lead to a directory. -/
def checkRoot (fs : FileSystem) (path : Path) : Except AuditError Unit :=
  match fs.stat path with
  | .error e => .error (.fileOperation path e)
  | .ok node =>
    if node.isDirectory then .ok () else .error (.validation (.rootNotDirectory path))

/-- What an audit has counted and reported. -/
structure Audited where
  report : Report
  progress : Progress
  deriving DecidableEq

def Audited.push (a : Audited) (entry : RepoEntry) : Audited :=
  ⟨a.report.push entry, a.progress.record entry.status⟩

/-- Classifies repositories one after the other. -/
def classifyAll (fs : FileSystem) (valid : IdSet) (marker : Path) :
    Audited → List FoundRepo → Run Audited
  | audited, [] => pure audited
  | audited, repo :: rest => do
    let entry ← classify fs valid marker repo
    classifyAll fs valid marker (audited.push entry) rest

/-- Scans the root and classifies what is there against a set of ids. -/
def auditAgainst (fs : FileSystem) (options : AuditOptions) (style : ProgressStyle)
    (now : Timestamp) (valid : IdSet) (root : Path) : Run Audited := do
  let repos ← Scan.scan fs options root
  let start : Audited := ⟨.start valid.size now, .start style repos.length⟩
  let audited ← classifyAll fs valid options.configMarker start repos
  Run.log (.auditComplete audited.report.total)
  pure ⟨audited.report, audited.progress.finish⟩

/-- Audits the directory at `root` against the id list at `ids`. -/
def audit (fs : FileSystem) (options : AuditOptions) (style : ProgressStyle) (now : Timestamp)
    (ids root : Path) : Run Audited := do
  Run.ofExcept (checkIdsFile fs ids)
  Run.ofExcept (checkRoot fs root)
  let valid ← IdSet.load fs options.skipBlankLines ids
  auditAgainst fs options style now valid root

end SyncAudit
