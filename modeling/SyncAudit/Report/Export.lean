import SyncAudit.FileSystem.Operations
import SyncAudit.Json.Printer
import SyncAudit.Report.Basic
import SyncAudit.Run

/-!
# Exported reports

A report is written as one JSON object: the number of repositories and the keys of the stale ones,
then the report itself. Paths are written as text, so a report with a path that is not valid UTF-8
cannot be exported.
-/
namespace SyncAudit

def RepoStatus.label : RepoStatus → String
  | .valid => "valid"
  | .validWithConfig => "valid_with_config"
  | .invalid => "invalid"

def RepoId.toJson (id : RepoId) : Json :=
  .object [("namespace", .string id.ns), ("name", .string id.name)]

def RepoEntry.toJson (entry : RepoEntry) : Except RenderError Json :=
  match Text.ofBytes? entry.path.bytes with
  | none => .error .undecodablePath
  | some path =>
    .ok (.object [("id", entry.id.toJson), ("path", .string path),
      ("status", .string entry.status.label)])

def Summary.toJson (s : Summary) : Json :=
  .object [("valid", .ofNat s.valid), ("valid_with_config", .ofNat s.validWithConfig),
    ("invalid", .ofNat s.invalid)]

namespace Report

def entriesToJson : List RepoEntry → Except RenderError (List Json)
  | [] => .ok []
  | entry :: rest => do
    let here ← entry.toJson
    let later ← entriesToJson rest
    .ok (here :: later)

/-- The members of a report by itself. -/
def members (r : Report) : Except RenderError (List (String × Json)) := do
  let entries ← entriesToJson r.entries
  .ok [("summary", r.summary.toJson), ("valid_ids_loaded", .ofNat r.validIdsLoaded),
    ("entries", .array entries), ("generated_at", .string r.generatedAt.toString)]

/-- A report with the number of its entries and the keys of the stale ones in front. -/
def toJson (r : Report) : Except RenderError Json := do
  let members ← r.members
  .ok (.object ([("total_repos", .ofNat r.total),
    ("stale_repos", .strings (r.stale.map (·.id.key)))] ++ members))

/-- The text of an exported report. -/
def render (pretty : Bool) (r : Report) : Except AuditError String :=
  match r.toJson with
  | .ok json => .ok (if pretty then json.pretty else json.compact)
  | .error e => .error (.serialization e)

/-- Makes the directories above an output file. -/
def prepareOutput (fs : FileSystem) (output : Path) : FileSystem × Except AuditError Unit :=
  match output.parent? with
  | none => (fs, .ok ())
  | some parent =>
    if parent.isEmpty then (fs, .ok ())
    else
      let (fs, result) := fs.makeDirectories parent
      (fs, result.mapError (.fileOperation parent))

/-- Writes a report to a file. The text is complete before the file is touched. -/
def writeTo (fs : FileSystem) (pretty : Bool) (output : Path) (r : Report) :
    FileSystem × Run Unit :=
  match r.render pretty with
  | .error e => (fs, ⟨[.writingReport output], .error e⟩)
  | .ok text =>
    match fs.write output (Text.toBytes text) with
    | .error e => (fs, ⟨[.writingReport output], .error (.fileOperation output e)⟩)
    | .ok fs =>
      (fs, ⟨[.writingReport output, .exportComplete r.total r.summary.invalid], .ok ()⟩)

end Report
end SyncAudit
