import SyncAudit.Path

/-!
# Settings

What an audit looks at and how its report is shown, with the values that hold when nothing else
is said. The marker is the file whose presence in a repository makes it count as configured.
-/
namespace SyncAudit

structure AuditOptions where
  /-- The path of the marker, taken from the directory of a repository. -/
  configMarker : Path
  skipBlankLines : Bool
  skipHidden : Bool
  followLinks : Bool
  deriving DecidableEq, Repr

structure ReportOptions where
  listStale : Bool
  prettyJson : Bool
  deriving DecidableEq, Repr

structure Settings where
  audit : AuditOptions
  report : ReportOptions
  deriving DecidableEq, Repr

def AuditOptions.default : AuditOptions :=
  ⟨.ofString ".oxen/config.toml", true, false, true⟩

def ReportOptions.default : ReportOptions :=
  ⟨true, true⟩

def Settings.default : Settings :=
  ⟨.default, .default⟩

end SyncAudit
