import SyncAudit.Json.Decode
import SyncAudit.Settings.Basic

/-!
# Settings in JSON

Settings as a JSON value gives them. Whatever the value leaves out has its default.
-/
namespace SyncAudit

open Json

def AuditOptions.ofJson : Decoder AuditOptions :=
  let d := AuditOptions.default
  asStruct "AuditConfig"
    (fun members => do
      let marker ← field? members "config_marker" asPath
      let followLinks ← field? members "follow_links" asFlag
      let skipBlankLines ← field? members "skip_blank_lines" asFlag
      let skipHidden ← field? members "skip_hidden" asFlag
      .ok ⟨marker.getD d.configMarker, skipBlankLines.getD d.skipBlankLines,
        skipHidden.getD d.skipHidden, followLinks.getD d.followLinks⟩)
    (fun items => do
      let marker ← element? items 0 asPath
      let skipBlankLines ← element? items 1 asFlag
      let skipHidden ← element? items 2 asFlag
      let followLinks ← element? items 3 asFlag
      ending items 4 ⟨marker.getD d.configMarker, skipBlankLines.getD d.skipBlankLines,
        skipHidden.getD d.skipHidden, followLinks.getD d.followLinks⟩)

def ReportOptions.ofJson : Decoder ReportOptions :=
  let d := ReportOptions.default
  asStruct "ReportConfig"
    (fun members => do
      let listStale ← field? members "list_stale" asFlag
      let prettyJson ← field? members "pretty_json" asFlag
      .ok ⟨listStale.getD d.listStale, prettyJson.getD d.prettyJson⟩)
    (fun items => do
      let listStale ← element? items 0 asFlag
      let prettyJson ← element? items 1 asFlag
      ending items 2 ⟨listStale.getD d.listStale, prettyJson.getD d.prettyJson⟩)

def Settings.ofJson : Decoder Settings :=
  asStruct "Config"
    (fun members => do
      let audit ← field? members "audit" AuditOptions.ofJson
      let report ← field? members "report" ReportOptions.ofJson
      .ok ⟨audit.getD .default, report.getD .default⟩)
    (fun items => do
      let audit ← element? items 0 AuditOptions.ofJson
      let report ← element? items 1 ReportOptions.ofJson
      ending items 2 ⟨audit.getD .default, report.getD .default⟩)

end SyncAudit
