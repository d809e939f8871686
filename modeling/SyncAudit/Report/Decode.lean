import SyncAudit.Json.Decode
import SyncAudit.Report.Export

/-!
# Reports in JSON, read back

The inverse of the export: ids, states, entries, counts and whole reports from JSON values. An
exported report carries more than the report itself, and the reader passes over the rest.
-/
namespace SyncAudit

open Json

def RepoId.ofJson : Decoder RepoId :=
  asStruct "RepoId"
    (fun members => do
      let name ← field? members "name" asText
      let ns ← field? members "namespace" asText
      let ns ← required "namespace" ns
      let name ← required "name" name
      .ok ⟨ns, name⟩)
    (fun items => do
      let shape := "struct RepoId with 2 elements"
      let ns ← element items 0 shape asText
      let name ← element items 1 shape asText
      ending items 2 ⟨ns, name⟩)

namespace RepoStatus

def all : List RepoStatus :=
  [.valid, .validWithConfig, .invalid]

def ofLabel (label : String) : Except DecodeError RepoStatus :=
  match all.find? fun status => status.label = label with
  | some status => .ok status
  | none => .error (.unknownVariant label (all.map RepoStatus.label))

/-- The names of an object's members, each once. -/
def memberNames (members : List (String × Json)) : List String :=
  (members.map Prod.fst).eraseDups

/-- A state by its label, or by an object whose one member has the label for its name and holds
nothing. -/
def ofJson : Decoder RepoStatus
  | .string label => ofLabel label
  | .object members =>
    match memberNames members with
    | [label] => do
      let status ← ofLabel label
      match lookup? members label with
      | some .null => .ok status
      | some v => refuse "unit" v
      | none => .ok status
    | _ => .error (.wrongValue .map "map with a single key")
  | v => refuse "string or map" v

end RepoStatus

def RepoEntry.ofJson : Decoder RepoEntry :=
  asStruct "RepoEntry"
    (fun members => do
      let id ← field? members "id" RepoId.ofJson
      let path ← field? members "path" asPath
      let status ← field? members "status" RepoStatus.ofJson
      let id ← required "id" id
      let path ← required "path" path
      let status ← required "status" status
      .ok ⟨id, path, status⟩)
    (fun items => do
      let shape := "struct RepoEntry with 3 elements"
      let id ← element items 0 shape RepoId.ofJson
      let path ← element items 1 shape asPath
      let status ← element items 2 shape RepoStatus.ofJson
      ending items 3 ⟨id, path, status⟩)

def Summary.ofJson : Decoder Summary :=
  asStruct "AuditSummary"
    (fun members => do
      let invalid ← field? members "invalid" asCount
      let valid ← field? members "valid" asCount
      let validWithConfig ← field? members "valid_with_config" asCount
      let valid ← required "valid" valid
      let validWithConfig ← required "valid_with_config" validWithConfig
      let invalid ← required "invalid" invalid
      .ok ⟨valid, validWithConfig, invalid⟩)
    (fun items => do
      let shape := "struct AuditSummary with 3 elements"
      let valid ← element items 0 shape asCount
      let validWithConfig ← element items 1 shape asCount
      let invalid ← element items 2 shape asCount
      ending items 3 ⟨valid, validWithConfig, invalid⟩)

def Report.ofJson : Decoder Report :=
  asStruct "AuditReport"
    (fun members => do
      let entries ← field? members "entries" (asList RepoEntry.ofJson)
      let generatedAt ← field? members "generated_at" asTimestamp
      let summary ← field? members "summary" Summary.ofJson
      let validIdsLoaded ← field? members "valid_ids_loaded" asCount
      let summary ← required "summary" summary
      let validIdsLoaded ← required "valid_ids_loaded" validIdsLoaded
      let entries ← required "entries" entries
      let generatedAt ← required "generated_at" generatedAt
      .ok ⟨summary, validIdsLoaded, entries, generatedAt⟩)
    (fun items => do
      let shape := "struct AuditReport with 4 elements"
      let summary ← element items 0 shape Summary.ofJson
      let validIdsLoaded ← element items 1 shape asCount
      let entries ← element items 2 shape (asList RepoEntry.ofJson)
      let generatedAt ← element items 3 shape asTimestamp
      ending items 4 ⟨summary, validIdsLoaded, entries, generatedAt⟩)

end SyncAudit
