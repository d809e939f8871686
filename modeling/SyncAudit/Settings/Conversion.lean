import SyncAudit.Settings.Basic
import SyncAudit.Settings.Value
import SyncAudit.Text.Lowercase

/-!
# Settings out of values

A flag may be written as a truth value, as a number or as one of a few words; a text may be
written as any scalar. A section is a table, or an array of its settings in the order in which
the section declares them. What is not given has its default, and what is not known is passed
over.
-/
namespace SyncAudit.Settings

/-- A reading of the value under a key. -/
abbrev Converter (α : Type) := String → Value → Except SettingsError α

def refuse {α : Type} (wanted key : String) (v : Value) : Except SettingsError α :=
  .error (.wrongSetting v.found wanted key v.origin)

/-- The flag that a word stands for, its case aside. -/
def flagOfWord? (word : String) : Option Bool :=
  if word = "1" ∨ word = "true" ∨ word = "on" ∨ word = "yes" then some true
  else if word = "0" ∨ word = "false" ∨ word = "off" ∨ word = "no" then some false
  else none

def asFlag : Converter Bool := fun key v =>
  match v with
  | .scalar _ (.bool b) => .ok b
  | .scalar _ (.integer n) => .ok (n ≠ 0)
  | .scalar _ (.float x) => .ok !x.isZero
  | .scalar origin (.text s) =>
    let word := Text.lower s
    match flagOfWord? word with
    | some b => .ok b
    | none => .error (.wrongSetting (.text word) "a boolean" key origin)
  | v => refuse "a boolean" key v

def asText : Converter String := fun key v =>
  match v with
  | .scalar _ (.bool b) => .ok (if b then "true" else "false")
  | .scalar _ (.integer n) => .ok (String.ofList (decimalInt n))
  | .scalar _ (.float x) => .ok x.plainText
  | .scalar _ (.text s) => .ok s
  | v => refuse "a string" key v

def asPath : Converter Path := fun key v =>
  (asText key v).map Path.ofString

/-- The value that a name has in a table. -/
def member? (members : Value.Members) (name : String) : Option Value :=
  members.lookup name

/-- What a section gives for one of its settings: by name in a table, by position in an array. -/
inductive Section where
  | byName (members : Value.Members)
  | byPosition (items : List Value)

/-- The setting with a name and a position in the section under a key, or its default. -/
def Section.get {α : Type} (part : Section) (key name : String) (position : Nat)
    (convert : Converter α) (default : α) : Except SettingsError α :=
  match part with
  | .byName members =>
    match member? members name with
    | some v => convert s!"{key}.{name}" v
    | none => .ok default
  | .byPosition items =>
    match items[position]? with
    | some v => convert s!"{key}[{position}]" v
    | none => .ok default

/-- The section that a value is. -/
def asSection (wanted key : String) : Value → Except SettingsError Section
  | .table _ members => .ok (.byName members)
  | .array _ items => .ok (.byPosition items)
  | v => .error (.wrongSection v.found wanted key)

/-- The section under a key, which is empty if it is not given. -/
def sectionAt (root : Value.Members) (wanted key : String) : Except SettingsError Section :=
  match member? root key with
  | some v => asSection wanted key v
  | none => .ok (.byName [])

end SyncAudit.Settings

namespace SyncAudit

def AuditOptions.ofSection (part : Settings.Section) : Except SettingsError AuditOptions := do
  let d := AuditOptions.default
  let marker ← part.get "audit" "config_marker" 0 Settings.asPath d.configMarker
  let skipBlankLines ← part.get "audit" "skip_blank_lines" 1 Settings.asFlag d.skipBlankLines
  let skipHidden ← part.get "audit" "skip_hidden" 2 Settings.asFlag d.skipHidden
  let followLinks ← part.get "audit" "follow_links" 3 Settings.asFlag d.followLinks
  .ok ⟨marker, skipBlankLines, skipHidden, followLinks⟩

def ReportOptions.ofSection (part : Settings.Section) : Except SettingsError ReportOptions := do
  let d := ReportOptions.default
  let listStale ← part.get "report" "list_stale" 0 Settings.asFlag d.listStale
  let prettyJson ← part.get "report" "pretty_json" 1 Settings.asFlag d.prettyJson
  .ok ⟨listStale, prettyJson⟩

/-- The settings that the members of a table give. -/
def Settings.ofMembers (root : Settings.Value.Members) : Except SettingsError Settings := do
  let audit ← AuditOptions.ofSection (← sectionAt root "struct AuditConfig" "audit")
  let report ← ReportOptions.ofSection (← sectionAt root "struct ReportConfig" "report")
  .ok ⟨audit, report⟩

end SyncAudit
