import SyncAudit.Proofs.Settings.Layers
import SyncAudit.Proofs.Text.Encoding
import SyncAudit.Settings.Environment

/-!
# Settings given by variables

Each setting has one variable of its own. An environment gives values when these are the only
variables that settings are taken from, each with a text that reads as a value of its setting:
a truth value in any case for a flag, and for the marker a text that reads as nothing else.
Where each of them has a text, the layer of the environment is made of these texts.
-/
namespace SyncAudit

open Settings (Given Setting Flag Scalar Value)

namespace Settings.Setting

/-- The variable of a setting. -/
def variableName : Setting → String
  | .marker => "REPO_AUDIT_AUDIT__CONFIG_MARKER"
  | .flag .skipBlankLines => "REPO_AUDIT_AUDIT__SKIP_BLANK_LINES"
  | .flag .skipHidden => "REPO_AUDIT_AUDIT__SKIP_HIDDEN"
  | .flag .followLinks => "REPO_AUDIT_AUDIT__FOLLOW_LINKS"
  | .flag .listStale => "REPO_AUDIT_REPORT__LIST_STALE"
  | .flag .prettyJson => "REPO_AUDIT_REPORT__PRETTY_JSON"

end Settings.Setting

namespace Environment

/-- A text that is no truth value and no number. -/
def IsText (text : String) : Prop :=
  bool? text = none ∧ word64? text.toList = none ∧ Double.parse? text.toList = none

/-- The variables of settings are those of the given settings, with texts that read as the given
values. -/
structure Gives (env : Environment) (given : Given) : Prop where
  only : ∀ row ∈ env.vars, key? row.1 ≠ none → ∃ s : Setting, row.1 = s.variableName
  marker : ∀ value, (Setting.marker.variableName, value) ∈ env.vars →
    ∃ text, value = Text.toBytes text ∧ given.marker = some text ∧ IsText text
  flag : ∀ (f : Flag) value, ((Setting.flag f).variableName, value) ∈ env.vars →
    ∃ (text : String) (b : Bool), value = Text.toBytes text ∧ given.flag f = some b ∧
      Text.lower text = if b then "true" else "false"
  set : ∀ s, given.scalar? s ≠ none → s.variableName ∈ env.vars.map Prod.fst

theorem Gives.scalar? {env : Environment} {given : Given} (h : env.Gives given) {s : Setting}
    {value : List UInt8} (hmem : (s.variableName, value) ∈ env.vars) :
    ∃ text, value = Text.toBytes text ∧ given.scalar? s = some (scalar text) := by
  cases s with
  | marker =>
    obtain ⟨text, rfl, hgiven, hbool, hword, hdouble⟩ := h.marker value hmem
    refine ⟨text, rfl, ?_⟩
    rw [Given.scalar?, hgiven, scalar, hbool, hword, hdouble]
    rfl
  | flag f =>
    obtain ⟨text, b, rfl, hgiven, htext⟩ := h.flag f value hmem
    have hbool : bool? text = some b := by
      rw [bool?, htext]
      cases b <;> decide
    refine ⟨text, rfl, ?_⟩
    rw [Given.scalar?, hgiven, scalar, hbool]
    rfl

/-! ## Variables that are no text -/

end Environment
end SyncAudit
