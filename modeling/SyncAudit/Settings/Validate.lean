import SyncAudit.Settings.Basic
import SyncAudit.Settings.Error

/-!
# Valid settings

A marker is looked for inside each repository, so it names something and does not start at the
root of the file system.
-/
namespace SyncAudit

def AuditOptions.Valid (options : AuditOptions) : Prop :=
  options.configMarker.isEmpty = false ∧ options.configMarker.isAbsolute = false

instance AuditOptions.decidableValid (options : AuditOptions) : Decidable options.Valid := by
  unfold AuditOptions.Valid; infer_instance

/-- Refuses settings whose marker is empty or absolute. -/
def Settings.validate (settings : Settings) : Except SettingsError Unit :=
  let marker := settings.audit.configMarker
  if marker.isEmpty then .error .markerEmpty
  else if marker.isAbsolute then .error (.markerAbsolute marker)
  else .ok ()

theorem Settings.validate_eq_ok_iff (settings : Settings) :
    settings.validate = .ok () ↔ settings.audit.Valid := by
  unfold Settings.validate AuditOptions.Valid
  cases he : settings.audit.configMarker.isEmpty <;>
    cases ha : settings.audit.configMarker.isAbsolute <;> simp [he, ha]

end SyncAudit
