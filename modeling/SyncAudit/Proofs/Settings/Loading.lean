import SyncAudit.FileSystem.Description
import SyncAudit.Proofs.Settings.Documents
import SyncAudit.Proofs.Settings.Loaded
import SyncAudit.Proofs.Settings.Variables
import SyncAudit.Settings.Load

/-!
# Settings out of a file and the environment

A file that gives some of the settings is laid under an environment that gives some of them. Each
setting is then decided on its own: the environment comes before the file, and the file before the
defaults. Loading fails for one reason only, a marker that is empty or absolute, and that is
looked at in the outcome: a marker of the file that would not do is harmless where the environment
gives another one.
-/
namespace SyncAudit.Settings

end SyncAudit.Settings
