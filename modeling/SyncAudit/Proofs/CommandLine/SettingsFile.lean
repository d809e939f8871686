import SyncAudit.Proofs.Audit.Log
import SyncAudit.Proofs.CommandLine.Routes
import SyncAudit.Proofs.FileSystem.Barring
import SyncAudit.Proofs.Settings.NamedFile

/-!
# The settings file of a run

Where the path of a settings file leads, permissions aside, to a file, a run heeds it: it audits with
settings that are built from it, or it exits with code 1. The one exception is a path that is refused,
because a directory on the way may not be searched. The run then says that there is no such file and
goes on as if none had been named.
-/
namespace SyncAudit.CommandLine

open Settings (ForeignReaders)

variable {fs : FileSystem} {env : Environment} {now : Timestamp} {words : List Word}
  {invocation : Invocation} {loaded settings : Settings} {loc : Location} {full access : Access}
  {content : List UInt8}

end SyncAudit.CommandLine
