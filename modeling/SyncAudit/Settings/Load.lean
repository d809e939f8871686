import SyncAudit.Error
import SyncAudit.Settings.Conversion
import SyncAudit.Settings.Dotenv
import SyncAudit.Settings.File
import SyncAudit.Settings.Validate

/-!
# Loading settings

Settings come from a file and from the environment, to which a file `.env` may add: that of the
current directory or, if it has none, of the nearest directory above that has one. The environment
is laid over the file, setting by setting, and the defaults stand for all that neither gives. Only
the result is validated.
-/
namespace SyncAudit.Settings

variable [ForeignReaders]

/-- The file that is read when none is named. -/
def defaultFile : Path :=
  .ofString "config/default.toml"

def dotenvName : Name :=
  Text.toBytes ".env"

/-- The file of variables in the first of some directories that has one. What is not a file is
passed over, but the search ends where it cannot be told what there is. -/
def findDotenv (fs : FileSystem) : List Location → Option Path
  | [] => none
  | dir :: rest =>
    let candidate := (FileSystem.pathTo dir).child dotenvName
    match fs.stat candidate with
    | .ok (.file _ _) => some candidate
    | .ok _ | .error (.os .noEntry) => findDotenv fs rest
    | .error _ => none

/-- The environment with the variables of the file `.env` that is nearest to the current directory,
where that can be read. -/
def withDotenv (fs : FileSystem) (env : Environment) : Environment :=
  match findDotenv fs (FileSystem.ancestry fs.here).reverse with
  | some p =>
    match fs.read p with
    | .ok bytes => env.addFile bytes
    | .error _ => env
  | none => env

/-- The values of the named file. The default file may be absent or unreadable; what it holds has
to be well-formed. -/
def fileLayer (fs : FileSystem) : Option Path → Except SettingsError Value.Members
  | some name => do
    let source ← readSource fs name
    source.members
  | none =>
    match readSource fs defaultFile with
    | .ok source => source.members
    | .error _ => .ok []

/-- The settings that the layers of a file and of the environment give together. -/
def ofLayers (file env : Value.Members) : Except SettingsError Settings := do
  let root := Value.setAll env (Value.setAll file (.table none []))
  let settings ← Settings.ofMembers root.members
  settings.validate
  .ok settings

/-- The settings of the named file, or of the default one, under the environment. -/
def load (fs : FileSystem) (env : Environment) (file : Option Path) :
    Except AuditError Settings :=
  let env := withDotenv fs env
  let settings : Except SettingsError Settings := do
    ofLayers (← fileLayer fs file) (← env.layer)
  settings.mapError .config

end SyncAudit.Settings
