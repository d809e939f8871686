import SyncAudit.FileSystem.Basic
import SyncAudit.FoundValue

/-!
# What is wrong with settings
-/
namespace SyncAudit

inductive SettingsError where
  /-- The file is there but cannot be read. -/
  | unreadable (e : IoError)
  | unsupportedFormat (file : Path)
  | notFound (name : Path)
  | tomlSyntax
  | jsonSyntax
  /-- The reader of another format refuses a file. -/
  | refused (cause file : String)
  | integerTooLarge (file : String)
  | integerTooSmall (file : String)
  | floatTooLarge (file : String)
  /-- A variable that gives a setting has a value that is no text. -/
  | undecodableVariable (key : String) (value : List UInt8)
  /-- The root of a file is no table. -/
  | rootNotTable (got : FoundValue) (file : String)
  /-- A setting has a value of the wrong kind. `origin` is the file or layer it came from. -/
  | wrongSetting (got : FoundValue) (wanted key : String) (origin : Option String)
  /-- A section is no table. -/
  | wrongSection (got : FoundValue) (wanted key : String)
  | markerEmpty
  | markerAbsolute (marker : Path)
  deriving DecidableEq, Repr

namespace SettingsError

def message : SettingsError → String
  | .unreadable e => e.message
  | .unsupportedFormat file =>
    s!"configuration file \"{file.display}\" is not of a supported file format"
  | .notFound name => s!"configuration file \"{name.display}\" not found"
  | .tomlSyntax => "<TOML syntax error>"
  | .jsonSyntax => "<JSON syntax error>"
  | .refused cause file => s!"{cause} in {file}"
  | .integerTooLarge file => s!"number too large to fit in target type in {file}"
  | .integerTooSmall file => s!"number too small to fit in target type in {file}"
  | .floatTooLarge file => s!"floating-point number overflowed in {file}"
  | .undecodableVariable key value =>
    s!"env variable {Text.quote key} contains non-Unicode data: {Text.quoteBytes value}"
  | .rootNotTable got file =>
    s!"invalid type: {got.described}, expected a map in {file} in {file}"
  | .wrongSetting got wanted key origin =>
    let place := match origin with
      | some o => s!" in {o}"
      | none => ""
    s!"invalid type: {got.described}, expected {wanted} for key `{key}`{place}"
  | .wrongSection got wanted key =>
    s!"invalid type: {got.describedPlainly}, expected {wanted} for key `{key}`"
  | .markerEmpty => "config_marker must not be empty"
  | .markerAbsolute marker =>
    s!"config_marker must be relative to the repo directory: {marker.display}"

end SettingsError
end SyncAudit
