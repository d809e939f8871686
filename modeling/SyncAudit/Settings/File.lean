import SyncAudit.FileSystem.Operations
import SyncAudit.Json.Reader
import SyncAudit.Settings.Value
import SyncAudit.Toml.Reader

/-!
# Files of settings

A file is found by its path, or by its path with a suffix of a known format behind it. Its format
is told by its suffix alone. The values in it remember the file by its path as seen from the
current directory. TOML and JSON are read here; what files of the other formats hold is left to
readers that the rest is built upon.
-/
namespace SyncAudit.Settings

/-- The formats whose readers are not given here. -/
inductive ForeignFormat where
  | yaml
  | ini
  | ron
  | json5
  deriving DecidableEq, Repr

inductive Format where
  | toml
  | json
  | foreign (format : ForeignFormat)
  deriving DecidableEq, Repr

namespace Format

/-- The formats in the order in which their suffixes are tried. -/
def all : List Format :=
  [.toml, .json, .foreign .yaml, .foreign .ini, .foreign .ron, .foreign .json5]

def suffixes : Format → List Name
  | .toml => [Text.toBytes "toml"]
  | .json => [Text.toBytes "json"]
  | .foreign .yaml => [Text.toBytes "yaml", Text.toBytes "yml"]
  | .foreign .ini => [Text.toBytes "ini"]
  | .foreign .ron => [Text.toBytes "ron"]
  | .foreign .json5 => [Text.toBytes "json5"]

/-- Every suffix with its format, in the order in which they are tried. -/
def known : List (Name × Format) :=
  all.flatMap fun format => format.suffixes.map (·, format)

/-- The format of the file at a path. -/
def ofPath? (p : Path) : Option Format :=
  p.suffix?.bind (List.lookup · known)

end Format

/-- The readers of the other formats: the members of the table that a text holds, which remember
where it came from, or what is wrong with the text. -/
class ForeignReaders where
  read : ForeignFormat → (origin text : String) → Except String Value.Members

/-! ## Finding a file -/

/-- The first file among the paths with a known suffix behind them. -/
def findSuffixed? (fs : FileSystem) (p : Path) : Option (Path × Format) :=
  match p.trimmed? with
  | none => none
  | some base =>
    (Format.known.map fun row => (base.withSuffix row.1, row.2)).find? fun found =>
      fs.isFile found.1

/-- The file that a name stands for, and its format. -/
def find (fs : FileSystem) (name : Path) : Except SettingsError (Path × Format) :=
  let p := fs.herePath.join name
  if fs.isFile p then
    match Format.ofPath? p with
    | some format => .ok (p, format)
    | none => .error (.unsupportedFormat p)
  else
    match findSuffixed? fs p with
    | some found => .ok found
    | none => .error (.notFound name)

/-! ## Reading a file -/

/-- The text of a file. The mark of UTF-8 in front of it is dropped. -/
def textOf : List UInt8 → String
  | 0xEF :: 0xBB :: 0xBF :: rest => Text.ofBytesLossy rest
  | bytes => Text.ofBytesLossy bytes

/-- A file of settings that has been read. -/
structure Source where
  /-- The path of the file as seen from the current directory. -/
  origin : String
  format : Format
  text : String
  deriving DecidableEq, Repr

/-- Finds and reads the file that a name stands for. -/
def readSource (fs : FileSystem) (name : Path) : Except SettingsError Source := do
  let (p, format) ← find fs name
  match fs.read p with
  | .error e => .error (.unreadable e)
  | .ok bytes => .ok ⟨(Path.relativeTo fs.herePath p).display, format, textOf bytes⟩

/-! ## Values of a file -/

/-- An integer of a file, if it fits a signed word of 64 bits. -/
def ofTomlInteger (origin : String) (n : Int) : Except SettingsError Value :=
  if 0x8000000000000000 ≤ n then .error (.integerTooLarge origin)
  else if n < -0x8000000000000000 then .error (.integerTooSmall origin)
  else .ok (.scalar origin (.integer n))

def ofTomlScalar (origin : String) : Toml.Scalar → Except SettingsError Value
  | .string s => .ok (.scalar origin (.text s))
  | .bool b => .ok (.scalar origin (.bool b))
  | .integer n => ofTomlInteger origin n
  | .float x => .ok (.scalar origin (.float x))
  | .oversized => .error (.floatTooLarge origin)
  | .dateTime text => .ok (.scalar origin (.text text))

/-- The members of a table whose values can all be read, or the first error in the order of the
names. -/
def settle : List (String × Except SettingsError Value) → Except SettingsError Value.Members
  | [] => .ok []
  | (_, .error e) :: _ => .error e
  | (name, .ok v) :: rest => do
    let members ← settle rest
    .ok ((name, v) :: members)

mutual

def ofToml (origin : String) : Toml.Node → Except SettingsError Value
  | .scalar s => ofTomlScalar origin s
  | .array items => (ofTomlItems origin items).map (.array origin)
  | .tables items => (ofTomlTables origin items).map (.array origin)
  | .table _ members =>
    (settle (Value.sortMembers (ofTomlMembers origin members))).map (.table origin)

def ofTomlItems (origin : String) : List Toml.Node → Except SettingsError (List Value)
  | [] => .ok []
  | node :: rest => do
    let v ← ofToml origin node
    let values ← ofTomlItems origin rest
    .ok (v :: values)

def ofTomlTables (origin : String) :
    List (List (String × Toml.Node)) → Except SettingsError (List Value)
  | [] => .ok []
  | members :: rest => do
    let members ← settle (Value.sortMembers (ofTomlMembers origin members))
    let values ← ofTomlTables origin rest
    .ok (.table origin members :: values)

def ofTomlMembers (origin : String) :
    List (String × Toml.Node) → List (String × Except SettingsError Value)
  | [] => []
  | (name, node) :: rest => (name, ofToml origin node) :: ofTomlMembers origin rest

end

namespace Source

/-- The members of the table that a file holds. -/
def members [ForeignReaders] (source : Source) : Except SettingsError Value.Members :=
  match source.format with
  | .toml =>
    match Toml.parse source.text with
    | none => .error .tomlSyntax
    | some members => settle (Value.sortMembers (ofTomlMembers source.origin members))
  | .json =>
    match Json.parse source.text with
    | none => .error .jsonSyntax
    | some v =>
      match Value.ofJson source.origin v with
      | .table _ members => .ok members
      | v => .error (.rootNotTable v.found source.origin)
  | .foreign format =>
    (ForeignReaders.read format source.origin source.text).mapError (.refused · source.origin)

end Source
end SyncAudit.Settings
