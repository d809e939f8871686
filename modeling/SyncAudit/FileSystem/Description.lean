import SyncAudit.FileSystem.Fixture
import SyncAudit.Json.Basic
import SyncAudit.Number.Digits
import SyncAudit.Settings.File
import SyncAudit.Settings.Environment

/-!
# The world of a run, described in JSON

A file system is described by a list of objects, each for one thing: a directory under `dir`, a
file under `file` with its content under `text` or `hex`, a link under `link` with its target under
`to`, or permissions under `mode` with octal digits under `bits`, of which the third from the end
holds for the owner. An environment is described by an object. A path, a content or a value that
is not valid UTF-8 is given by its bytes in hexadecimal, as `hex`. Settings are read from TOML and
JSON only.
-/
namespace SyncAudit

/-- The bytes of a text of hexadecimal digits, two for each byte. -/
def bytesOfHex : List Char → List UInt8
  | a :: b :: rest => UInt8.ofNat (ofDigits 16 [a, b]) :: bytesOfHex rest
  | _ => []

/-- Two hexadecimal digits. -/
def hexOfByte (b : UInt8) : List Char :=
  let digits := Nat.toDigits 16 b.toNat
  List.replicate (2 - digits.length) '0' ++ digits

/-- The bytes that a member of an object gives as hexadecimal digits. -/
def Json.hexMember (v : Json) : List UInt8 :=
  match v.member? "hex" with
  | some (.string s) => bytesOfHex s.toList
  | _ => []

/-- The bytes that an object gives as text or as hexadecimal digits. -/
def Json.content (v : Json) : List UInt8 :=
  match v.member? "text" with
  | some (.string s) => Text.toBytes s
  | _ => v.hexMember

namespace Path

def ofJson : Json → Path
  | .string s => .ofString s
  | v => ⟨v.hexMember⟩

def toJson (p : Path) : Json :=
  match Text.ofBytes? p.bytes with
  | some s => .string s
  | none => .object [("hex", .string (String.ofList (p.bytes.flatMap hexOfByte)))]

end Path

/-- The access bits of the owner in a text of octal digits. -/
def ownerBits : Option Json → Nat
  | some (.string s) => ofDigits 8 s.toList / 64 % 8
  | _ => 0

/-- The thing that an object describes. -/
def Fixture.ofJson? (v : Json) : Option Fixture :=
  match v.member? "dir", v.member? "file", v.member? "link", v.member? "mode" with
  | some p, _, _, _ => some (.directory (.ofJson p))
  | none, some p, _, _ => some (.file (.ofJson p) v.content)
  | none, none, some p, _ =>
    some (.link (.ofJson p) (((v.member? "to").map Path.ofJson).getD ⟨[]⟩))
  | none, none, none, some p => some (.permissions (.ofJson p) (ownerBits (v.member? "bits")))
  | none, none, none, none => none

/-- The items of an array. -/
def Json.items : Json → List Json
  | .array items => items
  | _ => []

/-- The file system that an array of things describes, seen from the directory `here`. -/
def FileSystem.ofJson (here : Location) (things : Json) : FileSystem :=
  .ofFixtures here (things.items.filterMap Fixture.ofJson?)

/-- The variables that the members of an object give. -/
def Environment.ofJson : Json → Environment
  | .object members =>
    ⟨members.map fun m =>
      match m.2 with
      | .string s => (m.1, Text.toBytes s)
      | v => (m.1, v.hexMember)⟩
  | _ => ⟨[]⟩

/-- Readers that refuse every text. They do as well as any where no file of theirs is met. -/
instance refusingReaders : Settings.ForeignReaders where
  read _ _ _ := .error "this format is not supported"

end SyncAudit
