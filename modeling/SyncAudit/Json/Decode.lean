import SyncAudit.FoundValue
import SyncAudit.Json.Basic
import SyncAudit.Path
import SyncAudit.Timestamp.Reader

/-!
# Structures in JSON

A structure is read from an object by the names of its members, or from an array by their
positions. Members that no part of the structure is named for are passed over. The members that
are there are read in the order of their names, and the first bad one decides; after that, absent
ones are reported in the order in which the structure declares them.
-/
namespace SyncAudit

inductive DecodeError where
  | wrongType (got : FoundValue) (wanted : String)
  /-- The kind of value is right, and this value is not. -/
  | wrongValue (got : FoundValue) (wanted : String)
  | missingField (name : String)
  | wrongLength (length : Nat) (wanted : String)
  | unknownVariant (name : String) (known : List String)
  | badTimestamp (e : Timestamp.ReadError)
  deriving DecidableEq, Repr

def DecodeError.message : DecodeError → String
  | .wrongType got wanted => s!"invalid type: {got.describedInJson}, expected {wanted}"
  | .wrongValue got wanted => s!"invalid value: {got.describedInJson}, expected {wanted}"
  | .missingField name => s!"missing field `{name}`"
  | .wrongLength length wanted => s!"invalid length {length}, expected {wanted}"
  | .unknownVariant name known =>
    let names := ", ".intercalate (known.map fun k => s!"`{k}`")
    s!"unknown variant `{name}`, expected one of {names}"
  | .badTimestamp e => e.message

namespace Json

/-- What a value is called where another one is wanted. -/
def found : Json → FoundValue
  | .null => .unit
  | .bool b => .boolean b
  | .int n => .integer n
  | .float x => .float x
  | .string s => .text s
  | .array _ => .sequence
  | .object _ => .map

/-- A reading of values, which tells what is wrong with those it refuses. -/
abbrev Decoder (α : Type) := Json → Except DecodeError α

def refuse {α : Type} (wanted : String) (v : Json) : Except DecodeError α :=
  .error (.wrongType v.found wanted)

def asText : Decoder String
  | .string s => .ok s
  | v => refuse "a string" v

def asFlag : Decoder Bool
  | .bool b => .ok b
  | v => refuse "a boolean" v

def asPath : Decoder Path
  | .string s => .ok (.ofString s)
  | v => refuse "path string" v

/-- A counter of 64 bits. -/
def asCount : Decoder Nat
  | .int n =>
    if 0 ≤ n ∧ n < 0x10000000000000000 then .ok n.toNat
    else .error (.wrongValue (.integer n) "usize")
  | v => refuse "usize" v

def asTimestamp : Decoder Timestamp
  | .string s => (Timestamp.parse s).mapError .badTimestamp
  | v => refuse "an RFC 3339 formatted date and time string" v

/-- The readings of a list of values, up to the first that is refused. -/
def decodeAll {α : Type} (item : Decoder α) : List Json → Except DecodeError (List α)
  | [] => .ok []
  | v :: rest => do
    let here ← item v
    let later ← decodeAll item rest
    .ok (here :: later)

def asList {α : Type} (item : Decoder α) : Decoder (List α)
  | .array items => decodeAll item items
  | v => refuse "a sequence" v

/-- A member that may be absent. -/
def field? {α : Type} (members : List (String × Json)) (name : String) (item : Decoder α) :
    Except DecodeError (Option α) :=
  match lookup? members name with
  | some v => (item v).map some
  | none => .ok none

def required {α : Type} (name : String) : Option α → Except DecodeError α
  | some a => .ok a
  | none => .error (.missingField name)

/-- An item that may be absent. -/
def element? {α : Type} (items : List Json) (position : Nat) (item : Decoder α) :
    Except DecodeError (Option α) :=
  match items[position]? with
  | some v => (item v).map some
  | none => .ok none

/-- An item of an array that stands for a structure of the given shape. -/
def element {α : Type} (items : List Json) (position : Nat) (shape : String)
    (item : Decoder α) : Except DecodeError α :=
  match items[position]? with
  | some v => item v
  | none => .error (.wrongLength position shape)

/-- Refuses an array that goes on after the items of the structure. -/
def ending {α : Type} (items : List Json) (count : Nat) (a : α) : Except DecodeError α :=
  if count < items.length then .error (.wrongLength items.length "fewer elements in array")
  else .ok a

/-- A structure, from an object or from an array. -/
def asStruct {α : Type} (name : String)
    (ofMembers : List (String × Json) → Except DecodeError α)
    (ofItems : List Json → Except DecodeError α) : Decoder α
  | .object members => ofMembers members
  | .array items => ofItems items
  | v => refuse s!"struct {name}" v

end Json
end SyncAudit
