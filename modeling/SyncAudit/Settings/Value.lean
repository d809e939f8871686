import SyncAudit.FoundValue
import SyncAudit.Json.Basic
import SyncAudit.Settings.Error
import SyncAudit.Settings.KeyPath
import SyncAudit.Sorting
import SyncAudit.Toml.Table

/-!
# Layers of values

Before settings have types they are values, laid over one another layer by layer: a table is
merged into what is there, anything else takes its place. Each value remembers the file or layer
it came from; tables and arrays that only arise from merging come from nowhere.
-/
namespace SyncAudit.Settings

inductive Scalar where
  | nil
  | bool (b : Bool)
  | integer (n : Int)
  | float (x : Double)
  | text (s : String)
  deriving DecidableEq, Repr

/-- The file or layer that a value came from. -/
abbrev Origin := Option String

inductive Value where
  | scalar (origin : Origin) (s : Scalar)
  | array (origin : Origin) (items : List Value)
  | table (origin : Origin) (members : List (String × Value))

namespace Value

abbrev Members := List (String × Value)

def origin : Value → Origin
  | .scalar origin _ | .array origin _ | .table origin _ => origin

def Scalar.found : Scalar → FoundValue
  | .nil => .unit
  | .bool b => .boolean b
  | .integer n => .integer n
  | .float x => .float x
  | .text s => .text s

/-- What a value is called where another one is wanted. -/
def found : Value → FoundValue
  | .scalar _ s => Scalar.found s
  | .array _ _ => .sequence
  | .table _ _ => .map

/-- The value that fills gaps. -/
def absent : Value :=
  .scalar none .nil

/-! ## Values of other formats -/

/-- The members with a value under a name, in the place of the one that was there. -/
def put {α : Type} (name : String) (v : α) : List (String × α) → List (String × α)
  | [] => [(name, v)]
  | (other, w) :: rest => if other = name then (name, v) :: rest else (other, w) :: put name v rest

mutual

def ofJson (origin : Origin) : Json → Value
  | .null => .scalar origin .nil
  | .bool b => .scalar origin (.bool b)
  | .int n => .scalar origin (.integer n)
  | .float x => .scalar origin (.float x)
  | .string s => .scalar origin (.text s)
  | .array items => .array origin (ofJsonItems origin items)
  | .object members => .table origin (ofJsonMembers origin [] members)

def ofJsonItems (origin : Origin) : List Json → List Value
  | [] => []
  | v :: rest => ofJson origin v :: ofJsonItems origin rest

/-- The members `soFar` with those of an object, of which the last with a name counts. -/
def ofJsonMembers (origin : Origin) (soFar : Members) : List (String × Json) → Members
  | [] => soFar
  | (name, v) :: rest => ofJsonMembers origin (put name (ofJson origin v) soFar) rest

end

/-! ## Merging -/

def members : Value → Members
  | .table _ members => members
  | _ => []

def items : Value → List Value
  | .array _ items => items
  | _ => []

/-- The origin of the table that a value is or turns into. -/
def tableOrigin : Value → Origin
  | .table origin _ => origin
  | _ => none

/-- The origin of the array that a value is or turns into. -/
def arrayOrigin : Value → Origin
  | .array origin _ => origin
  | _ => none

/-- The members after a change of the one with a name, which starts out absent if it is not
there. -/
def changeMember (change : Value → Value) (name : String) : Members → Members
  | [] => [(name, change absent)]
  | (other, v) :: rest =>
    if other = name then (name, change v) :: rest
    else (other, v) :: changeMember change name rest

/-- The items after a change of the one at a position. Absent items before it fill the gap. -/
def changeItem (change : Value → Value) (position : Nat) (items : List Value) : List Value :=
  let items := items ++ List.replicate (position + 1 - items.length) absent
  items.modify position change

/-- The items after a change of the one at a position, which counts from the end if it is
negative; a position before the first item shifts the items to make room for it. -/
def changeItemAt (change : Value → Value) (position : Int) (items : List Value) : List Value :=
  if 0 ≤ position then changeItem change position.toNat items
  else if position.natAbs ≤ items.length then
    changeItem change (items.length - position.natAbs) items
  else
    changeItem change 0 (List.replicate (position.natAbs - items.length) absent ++ items)

/-- A change of the value at the end of a path. What stands in the way of the path is replaced by
an empty table or array. -/
def changeAt (change : Value → Value) : List KeyStep → Value → Value
  | [], v => change v
  | .name name :: path, v =>
    .table v.tableOrigin (changeMember (changeAt change path) name v.members)
  | .position n :: path, v =>
    .array v.arrayOrigin (changeItemAt (changeAt change path) n v.items)

mutual

/-- Lays a value over another one. -/
def overlay : Value → Value → Value
  | .table _ members, target => .table target.tableOrigin (overlayMembers members target.members)
  | .scalar origin s, _ => .scalar origin s
  | .array origin items, _ => .array origin items

/-- Lays members over those of a table. -/
def overlayMembers : Members → Members → Members
  | [], target => target
  | (name, v) :: rest, target => overlayMembers rest (changeMember (overlay v) name target)

end

/-- Lays a value over what a key leads to. -/
def set (key : String) (v : Value) (root : Value) : Value :=
  changeAt (overlay v) (KeyStep.ofKey key) root

/-- Names in the order of their characters. -/
def sortMembers {α : Type} (members : List (String × α)) : List (String × α) :=
  sortBy (fun a b => a.1 ≤ b.1) members

/-- Lays the members of a layer over a table, each key read as a path. -/
def setAll (layer : Members) (root : Value) : Value :=
  (sortMembers layer).foldl (fun root (key, v) => set key v root) root

end Value
end SyncAudit.Settings
