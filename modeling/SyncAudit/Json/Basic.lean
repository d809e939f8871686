import SyncAudit.Number.Double

/-!
# JSON values

Whole numbers are kept apart from numbers written with a fraction or an exponent, and the members
of an object keep their order.
-/
namespace SyncAudit

inductive Json where
  | null
  | bool (b : Bool)
  | int (n : Int)
  | float (x : Double)
  | string (s : String)
  | array (items : List Json)
  | object (members : List (String × Json))
  deriving Inhabited, Repr, BEq

namespace Json

/-- The value that a name has in a list of members: the last one given. -/
def lookup? (members : List (String × Json)) (name : String) : Option Json :=
  members.foldl (fun found m => if m.1 = name then some m.2 else found) none

/-- The member of an object with the given name. -/
def member? (name : String) : Json → Option Json
  | .object members => lookup? members name
  | _ => none

def ofNat (n : Nat) : Json :=
  .int n

def strings (texts : List String) : Json :=
  .array (texts.map .string)

end Json
end SyncAudit
