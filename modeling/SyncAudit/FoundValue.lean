import SyncAudit.Number.Digits
import SyncAudit.Number.Shortest
import SyncAudit.Text.Quoted

/-!
# Values found where others are wanted

Messages name the value that was found by its kind and, where it is short enough to be shown, by
its text. A single setting, a section of the settings and a JSON document each have their own
wording for numbers and for the absent value.
-/
namespace SyncAudit

/-- A value that stands where another kind of value is wanted. -/
inductive FoundValue where
  | unit
  | boolean (b : Bool)
  | integer (n : Int)
  | float (x : Double)
  | text (s : String)
  | sequence
  | map
  deriving DecidableEq, Repr

/-- How a setting's reader names a value. Integers are named by the width that holds them. -/
def FoundValue.described : FoundValue → String
  | .unit => "unit value"
  | .boolean b => s!"boolean `{b}`"
  | .integer n =>
    let numeral := String.ofList (decimalInt n)
    if n < 0x8000000000000000 then s!"64-bit integer `{numeral}`"
    else s!"64-bit unsigned integer `{numeral}`"
  | .float x => s!"floating point `{x.plainText}`"
  | .text s => s!"string {Text.quote s}"
  | .sequence => "sequence"
  | .map => "map"

/-- How a section's reader names a value. -/
def FoundValue.describedPlainly : FoundValue → String
  | .integer n => s!"integer `{String.ofList (decimalInt n)}`"
  | .float x => s!"floating point `{x.pointedText}`"
  | v => v.described

/-- How a reader of JSON names a value. -/
def FoundValue.describedInJson : FoundValue → String
  | .unit => "null"
  | .float x => s!"floating point `{x.generalText}`"
  | v => v.describedPlainly

end SyncAudit
