import SyncAudit.Number.Decimal
import SyncAudit.Settings.Value
import SyncAudit.Text.Lowercase
import SyncAudit.Text.Utf8

/-!
# Settings in the environment

Variables whose names start with `REPO_AUDIT_` in any case give settings: the rest of the name in
lower case is the key, two underscores standing for a dot. A value that reads as a truth value or
a number is one; any other is text. A value that is not valid UTF-8 is an error, but only in a
variable that gives a setting; elsewhere such a variable counts as one that is not set.
-/
namespace SyncAudit

/-- The variables of a process, in the order in which they were set. A value is any bytes. A
variable whose name is no text is never looked at, and is left out. -/
structure Environment where
  vars : List (String × List UInt8)
  deriving DecidableEq, Repr

namespace Environment

/-- The text of a variable. One whose value is no text has none. -/
def get? (env : Environment) (name : String) : Option String :=
  (env.vars.lookup name).bind Text.ofBytes?

open Settings (Scalar Value)

/-- The environment with a text in a variable, unless it has one already. -/
def setDefault (env : Environment) (name value : String) : Environment :=
  match env.get? name with
  | some _ => env
  | none => ⟨Value.put name (Text.toBytes value) env.vars⟩

/-- The start of the names of variables that give settings. -/
def prefixChars : List Char :=
  "repo_audit_".toList

/-- A text with a dot for every two underscores. -/
def dotted : List Char → List Char
  | '_' :: '_' :: rest => '.' :: dotted rest
  | c :: rest => c :: dotted rest
  | [] => []

/-- The name of a variable that gives a setting, in lower case and without its start. -/
def bareName? (name : String) : Option (List Char) :=
  let cs := Text.lowerChars name.toList
  if prefixChars.isPrefixOf cs then some (cs.drop prefixChars.length) else none

/-- The key of a variable that gives a setting. -/
def key? (name : String) : Option String :=
  (bareName? name).map fun cs => String.ofList (dotted cs)

def bool? (s : String) : Option Bool :=
  let word := Text.lower s
  if word = "true" then some true else if word = "false" then some false else none

/-- The value that the text of a variable stands for. -/
def scalar (s : String) : Scalar :=
  match bool? s with
  | some b => .bool b
  | none =>
    match word64? s.toList with
    | some n => .integer n
    | none =>
      match Double.parse? s.toList with
      | some x => .float x
      | none => .text s

def originName : String := "the environment"

/-- The settings given by a list of variables, laid over those `soFar`. Of two variables with the
same key the later one counts. -/
def layerFrom (soFar : Value.Members) : List (String × String) → Value.Members
  | [] => soFar
  | (name, value) :: rest =>
    match key? name with
    | some key => layerFrom (Value.put key (.scalar originName (scalar value)) soFar) rest
    | none => layerFrom soFar rest

/-- The variables whose values are texts. -/
def texts (env : Environment) : List (String × String) :=
  env.vars.filterMap fun row => (Text.ofBytes? row.2).map (row.1, ·)

/-- The error of a variable that gives a setting and whose value is no text. -/
def refusal? (row : String × List UInt8) : Option SettingsError :=
  match bareName? row.1, Text.ofBytes? row.2 with
  | some cs, none => some (.undecodableVariable (String.ofList cs) row.2)
  | _, _ => none

/-- The settings that the environment gives. -/
def layer (env : Environment) : Except SettingsError Value.Members :=
  match env.vars.findSome? refusal? with
  | some e => .error e
  | none => .ok (layerFrom [] env.texts)

end Environment
end SyncAudit
