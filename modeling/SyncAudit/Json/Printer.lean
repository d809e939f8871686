import SyncAudit.Json.Basic
import SyncAudit.Number.Digits
import SyncAudit.Number.Shortest

/-!
# JSON text

The compact form has no white space at all. The pretty form puts each item and member on a line
of its own, two blanks further in than the bracket that holds it, and leaves an empty array or
object as a pair of brackets.
-/
namespace SyncAudit.Json

/-- The text of a character inside a string. Only quotes, backslashes and controls are escaped. -/
def escapeChar (c : Char) : List Char :=
  if c = '"' then ['\\', '"']
  else if c = '\\' then ['\\', '\\']
  else if c = '\x08' then ['\\', 'b']
  else if c = '\t' then ['\\', 't']
  else if c = '\n' then ['\\', 'n']
  else if c = '\x0c' then ['\\', 'f']
  else if c = '\r' then ['\\', 'r']
  else if c.toNat < 0x20 then
    ['\\', 'u', '0', '0'] ++ List.replicate (2 - (Nat.toDigits 16 c.toNat).length) '0'
      ++ Nat.toDigits 16 c.toNat
  else [c]

def stringText (s : String) : List Char :=
  '"' :: s.toList.flatMap escapeChar ++ ['"']

/-- The text of a value that holds no other value. -/
def scalarText : Json → List Char
  | .bool true => ['t', 'r', 'u', 'e']
  | .bool false => ['f', 'a', 'l', 's', 'e']
  | .int n => decimalInt n
  | .float x => if x.isFinite then x.generalText.toList else ['n', 'u', 'l', 'l']
  | .string s => stringText s
  | _ => ['n', 'u', 'l', 'l']

mutual

def compactText : Json → List Char
  | .array items => '[' :: compactItems items ++ [']']
  | .object members => '\x7b' :: compactMembers members ++ ['\x7d']
  | v => scalarText v

def compactItems : List Json → List Char
  | [] => []
  | [v] => compactText v
  | v :: rest => compactText v ++ ',' :: compactItems rest

def compactMembers : List (String × Json) → List Char
  | [] => []
  | [(name, v)] => stringText name ++ ':' :: compactText v
  | (name, v) :: rest => stringText name ++ ':' :: compactText v ++ ',' :: compactMembers rest

end

/-- A line break and the indentation of the given depth. -/
def newLine (depth : Nat) : List Char :=
  '\n' :: List.replicate (2 * depth) ' '

mutual

def prettyText (depth : Nat) : Json → List Char
  | .array [] => ['[', ']']
  | .array items => '[' :: prettyItems (depth + 1) items ++ newLine depth ++ [']']
  | .object [] => ['\x7b', '\x7d']
  | .object members => '\x7b' :: prettyMembers (depth + 1) members ++ newLine depth ++ ['\x7d']
  | v => scalarText v

def prettyItems (depth : Nat) : List Json → List Char
  | [] => []
  | [v] => newLine depth ++ prettyText depth v
  | v :: rest => newLine depth ++ prettyText depth v ++ ',' :: prettyItems depth rest

def prettyMembers (depth : Nat) : List (String × Json) → List Char
  | [] => []
  | [(name, v)] => newLine depth ++ stringText name ++ ':' :: ' ' :: prettyText depth v
  | (name, v) :: rest =>
    newLine depth ++ stringText name ++ ':' :: ' ' :: prettyText depth v
      ++ ',' :: prettyMembers depth rest

end

def compact (v : Json) : String :=
  String.ofList (compactText v)

def pretty (v : Json) : String :=
  String.ofList (prettyText 0 v)

end SyncAudit.Json
