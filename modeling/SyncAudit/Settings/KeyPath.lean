import SyncAudit.Number.Digits

/-!
# Paths to settings

A key such as `audit.skip_hidden` or `audit[0]` is a path: a name, then names behind dots and
positions in brackets. Positions may count from the end, with a minus sign. A key that is no path
stands for itself.
-/
namespace SyncAudit.Settings

inductive KeyStep where
  | name (s : String)
  | position (n : Int)
  deriving DecidableEq, Repr

namespace KeyStep

def isNameChar (c : Char) : Bool :=
  c.isAlphanum || c = '_' || c = '-'

def isSpace (c : Char) : Bool :=
  c = ' ' || c = '\t'

/-- The positions that can be told apart fit a signed word of 64 bits. -/
def inBounds (n : Int) : Bool :=
  -0x8000000000000000 ≤ n && n < 0x8000000000000000

/-- The position up to its closing bracket, and what follows the bracket. -/
def readPosition (cs : List Char) : Option (KeyStep × List Char) :=
  let cs := cs.dropWhile isSpace
  let negative := cs.head? = some '-'
  let cs := if negative then cs.tail else cs
  let digits := cs.takeWhile isDigit
  let n : Int := if negative then -(ofDigits 10 digits) else ofDigits 10 digits
  match (cs.dropWhile isDigit).dropWhile isSpace with
  | ']' :: rest => if digits.isEmpty ∨ !inBounds n then none else some (.position n, rest)
  | _ => none

/-- A name and what follows it. -/
def readName (cs : List Char) : Option (KeyStep × List Char) :=
  let name := cs.takeWhile isNameChar
  if name.isEmpty then none else some (.name (String.ofList name), cs.dropWhile isNameChar)

/-- The steps behind the first name, up to the end of the text. -/
def readSteps : Nat → List Char → Option (List KeyStep)
  | _, [] => some []
  | 0, _ => none
  | fuel + 1, '.' :: rest => do
    let (step, rest) ← readName rest
    some (step :: (← readSteps fuel rest))
  | fuel + 1, '[' :: rest => do
    let (step, rest) ← readPosition rest
    some (step :: (← readSteps fuel rest))
  | _, _ => none

/-- The steps of a key that is a path. -/
def parse? (key : String) : Option (List KeyStep) := do
  let cs := key.toList
  let (step, rest) ← readName cs
  some (step :: (← readSteps rest.length rest))

/-- The steps of any key. -/
def ofKey (key : String) : List KeyStep :=
  (parse? key).getD [.name key]

end KeyStep
end SyncAudit.Settings
