import SyncAudit.Settings.Environment
import SyncAudit.Text.Alphanumeric
import SyncAudit.Text.Utf8

/-!
# Files of variables

A file of lines `NAME=value` adds variables to an environment, except those that are set already.
Reading stops for good at the first line that is not well-formed; the lines before it count.

A value may go on over several lines within quotes. Outside of quotes a blank ends it, and only a
comment may follow. Within single quotes every character stands for itself. Elsewhere a backslash
starts an escape, and a dollar sign the name of a variable whose value is put in its place: letters
and digits up to any other character, which is then read as text, or any characters in braces.
-/
namespace SyncAudit.Environment

/-! ## Lines -/

def lineFeed : UInt8 := 0x0A

/-- The lines of a file with their line feeds. -/
def rawLines (soFar : List UInt8) : List UInt8 → List (List UInt8)
  | [] => if soFar.isEmpty then [] else [soFar.reverse]
  | b :: rest =>
    if b = lineFeed then (b :: soFar).reverse :: rawLines [] rest else rawLines (b :: soFar) rest

/-- Where the end of a line finds the text. -/
inductive LineState where
  | plain
  /-- Behind white space, where a comment may start. -/
  | spaced
  | escape
  /-- Within double quotes. -/
  | weak
  | weakEscape
  /-- Within single quotes. -/
  | strong
  | strongEscape
  | comment
  deriving DecidableEq, Repr

/-- The state behind a character that opens quotes, starts an escape or does neither. -/
def LineState.enter (c : Char) : LineState :=
  if c = '\\' then .escape
  else if c = '"' then .weak
  else if c = '\'' then .strong
  else .plain

def LineState.next (c : Char) : LineState → LineState
  | .plain =>
    if Text.isBlank c ∧ c ≠ '\n' ∧ c ≠ '\r' then .spaced else enter c
  | .spaced => if c = '#' then .comment else enter c
  | .escape => .plain
  | .weak => if c = '\\' then .weakEscape else if c = '"' then .plain else .weak
  | .weakEscape => .weak
  | .strong => if c = '\\' then .strongEscape else if c = '\'' then .plain else .strong
  | .strongEscape => .strong
  | .comment => .comment

/-- The state behind a text, and the text up to a comment. -/
def scanLine (state : LineState) : List Char → LineState × List Char
  | [] => (state, [])
  | c :: rest =>
    let next := state.next c
    if next = .comment then (.comment, [])
    else
      let (final, kept) := scanLine next rest
      (final, c :: kept)

/-- A text without the line break at its end. -/
def dropBreak (cs : List Char) : List Char :=
  match cs.reverse with
  | '\n' :: '\r' :: rest | '\n' :: rest => rest.reverse
  | _ => cs

/-- The logical lines, the first of which goes on behind `soFar`, up to one that is not closed or
not valid UTF-8. A line that starts with a comment is empty. -/
def logicalLines (soFar : List Char) (state : LineState) : List (List UInt8) → List (List Char)
  | [] => []
  | raw :: rest =>
    match Text.Utf8.decode? raw with
    | none => []
    | some cs =>
      let line := soFar ++ cs
      if (line.dropWhile Text.isBlank).head? = some '#' then
        [] :: logicalLines [] .plain rest
      else
        let (final, kept) := scanLine state cs
        if final = .plain then dropBreak line :: logicalLines [] .plain rest
        else if final = .comment then (soFar ++ kept) :: logicalLines [] .plain rest
        else logicalLines line final rest

/-! ## Values -/

/-- Where in a value the reader stands. -/
inductive ValueState where
  /-- In text, within double quotes or not. -/
  | text (quoted : Bool)
  | escape (quoted : Bool)
  /-- Within single quotes. -/
  | literal
  /-- In the name of a variable, which has these characters so far. -/
  | name (quoted braced : Bool) (soFar : List Char)
  /-- Behind the blank that ends a value. -/
  | ended
  | comment
  deriving DecidableEq, Repr

/-- The character of an escape. -/
def escaped? (c : Char) : Option Char :=
  if c = '\\' ∨ c = '\'' ∨ c = '"' ∨ c = '$' ∨ c = ' ' then some c
  else if c = 'n' then some '\n'
  else none

/-- The value of a variable in a text; one that is not set is empty. -/
def expand (env : Environment) (name : List Char) : List Char :=
  ((env.get? (String.ofList name)).map String.toList).getD []

/-- The text that a character gives, and the state behind it. -/
def ValueState.next (env : Environment) (c : Char) :
    ValueState → Option (List Char × ValueState)
  | .text quoted =>
    if c = '$' then some ([], .name quoted false [])
    else if c = '\\' then some ([], .escape quoted)
    else if c = '"' then some ([], .text !quoted)
    else if quoted then some ([c], .text true)
    else if c = '\'' then some ([], .literal)
    else if c = ' ' ∨ c = '\t' then some ([], .ended)
    else some ([c], .text false)
  | .escape quoted => (escaped? c).map fun e => ([e], .text quoted)
  | .literal => if c = '\'' then some ([], .text false) else some ([c], .literal)
  | .name quoted true soFar =>
    if c = '\x7d' then some (expand env soFar, .text quoted)
    else some ([], .name quoted true (soFar ++ [c]))
  | .name quoted false soFar =>
    if Text.isAlphanumeric c then some ([], .name quoted false (soFar ++ [c]))
    else if c = '\x7b' ∧ soFar = [] then some ([], .name quoted true [])
    else if c = '$' then some (expand env soFar, .name quoted false [])
    else some (expand env soFar ++ [c], .text quoted)
  | .ended =>
    if c = ' ' ∨ c = '\t' then some ([], .ended)
    else if c = '#' then some ([], .comment)
    else none
  | .comment => some ([], .comment)

/-- The text that the end of a value gives, unless quotes or braces are open. -/
def ValueState.finish (env : Environment) : ValueState → Option (List Char)
  | .text quoted | .escape quoted => if quoted then none else some []
  | .literal => none
  | .name quoted braced soFar => if quoted || braced then none else some (expand env soFar)
  | .ended | .comment => some []

/-- The value that a text spells. -/
def readValue (env : Environment) (state : ValueState) : List Char → Option (List Char)
  | [] => state.finish env
  | c :: rest => do
    let (text, next) ← state.next env c
    some (text ++ (← readValue env next rest))

/-! ## Variables -/

def isNameStart (c : Char) : Bool :=
  c.isAlpha || c = '_'

def isNameChar (c : Char) : Bool :=
  c.isAlphanum || c = '_' || c = '.'

/-- A name and what follows it and the white space behind it. -/
def readName (cs : List Char) : Option (List Char × List Char) :=
  match cs with
  | c :: _ =>
    if isNameStart c then
      some (cs.takeWhile isNameChar, (cs.dropWhile isNameChar).dropWhile Text.isBlank)
    else none
  | [] => none

/-- The name of a variable and what follows the equals sign. The word `export` may come first. -/
def readAssigned (cs : List Char) : Option (List Char × List Char) :=
  match readName cs with
  | some (name, '=' :: rest) => some (name, rest)
  | some (name, rest) =>
    if name = "export".toList then
      match readName rest with
      | some (name, '=' :: rest) => some (name, rest)
      | _ => none
    else none
  | none => none

/-- A logical line: nothing, or the name and the value of a variable. -/
def readLine (env : Environment) (line : List Char) : Option (Option (String × String)) :=
  match Text.trimChars line with
  | [] | '#' :: _ => some none
  | cs => do
    let (name, rest) ← readAssigned cs
    let body := rest.dropWhile Text.isBlank
    let value ← if body.head? = some '#' then some [] else readValue env (.text false) body
    some (some (String.ofList name, String.ofList value))

/-- The environment with the variables of a list of logical lines. -/
def addLines (env : Environment) : List (List Char) → Environment
  | [] => env
  | line :: rest =>
    match readLine env line with
    | none => env
    | some none => addLines env rest
    | some (some (name, value)) => addLines (env.setDefault name value) rest

/-- The bytes of a text without the mark that may stand in front of it. -/
def dropMark : List UInt8 → List UInt8
  | 0xEF :: 0xBB :: 0xBF :: rest => rest
  | bytes => bytes

/-- The environment with the variables of a file that are not set yet. -/
def addFile (env : Environment) (bytes : List UInt8) : Environment :=
  addLines env (logicalLines [] .plain (rawLines [] (dropMark bytes)))

end SyncAudit.Environment
