import SyncAudit.Toml.Quoted
import SyncAudit.Toml.Table

/-!
# Reading TOML

A document is a list of statements, each on a line of its own unless its value goes on over
several lines. Arrays and tables in braces may be nested up to eighty deep, may hold line breaks
and comments, and may end in a comma.
-/
namespace SyncAudit.Toml

def isSpace (c : Char) : Bool :=
  c = ' ' || c = '\t'

def skipSpace (cs : List Char) : List Char :=
  cs.dropWhile isSpace

/-- What follows white space, line breaks and comments. -/
def skipIdle (inComment : Bool) : List Char → Option (List Char)
  | [] => some []
  | '\r' :: '\n' :: rest | '\n' :: rest => skipIdle false rest
  | c :: rest =>
    if inComment then
      if isTextChar c then skipIdle true rest else none
    else if isSpace c then skipIdle false rest
    else if c = '#' then skipIdle true rest
    else some (c :: rest)

/-- What follows the end of a statement: white space, a comment that may be absent, and a line
break or the end of the text. -/
def readEnd (cs : List Char) : Option (List Char) :=
  let rest := match skipSpace cs with
    | '#' :: rest => rest.dropWhile isTextChar
    | rest => rest
  match rest with
  | [] => some []
  | '\r' :: '\n' :: rest | '\n' :: rest => some rest
  | _ => none

/-! ## Keys -/

def isKeyChar (c : Char) : Bool :=
  c.isAlphanum || c = '-' || c = '_'

/-- A name without dots, and what follows it. -/
def readName : List Char → Option (String × List Char)
  | '"' :: rest => readLineString '"' rest
  | '\'' :: rest => readLineString '\'' rest
  | cs =>
    let name := cs.takeWhile isKeyChar
    if name.isEmpty then none else some (String.ofList name, cs.dropWhile isKeyChar)

/-- A key behind the names `path`, and what follows it. -/
def readKeyFrom : Nat → List String → List Char → Option (Key × List Char)
  | 0, _, _ => none
  | fuel + 1, path, cs => do
    let (name, rest) ← readName cs
    match skipSpace rest with
    | '.' :: rest => readKeyFrom fuel (path ++ [name]) (skipSpace rest)
    | rest => some (⟨path, name⟩, rest)

/-- A key and what follows it and the white space behind it. A name takes up at least one
character, so the fuel never runs out. -/
def readKey (cs : List Char) : Option (Key × List Char) :=
  readKeyFrom (cs.length + 1) [] cs

/-! ## Values -/

mutual

/-- A value at the front of a text. `depth` is how many brackets may still be opened. -/
def readValue : Nat → Nat → List Char → Option (Node × List Char)
  | 0, _, _ => none
  | fuel + 1, depth, cs =>
    match cs with
    | '"' :: '"' :: '"' :: rest =>
      (readLinesString '"' rest).map fun (s, rest) => (.scalar (.string s), rest)
    | '"' :: rest => (readLineString '"' rest).map fun (s, rest) => (.scalar (.string s), rest)
    | '\'' :: '\'' :: '\'' :: rest =>
      (readLinesString '\'' rest).map fun (s, rest) => (.scalar (.string s), rest)
    | '\'' :: rest => (readLineString '\'' rest).map fun (s, rest) => (.scalar (.string s), rest)
    | '[' :: rest =>
      if depth = 0 then none
      else (readItems fuel (depth - 1) rest).map fun (items, rest) => (.array items, rest)
    | '\x7b' :: rest =>
      if depth = 0 then none
      else do
        let (values, rest) ← readValues fuel (depth - 1) rest
        let node ← inlineTable values
        some (node, rest)
    | cs => (readScalar cs).map fun (s, rest) => (.scalar s, rest)

/-- The items of an array up to the closing bracket, from the opening one or from a comma on. -/
def readItems : Nat → Nat → List Char → Option (List Node × List Char)
  | 0, _, _ => none
  | fuel + 1, depth, cs =>
    match skipIdle false cs with
    | none => none
    | some (']' :: rest) => some ([], rest)
    | some cs =>
      match readValue fuel depth cs with
      | none => none
      | some (v, rest) =>
        match skipIdle false rest with
        | some (']' :: rest) => some ([v], rest)
        | some (',' :: rest) =>
          (readItems fuel depth rest).map fun (items, rest) => (v :: items, rest)
        | _ => none

/-- The values of a table in braces up to the closing brace, from the opening one or from a comma
on. -/
def readValues : Nat → Nat → List Char → Option (List (Key × Node) × List Char)
  | 0, _, _ => none
  | fuel + 1, depth, cs =>
    match skipIdle false cs with
    | none => none
    | some ('\x7d' :: rest) => some ([], rest)
    | some cs =>
      match readKey cs with
      | some (key, '=' :: rest) =>
        match readValue fuel depth (skipSpace rest) with
        | none => none
        | some (v, rest) =>
          match skipIdle false rest with
          | some ('\x7d' :: rest) => some ([(key, v)], rest)
          | some (',' :: rest) =>
            (readValues fuel depth rest).map fun (values, rest) => ((key, v) :: values, rest)
          | _ => none
      | _ => none

end

/-! ## Documents -/

/-- How many brackets may be opened inside each other. -/
def maxDepth : Nat := 80

/-- A statement at the front of a text, and what follows it. -/
def readStatement : List Char → Option (Statement × List Char)
  | '[' :: '[' :: rest =>
    match readKey (skipSpace rest) with
    | some (key, ']' :: ']' :: rest) => some (.itemHeader key, rest)
    | _ => none
  | '[' :: rest =>
    match readKey (skipSpace rest) with
    | some (key, ']' :: rest) => some (.header key, rest)
    | _ => none
  | cs =>
    match readKey cs with
    | some (key, '=' :: rest) =>
      (readValue (2 * rest.length + 2) maxDepth (skipSpace rest)).map fun (v, rest) =>
        (.value key v, rest)
    | _ => none

/-- The statements of a text. -/
def readStatements : Nat → List Char → Option (List Statement)
  | 0, _ => none
  | fuel + 1, cs => do
    match ← skipIdle false cs with
    | [] => some []
    | cs =>
      let (statement, rest) ← readStatement cs
      let rest ← readEnd rest
      let later ← readStatements fuel rest
      some (statement :: later)

/-- The members of the document that a text spells. Each statement takes up at least one
character, so the fuel never runs out. -/
def parseChars (cs : List Char) : Option Members := do
  let cs := match cs with
    | '\uFEFF' :: rest => rest
    | cs => cs
  ofStatements (← readStatements (cs.length + 1) cs)

def parse (text : String) : Option Members :=
  parseChars text.toList

end SyncAudit.Toml
