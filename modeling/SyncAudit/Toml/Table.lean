import SyncAudit.Toml.Scalar

/-!
# TOML tables

A document is put together statement by statement, and each table remembers how it came about:
that decides how it may be added to. A table named only on the way to another may still get a
header of its own; a table made by dotted keys may grow by dotted keys only; a table written in
braces is closed. No key is ever given twice.
-/
namespace SyncAudit.Toml

/-- How a table came about. -/
inductive TableKind where
  /-- It has a header of its own, or is the document itself. -/
  | declared
  /-- It was named by a header on the way to another table. -/
  | implied
  /-- It was named by a dotted key. -/
  | dotted
  /-- It was written as a value. -/
  | closed
  deriving DecidableEq, Repr

inductive Node where
  | scalar (s : Scalar)
  | array (items : List Node)
  /-- The tables of an array that has headers of its own, by their members. -/
  | tables (items : List (List (String × Node)))
  | table (kind : TableKind) (members : List (String × Node))

abbrev Members := List (String × Node)

/-- A key with dots: the names on the way and the last name. -/
structure Key where
  path : List String
  name : String
  deriving DecidableEq, Repr

/-- The members with a node under a name, in the place of the one that was there. -/
def Members.put (members : Members) (name : String) (node : Node) : Members :=
  match members with
  | [] => [(name, node)]
  | (other, v) :: rest =>
    if other = name then (name, node) :: rest else (other, v) :: Members.put rest name node

/-- What a table of a kind with given members turns into, if it may be changed. -/
abbrev Change := TableKind → Members → Option Members

/-- The members of the last table of an array after a change, with those of the others. -/
def changeLast (change : Members → Option Members) : List Members → Option (List Members)
  | [] => none
  | [members] => (change members).map ([·])
  | members :: rest => (changeLast change rest).map (members :: ·)

/-- A change of the table at the end of a path. Tables that are absent are made; a way through an
array of tables leads through its last one. -/
def changeAt (byDots : Bool) (change : Change) : List String → Change
  | [], kind, members => change kind members
  | name :: path, _, members =>
    match members.lookup name with
    | none => do
      let made := if byDots then TableKind.dotted else TableKind.implied
      let inner ← changeAt byDots change path made []
      some (members.put name (.table made inner))
    | some (.table kind inner) => do
      if kind = .closed ∨ (byDots ∧ kind = .declared) then none
      let inner ← changeAt byDots change path kind inner
      some (members.put name (.table kind inner))
    | some (.tables items) => do
      let items ← changeLast (changeAt byDots change path .declared) items
      some (members.put name (.tables items))
    | some _ => none

/-- Adds a member to a table. A key without dots adds to tables that are not made by dots, and a
key with dots to those that are. -/
def addMember (key : Key) (node : Node) : Change := fun kind members =>
  if decide (kind = .dotted) = key.path.isEmpty then none
  else if (members.lookup key.name).isSome then none
  else some (members.put key.name node)

/-- Adds a value under a key to a table. -/
def addValue (key : Key) (node : Node) : Change :=
  changeAt true (addMember key node) key.path

/-- Gives a table its header. -/
def declare (name : String) : Change := fun _ members =>
  match members.lookup name with
  | none => some (members.put name (.table .declared []))
  | some (.table .implied inner) => some (members.put name (.table .declared inner))
  | some _ => none

/-- Adds a table to an array of tables. -/
def declareItem (name : String) : Change := fun _ members =>
  match members.lookup name with
  | none => some (members.put name (.tables [[]]))
  | some (.tables items) => some (members.put name (.tables (items ++ [[]])))
  | some _ => none

/-- The closed table of the given values. -/
def inlineTable (values : List (Key × Node)) : Option Node := do
  let members ← values.foldlM (fun members (key, node) => addValue key node .closed members) []
  some (.table .closed members)

/-! ## Documents -/

inductive Statement where
  | header (key : Key)
  | itemHeader (key : Key)
  | value (key : Key) (node : Node)

/-- A document under way: its members and the path of the table that values are added to. -/
structure Draft where
  members : Members
  current : List String

def Draft.empty : Draft :=
  ⟨[], []⟩

/-- The document after one more statement. -/
def Draft.add (draft : Draft) : Statement → Option Draft
  | .header key => do
    let members ← changeAt false (declare key.name) key.path .declared draft.members
    some ⟨members, key.path ++ [key.name]⟩
  | .itemHeader key => do
    let members ← changeAt false (declareItem key.name) key.path .declared draft.members
    some ⟨members, key.path ++ [key.name]⟩
  | .value key node => do
    let members ← changeAt false (addValue key node) draft.current .declared draft.members
    some ⟨members, draft.current⟩

/-- The members of the document that a list of statements makes. -/
def ofStatements (statements : List Statement) : Option Members := do
  let draft ← statements.foldlM Draft.add .empty
  some draft.members

end SyncAudit.Toml
