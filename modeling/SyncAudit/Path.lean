import SyncAudit.Text.Utf8

/-!
# Paths

A path is any list of bytes. Slashes part it into names; which names a file system admits, and
what the path leads to, is not decided here. `parent?` and `fileName?` read the text alone: they
pass over repeated slashes and over single dots behind the start of the path.
-/
namespace SyncAudit

/-- The name of an entry in a directory: bytes, not text. -/
abbrev Name := List UInt8

structure Path where
  bytes : List UInt8
  deriving DecidableEq, Repr, Inhabited

def slash : UInt8 := 0x2F

/-- The byte of a dot. -/
def fullStop : UInt8 := 0x2E

/-- The name by which a directory refers to itself. -/
def dot : Name := [0x2E]

/-- The name by which a directory refers to the one above it. -/
def dotDot : Name := [0x2E, 0x2E]

/-- The parts of a byte list between slashes, empty ones included. -/
def splitSlashes : List UInt8 → List Name
  | [] => [[]]
  | b :: rest =>
    if b = slash then [] :: splitSlashes rest
    else
      match splitSlashes rest with
      | part :: parts => (b :: part) :: parts
      | [] => [[b]]

namespace Path

def ofString (s : String) : Path :=
  ⟨Text.toBytes s⟩

/-- The text of a path in messages. -/
def display (p : Path) : String :=
  Text.ofBytesLossy p.bytes

def isEmpty (p : Path) : Bool :=
  p.bytes.isEmpty

def isAbsolute (p : Path) : Bool :=
  p.bytes.head? = some slash

/-- Whether a path ends in a slash, so that it can only lead to a directory. -/
def endsInSlash (p : Path) : Bool :=
  p.bytes.getLast? = some slash

/-- The names of a path in order. -/
def names (p : Path) : List Name :=
  (splitSlashes p.bytes).filter (· ≠ [])

/-- The path `q` taken from `p`: `q` itself if it is absolute, else both with one slash between
them. -/
def join (p q : Path) : Path :=
  if q.isAbsolute then q
  else if p.isEmpty ∨ p.endsInSlash then ⟨p.bytes ++ q.bytes⟩
  else ⟨p.bytes ++ slash :: q.bytes⟩

/-- The path of an entry of the directory at `p`. -/
def child (p : Path) (n : Name) : Path :=
  p.join ⟨n⟩

/-- How many bytes at the front stand for the start of the path: a slash, or a dot alone or
before a slash. -/
def anchorLength (p : Path) : Nat :=
  match p.bytes with
  | [] => 0
  | [b] => if b = slash ∨ [b] = dot then 1 else 0
  | b :: c :: _ => if b = slash ∨ ([b] = dot ∧ c = slash) then 1 else 0

/-- Drops the empty parts and the dots at the front of a reversed path. -/
def dropIdle : List UInt8 → List UInt8
  | [] => []
  | [b] => if b = slash ∨ [b] = dot then [] else [b]
  | b :: c :: rest =>
    if b = slash then dropIdle (c :: rest)
    else if [b] = dot ∧ c = slash then dropIdle rest
    else b :: c :: rest

/-- The path behind its start, reversed and without idle parts at its end. -/
def reversedBody (p : Path) : List UInt8 :=
  dropIdle (p.bytes.drop p.anchorLength).reverse

/-- The last name of a path, if it is not a step upwards. -/
def fileName? (p : Path) : Option Name :=
  let last := (p.reversedBody.takeWhile (· ≠ slash)).reverse
  if last = [] ∨ last = dotDot then none else some last

/-- The path without its last name. -/
def parent? (p : Path) : Option Path :=
  let body := p.reversedBody
  if body = [] then
    if p.isAbsolute ∨ p.anchorLength = 0 then none else some ⟨[]⟩
  else
    some ⟨p.bytes.take p.anchorLength ++ (dropIdle (body.dropWhile (· ≠ slash))).reverse⟩

/-- The path up to the end of its last name, if it has one that is no step upwards. -/
def trimmed? (p : Path) : Option Path :=
  p.fileName?.map fun _ => ⟨p.bytes.take p.anchorLength ++ p.reversedBody.reverse⟩

/-- The part of a name behind its last dot, unless that dot stands first. -/
def suffixOf? (n : Name) : Option Name :=
  match n.reverse.dropWhile (· ≠ fullStop) with
  | _ :: _ :: _ => some (n.reverse.takeWhile (· ≠ fullStop)).reverse
  | _ => none

/-- The part of the last name of a path behind its last dot. -/
def suffix? (p : Path) : Option Name :=
  p.fileName?.bind suffixOf?

/-- The path with a dot and a suffix behind its last name. -/
def withSuffix (p : Path) (suffix : Name) : Path :=
  ⟨p.bytes ++ fullStop :: suffix⟩

/-- The names that lead from one directory to a file, both given by the names from the top. -/
def relativeNames : List Name → List Name → List Name
  | [], names => names
  | base, [] => base.map fun _ => dotDot
  | b :: base, n :: names =>
    if b = n then relativeNames base names
    else (b :: base).map (fun _ => dotDot) ++ n :: names

/-- The names of a path without those that lead nowhere. -/
def steps (p : Path) : List Name :=
  p.names.filter (· ≠ dot)

/-- Names with slashes between them. -/
def ofNames : List Name → Path
  | [] => ⟨[]⟩
  | [n] => ⟨n⟩
  | n :: rest => ⟨n ++ slash :: (ofNames rest).bytes⟩

/-- A path as seen from a directory, both given from the top. -/
def relativeTo (base p : Path) : Path :=
  ofNames (relativeNames base.steps p.steps)

end Path
end SyncAudit
