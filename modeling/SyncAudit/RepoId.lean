import SyncAudit.Error
import SyncAudit.Text.Blank

/-!
# Repository ids

A repository is named by a namespace and a name within it, written with a slash between them.
Neither part may be empty, and the name holds no further slash. White space around an id is
dropped; white space next to the slash belongs to the parts.
-/
namespace SyncAudit

structure RepoId where
  ns : String
  name : String
  deriving DecidableEq, Repr

namespace RepoId

/-- The text under which an id is looked up. -/
def key (id : RepoId) : String :=
  id.ns ++ "/" ++ id.name

/-- The two parts of a text at its first slash. -/
def splitAtSlash (cs : List Char) : Option (List Char × List Char) :=
  match cs.dropWhile (· ≠ '/') with
  | [] => none
  | _ :: rest => some (cs.takeWhile (· ≠ '/'), rest)

/-- The id that a trimmed text spells. -/
def ofTrimmed? (cs : List Char) : Option RepoId :=
  match splitAtSlash cs with
  | none => none
  | some (ns, name) =>
    if ns = [] ∨ name = [] ∨ '/' ∈ name then none
    else some ⟨String.ofList ns, String.ofList name⟩

/-- The id that a text spells, white space around it aside. -/
def parse? (raw : String) : Option RepoId :=
  ofTrimmed? (Text.trimChars raw.toList)

/-- The id that a text spells, or the text that spells none, in both cases without the white space
around it. -/
def parse (raw : String) : Except AuditError RepoId :=
  match parse? raw with
  | some id => .ok id
  | none => .error (.validation (.malformedId (Text.trim raw)))

end RepoId
end SyncAudit
