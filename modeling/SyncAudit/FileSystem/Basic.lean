import SyncAudit.Path

/-!
# File systems

A file system is a finite table from locations to nodes. A location is the list of names that
leads to a node from the top, innermost name first, so the directory of a node is the tail of its
location. No two rows of the table have the same location. Each node carries the access that the
auditing process has to it; who owns it does not matter beyond that.
-/
namespace SyncAudit

/-- What a process may do with a file or a directory. -/
structure Access where
  read : Bool
  write : Bool
  search : Bool
  deriving DecidableEq, Repr

def Access.full : Access :=
  ⟨true, true, true⟩

inductive Node where
  | file (access : Access) (content : List UInt8)
  | directory (access : Access)
  | link (target : Path)
  deriving DecidableEq, Repr

def Node.isDirectory : Node → Bool
  | .directory _ => true
  | _ => false

def Node.isFile : Node → Bool
  | .file _ _ => true
  | _ => false

def Node.isLink : Node → Bool
  | .link _ => true
  | _ => false

/-- The names from a node up to the top. -/
abbrev Location := List Name

/-- The conditions that the operating system reports, with their numbers and texts. -/
inductive Errno where
  | notPermitted
  | noEntry
  | inputOutput
  | accessDenied
  | exists
  | notDirectory
  | isDirectory
  | invalidArgument
  | noSpace
  | nameTooLong
  | notEmpty
  | tooManyLinks
  deriving DecidableEq, Repr

namespace Errno

def code : Errno → Nat
  | .notPermitted => 1
  | .noEntry => 2
  | .inputOutput => 5
  | .accessDenied => 13
  | .exists => 17
  | .notDirectory => 20
  | .isDirectory => 21
  | .invalidArgument => 22
  | .noSpace => 28
  | .nameTooLong => 36
  | .notEmpty => 39
  | .tooManyLinks => 40

def text : Errno → String
  | .notPermitted => "Operation not permitted"
  | .noEntry => "No such file or directory"
  | .inputOutput => "Input/output error"
  | .accessDenied => "Permission denied"
  | .exists => "File exists"
  | .notDirectory => "Not a directory"
  | .isDirectory => "Is a directory"
  | .invalidArgument => "Invalid argument"
  | .noSpace => "No space left on device"
  | .nameTooLong => "File name too long"
  | .notEmpty => "Directory not empty"
  | .tooManyLinks => "Too many levels of symbolic links"

def all : List Errno :=
  [.notPermitted, .noEntry, .inputOutput, .accessDenied, .exists, .notDirectory, .isDirectory,
    .invalidArgument, .noSpace, .nameTooLong, .notEmpty, .tooManyLinks]

def ofCode? (n : Nat) : Option Errno :=
  all.find? fun e => e.code = n

end Errno

/-- Why a file operation failed. -/
inductive IoError where
  | os (e : Errno)
  | nulInPath
  | invalidUtf8
  deriving DecidableEq, Repr

def IoError.message : IoError → String
  | .os e => s!"{e.text} (os error {e.code})"
  | .nulInPath => "file name contained an unexpected NUL byte"
  | .invalidUtf8 => "stream did not contain valid UTF-8"

structure FileSystem where
  /-- The nodes by location. -/
  nodes : List (Location × Node)
  /-- The directory that relative paths start from. -/
  here : Location
  nodup : (nodes.map Prod.fst).Nodup

namespace FileSystem

def node? (fs : FileSystem) (loc : Location) : Option Node :=
  fs.nodes.lookup loc

/-- The names of the nodes in a directory. -/
def namesIn (fs : FileSystem) (loc : Location) : List Name :=
  fs.nodes.filterMap fun row =>
    match row.1 with
    | [] => none
    | n :: parent => if parent = loc then some n else none

/-- The table with another node in the rows of a location. -/
def replaceRows (loc : Location) (node : Node) (rows : List (Location × Node)) :
    List (Location × Node) :=
  rows.map fun row => if row.1 = loc then (loc, node) else row

theorem map_fst_replaceRows (loc : Location) (node : Node) (rows : List (Location × Node)) :
    (replaceRows loc node rows).map Prod.fst = rows.map Prod.fst := by
  induction rows with
  | nil => rfl
  | cons row rest ih =>
    simp only [replaceRows, List.map_cons] at ih ⊢
    rw [ih]
    by_cases h : row.1 = loc
    · simp [h]
    · simp [h]

/-- The file system in which `node` stands at `loc`, whatever stood there before. -/
def put (fs : FileSystem) (loc : Location) (node : Node) : FileSystem :=
  if h : loc ∈ fs.nodes.map Prod.fst then
    { fs with
      nodes := replaceRows loc node fs.nodes
      nodup := by rw [map_fst_replaceRows]; exact fs.nodup }
  else
    { fs with
      nodes := fs.nodes ++ [(loc, node)]
      nodup := by
        rw [List.map_append, List.nodup_append]
        refine ⟨fs.nodup, by simp, ?_⟩
        intro a ha b hb hab
        simp only [List.map_cons, List.map_nil, List.mem_singleton] at hb
        exact h (hb ▸ hab ▸ ha) }

/-- The directories from the top down to a location. -/
def ancestry : Location → List Location
  | [] => [[]]
  | n :: parent => ancestry parent ++ [n :: parent]

/-- The file system with nothing in it but the directories from the top down to `here`. -/
def empty (here : Location) : FileSystem :=
  (ancestry here).foldl (fun fs loc => fs.put loc (.directory .full)) ⟨[], here, by simp⟩

/-- The same file system after a change of its nodes, each in its place. -/
def mapNodes (f : Location → Node → Node) (fs : FileSystem) : FileSystem :=
  { fs with
    nodes := fs.nodes.map fun row => (row.1, f row.1 row.2)
    nodup := by
      have h : (fs.nodes.map fun row => (row.1, f row.1 row.2)).map Prod.fst
          = fs.nodes.map Prod.fst := by simp
      rw [h]
      exact fs.nodup }

end FileSystem
end SyncAudit
