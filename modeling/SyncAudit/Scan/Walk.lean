import SyncAudit.Scan.Entry

/-!
# The walk

Entries are visited in the order of their names, each namespace before the repositories in it.
The namespace of a repository is read off the path of its directory.
-/
namespace SyncAudit

/-- A repository directory found below the root. -/
structure FoundRepo where
  id : RepoId
  path : Path
  deriving DecidableEq, Repr

namespace Scan

/-- The runs for the items of a list, one after the other, with their results joined. -/
def collect {α β : Type} (f : α → Run (List β)) : List α → Run (List β)
  | [] => pure []
  | a :: rest => do
    let here ← f a
    let later ← collect f rest
    pure (here ++ later)

/-- Passes over an error of the walk if it comes from a link, and breaks off otherwise. -/
def raise (fs : FileSystem) (e : WalkError) : Run (List FoundRepo) :=
  if isUnfollowable fs e then do
    Run.log (.skippingLink e)
    pure []
  else Run.fail (.walk e)

/-- The text of a directory's name, with a warning where the name is not valid UTF-8. -/
def nameText (n : Name) (path : Path) : Run String :=
  match Text.ofBytes? n with
  | some s => pure s
  | none => do
    let lossy := Text.ofBytesLossy n
    Run.log (.undecodableName lossy path)
    pure lossy

/-- The path of the directory that holds the repository at `path`, and that directory's name. -/
def namespaceOf? (path : Path) : Option (Path × Name) :=
  match path.parent? with
  | none => none
  | some parent => parent.fileName?.map fun n => (parent, n)

/-- The repository at the path of a directory named `n`. -/
def identify (path : Path) (n : Name) : Run (List FoundRepo) :=
  match namespaceOf? path with
  | none => Run.fail (.validation (.noNamespace path))
  | some (parent, ns) => do
    let nsText ← nameText ns parent
    let name ← nameText n path
    pure [⟨⟨nsText, name⟩, path⟩]

/-- Goes on with an entry that is admitted and logs why any other is passed over. -/
def settle (outcome : Outcome) (onAdmitted : Path → Run (List FoundRepo)) :
    Run (List FoundRepo) :=
  match outcome with
  | .admitted path => onAdmitted path
  | .notDirectory path => do
    Run.log (.skippingNonDirectory path)
    pure []
  | .hidden path => do
    Run.log (.skippingHidden path)
    pure []
  | .unfollowable e => do
    Run.log (.skippingLink e)
    pure []
  | .broken e => Run.fail (.walk e)

/-- The repositories in the namespace directory at `path`. -/
def scanNamespace (fs : FileSystem) (options : AuditOptions) (root : Ancestor) (path : Path) :
    Run (List FoundRepo) := do
  Run.log (.processing path)
  match fs.list path with
  | .error e => raise fs (.io path e)
  | .ok (loc, names) =>
    collect (fun n =>
      settle (visit fs options [⟨path, loc⟩, root] path loc n) fun p => identify p n) names

/-- The repositories below a root that is a directory. -/
def scanDirectory (fs : FileSystem) (options : AuditOptions) (root : Path) :
    Run (List FoundRepo) :=
  match fs.list root with
  | .error e => raise fs (.io root e)
  | .ok (loc, names) =>
    collect (fun n =>
      settle (visit fs options [⟨root, loc⟩] root loc n) fun p =>
        scanNamespace fs options ⟨root, loc⟩ p) names

/-- The repositories below a root. A root that is a link is always followed; it counts as opened
for comparison only when links are followed in general. -/
def scanRoot (fs : FileSystem) (options : AuditOptions) (root : Path) : Run (List FoundRepo) :=
  match fs.linkStat root with
  | .error e => raise fs (.io root e)
  | .ok (.directory _) => scanDirectory fs options root
  | .ok (.file _ _) => pure []
  | .ok (.link _) =>
    match fs.stat root with
    | .error e => raise fs (.io root e)
    | .ok (.directory _) =>
      if options.followLinks then
        match fs.openForReading root with
        | .error e => raise fs (.unopened e)
        | .ok _ => scanDirectory fs options root
      else scanDirectory fs options root
    | .ok _ => pure []

/-- Every repository directory two levels below the root. -/
def scan (fs : FileSystem) (options : AuditOptions) (root : Path) : Run (List FoundRepo) := do
  Run.log (.scanning root)
  let repos ← scanRoot fs options root
  Run.log (.foundRepos repos.length)
  pure repos

end Scan
end SyncAudit
