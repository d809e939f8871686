import SyncAudit.Proofs.Scan.Narrowing

/-!
# Scans that follow no links

Following links adds repositories to a scan and disturbs none of the others. Where a scan that
follows links succeeds, one that does not follow them succeeds too and finds, in the same order, the
repositories whose namespace and whose own entry are directories themselves. Only the root may be a
link in both.
-/
namespace SyncAudit

/-- The options with links followed or not. -/
def AuditOptions.withLinks (options : AuditOptions) (followed : Bool) : AuditOptions :=
  { options with followLinks := followed }

namespace Scan

variable {fs : FileSystem} {options : AuditOptions} {root : Path} {repos : List FoundRepo}
  {dir : Ancestor} {above : List Ancestor} {n ns r : Name} {loc : Location}

/-- Whether the first entry, in the root, and the second one, in the first, are directories and not
links. -/
def areDirectories (fs : FileSystem) (root : Path) (pair : Name × Name) : Bool :=
  match fs.locate .follow root with
  | .ok (loc, _) =>
    (fs.node? (pair.1 :: loc)).any Node.isDirectory &&
      (fs.node? (pair.2 :: pair.1 :: loc)).any Node.isDirectory
  | .error _ => false

theorem any_isDirectory_iff {found : Option Node} :
    found.any Node.isDirectory = true ↔ ∃ access, found = some (.directory access) := by
  cases found with
  | none => simp
  | some node => cases node <;> simp [Node.isDirectory]

theorem enters_without_links_iff :
    Enters fs (options.withLinks false) dir above n loc ↔
      loc = n :: dir.loc ∧ (∃ access, fs.node? (n :: dir.loc) = some (.directory access)) ∧
        Shown options n := by
  constructor
  · rintro (⟨hnode, hshown⟩ | ⟨hfollow, -⟩)
    · exact ⟨rfl, ⟨_, hnode⟩, hshown⟩
    · cases hfollow
  · rintro ⟨rfl, ⟨access, hnode⟩, hshown⟩
    exact .directory hnode hshown

/-- Without links followed, an entry is entered if it is with links followed and is a directory. -/
theorem Enters.without_links_iff (h : Enters fs (options.withLinks true) dir above n loc) :
    Enters fs (options.withLinks false) dir above n loc ↔
      (fs.node? (n :: dir.loc)).any Node.isDirectory = true := by
  rw [enters_without_links_iff, any_isDirectory_iff]
  constructor
  · rintro ⟨-, hnode, -⟩
    exact hnode
  · intro hnode
    cases h with
    | directory _ hshown => exact ⟨rfl, hnode, hshown⟩
    | link _ hlink _ _ _ =>
      obtain ⟨access, hdirectory⟩ := hnode
      simp [hlink] at hdirectory

/-- Nothing breaks a walk off that follows no links, except for a directory that it cannot list. -/
theorem visit_without_links (dir : Ancestor) (above : List Ancestor) (n : Name) (e : WalkError) :
    visit fs (options.withLinks false) (dir :: above) dir.path dir.loc n ≠ .broken e := by
  rcases visit_cases fs (options.withLinks false) dir above n with
    ⟨-, -, hvisit⟩ | ⟨-, -, hfollow, -⟩ | ⟨-, -, hvisit⟩
  · rw [hvisit]
    exact sift_ne_broken _ (dir.path.child n) n e
  · cases hfollow
  · simp [hvisit]

theorem narrows_without_links :
    Narrows fs (options.withLinks true) (options.withLinks false) where
  enters _ _ _ _ h := by
    obtain ⟨rfl, ⟨access, hnode⟩, hshown⟩ := enters_without_links_iff.mp h
    exact .directory hnode hshown
  unbroken dir above n _ := visit_without_links dir above n
  followed _ := rfl

/-- The repositories that are still discovered are those below directories. -/
theorem Discovers.without_links_iff (h : Discovers fs (options.withLinks true) root ns r) :
    Discovers fs (options.withLinks false) root ns r ↔ areDirectories fs root (ns, r) = true := by
  obtain ⟨rootLoc, names, nsLoc, rLoc, hroot, hns, hr⟩ := h
  obtain ⟨access, hlocate, -⟩ := FileSystem.list_eq_ok_iff.mp hroot
  have hdirectories : areDirectories fs root (ns, r) = true ↔
      (fs.node? (ns :: rootLoc)).any Node.isDirectory = true ∧
        (fs.node? (r :: ns :: rootLoc)).any Node.isDirectory = true := by
    rw [areDirectories, hlocate, Bool.and_eq_true]
  rw [hdirectories, ← hns.without_links_iff]
  constructor
  · rintro ⟨rootLoc', names', nsLoc', rLoc', hroot', hns', hr'⟩
    obtain ⟨rfl, -⟩ := FileSystem.list_unique hroot hroot'
    obtain ⟨rfl, hnsNode, hnsShown⟩ := enters_without_links_iff.mp hns'
    obtain ⟨-, hrNode, -⟩ := enters_without_links_iff.mp hr'
    exact ⟨hns.without_links_iff.mpr (any_isDirectory_iff.mpr hnsNode),
      any_isDirectory_iff.mpr hrNode⟩
  · rintro ⟨hns', hrNode⟩
    obtain ⟨rfl, -, -⟩ := enters_without_links_iff.mp hns'
    exact ⟨rootLoc, names, _, rLoc, hroot, hns', hr.without_links_iff.mpr hrNode⟩

/-- Where a scan that follows links succeeds, one that does not follow them succeeds as well. It
finds those of the pairs whose two entries are directories, in the same order. -/
theorem scan_without_links (hfs : fs.ProperNames)
    (hscan : (scan fs (options.withLinks true) root).result = .ok repos) :
    ∃ pairs : List (Name × Name), pairs.Nodup ∧
      (∀ ns r, (ns, r) ∈ pairs ↔ Discovers fs (options.withLinks true) root ns r) ∧
      repos = pairs.map (repoAt root) ∧
      (scan fs (options.withLinks false) root).result =
        .ok ((pairs.filter (areDirectories fs root)).map (repoAt root)) :=
  narrows_without_links.scan_result hfs hscan (areDirectories fs root)
    fun _ _ h => h.without_links_iff

/-- A namespace with a repository and with a link to another one, and a link to a namespace. -/
def borrowingShelf : FileSystem :=
  .ofFixtures []
    [.directory (.ofString "sync/acme/widgets"), .directory (.ofString "store/repo"),
      .link (.ofString "sync/acme/tools") (.ofString "../../store/repo"),
      .link (.ofString "sync/shared") (.ofString "../store")]

theorem borrowingShelf_scan :
    (scan borrowingShelf (AuditOptions.default.withLinks true) (.ofString "sync")).result =
      .ok [⟨⟨"acme", "tools"⟩, .ofString "sync/acme/tools"⟩,
        ⟨⟨"acme", "widgets"⟩, .ofString "sync/acme/widgets"⟩,
        ⟨⟨"shared", "repo"⟩, .ofString "sync/shared/repo"⟩] := by
  decide +kernel

theorem borrowingShelf_without_links :
    ∃ pairs : List (Name × Name), pairs.Nodup ∧
      (∀ ns r, (ns, r) ∈ pairs ↔ Discovers borrowingShelf (AuditOptions.default.withLinks true)
        (.ofString "sync") ns r) ∧
      [⟨⟨"acme", "tools"⟩, .ofString "sync/acme/tools"⟩,
          ⟨⟨"acme", "widgets"⟩, .ofString "sync/acme/widgets"⟩,
          ⟨⟨"shared", "repo"⟩, .ofString "sync/shared/repo"⟩] =
        pairs.map (repoAt (.ofString "sync")) ∧
      (scan borrowingShelf (AuditOptions.default.withLinks false) (.ofString "sync")).result =
        .ok ((pairs.filter (areDirectories borrowingShelf (.ofString "sync"))).map
          (repoAt (.ofString "sync"))) :=
  scan_without_links (FileSystem.properNames_ofFixtures (by decide) _) borrowingShelf_scan

end Scan
end SyncAudit
