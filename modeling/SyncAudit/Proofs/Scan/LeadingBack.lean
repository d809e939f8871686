import SyncAudit.Proofs.Scan.Discovery

/-!
# Repositories that lead back

A link that leads back to a directory on the walk's path is passed over, so no repository is the
namespace that it is found in. That it is not the root either is true but for one case: a namespace
may be a link to the directory that holds the root. The root is an entry of that directory, no link
has to be followed to get there, and the walk finds it as a repository.
-/
namespace SyncAudit.Scan

variable {fs : FileSystem} {options : AuditOptions} {root : Path} {repos : List FoundRepo}
  {dir : Ancestor} {above : List Ancestor} {ns r : Name} {rootLoc nsLoc rLoc : Location}

/-- The entry `ns` of the root is a link to the directory that holds the root, under the name
`r`. -/
def LeadsAbove (fs : FileSystem) (root : Path) (ns r : Name) : Prop :=
  ∃ up node target access, fs.locate .follow root = .ok (r :: up, node) ∧
    fs.node? (ns :: r :: up) = some (.link target) ∧
    fs.locate .follow (root.child ns) = .ok (up, .directory access)

/-- No entry is the directory that it is entered from. -/
theorem Enters.ne_dir (h : Enters fs options dir above ns nsLoc) : nsLoc ≠ dir.loc := by
  cases h with
  | directory _ _ => exact List.cons_ne_self ns dir.loc
  | link _ _ _ hoff _ => exact (hoff dir List.mem_cons_self).symm

/-- An entry two levels down is the root exactly if the way there goes through a link to the
directory that holds the root. -/
theorem Enters.eq_root_iff {nsAccess access : Access}
    (hroot : fs.locate .follow root = .ok (rootLoc, .directory access))
    (hnamespace : fs.locate .follow (root.child ns) = .ok (nsLoc, .directory nsAccess))
    (hns : Enters fs options ⟨root, rootLoc⟩ [] ns nsLoc)
    (hr : Enters fs options ⟨root.child ns, nsLoc⟩ [⟨root, rootLoc⟩] r rLoc) :
    rLoc = rootLoc ↔ options.followLinks = true ∧ LeadsAbove fs root ns r := by
  constructor
  · rintro rfl
    cases hr with
    | link _ _ _ hoff _ => exact absurd rfl (hoff ⟨root, rLoc⟩ (by simp))
    | directory _ _ =>
      -- Two steps down through directories lead away from the root: the first one is a link.
      cases hns with
      | link hfollow hnode hl _ _ => exact ⟨hfollow, _, _, _, _, hroot, hnode, hl⟩
  · rintro ⟨-, up, node, target, upAccess, hroot', hlink, hl⟩
    obtain ⟨rfl, -⟩ := FileSystem.locate_unique hroot hroot'
    obtain ⟨rfl, -⟩ := FileSystem.locate_unique hnamespace hl
    cases hr with
    | directory _ _ => rfl
    | link _ hnode _ _ _ =>
      have hplace : fs.node? (r :: nsLoc) = some (.directory access) :=
        FileSystem.lookup_isPlace (FileSystem.locate_eq_ok_iff.mp hroot)
      simp [hplace] at hnode

/-- No repository that a scan finds leads to its own namespace. One leads to the root exactly if its
namespace is a link, which is followed, to the directory that holds the root. -/
theorem repo_leads_back_iff (hfs : fs.ProperNames)
    (hscan : (scan fs options root).result = .ok repos) {repo : FoundRepo} (hrepo : repo ∈ repos)
    {loc : Location} {node : Node} (hl : fs.locate .follow repo.path = .ok (loc, node)) :
    ∃ ns r, repo = repoAt root (ns, r) ∧
      (∀ nsNode, fs.locate .follow (root.child ns) ≠ .ok (loc, nsNode)) ∧
      ((∃ rootNode, fs.locate .follow root = .ok (loc, rootNode)) ↔
        options.followLinks = true ∧ LeadsAbove fs root ns r) := by
  obtain ⟨ns, r, hdiscovers, rfl⟩ := (mem_scan_iff hfs hscan).mp hrepo
  obtain ⟨-, hrName⟩ := hdiscovers.entryNames hfs
  obtain ⟨rootLoc, names, nsLoc, rLoc, hroot, hns, hr⟩ := hdiscovers
  obtain ⟨access, hrootAt, -⟩ := FileSystem.list_eq_ok_iff.mp hroot
  have hwalks : Walks fs options root ⟨root, rootLoc⟩ [] := .root hroot
  obtain ⟨_, hsettled⟩ := (hwalks.entry hns).settled hfs hscan
  obtain ⟨nsAccess, hnsAt, -⟩ := FileSystem.list_eq_ok_iff.mp hsettled.listed
  obtain rfl : loc = rLoc := hr.loc_eq_of_locate hnsAt hrName hl
  refine ⟨ns, r, rfl, ?_, ?_⟩
  · intro nsNode hnsAt'
    exact hr.ne_dir (FileSystem.locate_unique hnsAt' hnsAt).1
  · rw [← hns.eq_root_iff hrootAt hnsAt hr]
    constructor
    · rintro ⟨rootNode, hrootAt'⟩
      exact (FileSystem.locate_unique hrootAt' hrootAt).1
    · rintro rfl
      exact ⟨_, hrootAt⟩

/-- A root with a namespace and with a link to the directory that holds the root. -/
def risingShelf : FileSystem :=
  .ofFixtures []
    [.directory (.ofString "sync/acme/widgets"), .link (.ofString "sync/up") (.ofString "..")]

theorem risingShelf_scan :
    (scan risingShelf .default (.ofString "sync")).result =
      .ok [⟨⟨"acme", "widgets"⟩, .ofString "sync/acme/widgets"⟩,
        ⟨⟨"up", "sync"⟩, .ofString "sync/up/sync"⟩] := by
  decide +kernel

theorem risingShelf_leads_back :
    ∃ ns r, (⟨⟨"up", "sync"⟩, .ofString "sync/up/sync"⟩ : FoundRepo) =
        repoAt (.ofString "sync") (ns, r) ∧
      (∀ nsNode, risingShelf.locate .follow ((Path.ofString "sync").child ns) ≠
        .ok ([Text.toBytes "sync"], nsNode)) ∧
      ((∃ rootNode, risingShelf.locate .follow (.ofString "sync") =
          .ok ([Text.toBytes "sync"], rootNode)) ↔
        AuditOptions.default.followLinks = true ∧
          LeadsAbove risingShelf (.ofString "sync") ns r) :=
  repo_leads_back_iff (FileSystem.properNames_ofFixtures (by decide) _) risingShelf_scan (by simp)
    (show risingShelf.locate .follow (.ofString "sync/up/sync") =
      .ok ([Text.toBytes "sync"], .directory .full) by decide +kernel)

/-- A scan finds its own root as a repository. -/
theorem risingShelf_finds_root :
    ∃ repos, (scan risingShelf .default (.ofString "sync")).result = .ok repos ∧
      ∃ repo ∈ repos, risingShelf.locate .follow repo.path =
        risingShelf.locate .follow (.ofString "sync") ∧
          risingShelf.isDirectory repo.path = true :=
  ⟨_, risingShelf_scan, ⟨⟨"up", "sync"⟩, .ofString "sync/up/sync"⟩, by simp, by decide +kernel,
    by decide +kernel⟩

end SyncAudit.Scan
