import SyncAudit.Proofs.FileSystem.Described
import SyncAudit.Proofs.Scan.Settling

/-!
# What a scan finds

The repositories of a scan that succeeds are the entries that are entered below the entries of the
root that are entered, each once, in the order of the two names.
-/
namespace SyncAudit.Scan

variable {fs : FileSystem} {options : AuditOptions} {root : Path} {rootLoc : Location}
  {names : List Name} {repos : List FoundRepo}

/-- The pairs of a namespace and a repository in it are in the order of the namespaces and, within
one, of the repositories. -/
theorem flatMap_pairs_pairwise {namespaces : List Name} {reposIn : Name → List Name}
    (hns : namespaces.Pairwise (· < ·)) (hrepos : ∀ ns, (reposIn ns).Pairwise (· < ·)) :
    (namespaces.flatMap fun ns => (reposIn ns).map fun r => (ns, r)).Pairwise
      fun a b => a.1 < b.1 ∨ a.1 = b.1 ∧ a.2 < b.2 := by
  rw [List.pairwise_flatMap]
  constructor
  · intro ns _
    rw [List.pairwise_map]
    exact (hrepos ns).imp fun h => .inr ⟨rfl, h⟩
  · refine hns.imp fun hlt x hx y hy => ?_
    obtain ⟨_, _, rfl⟩ := List.mem_map.mp hx
    obtain ⟨_, _, rfl⟩ := List.mem_map.mp hy
    exact .inl hlt

/-- The pairs of an admitted entry of the root and an admitted entry in it. -/
def admittedPairs (fs : FileSystem) (options : AuditOptions) (root : Ancestor) :
    List (Name × Name) :=
  (admittedIn fs options [] root.path).flatMap fun ns =>
    (admittedIn fs options [root] (root.path.child ns)).map fun r => (ns, r)

/-- The repository that is reported for a pair of names below a root. -/
def repoAt (root : Path) (pair : Name × Name) : FoundRepo :=
  ⟨⟨Text.ofBytesLossy pair.1, Text.ofBytesLossy pair.2⟩, (root.child pair.1).child pair.2⟩

theorem admittedPairs_pairwise (fs : FileSystem) (options : AuditOptions) (root : Ancestor) :
    (admittedPairs fs options root).Pairwise fun a b => a.1 < b.1 ∨ a.1 = b.1 ∧ a.2 < b.2 :=
  flatMap_pairs_pairwise (admittedIn_pairwise ..) fun _ => admittedIn_pairwise ..

theorem admittedPairs_nodup (fs : FileSystem) (options : AuditOptions) (root : Ancestor) :
    (admittedPairs fs options root).Nodup := by
  refine (admittedPairs_pairwise fs options root).imp ?_
  rintro pair _ hlt rfl
  rcases hlt with hlt | ⟨-, hlt⟩
  · exact List.lt_irrefl _ hlt
  · exact List.lt_irrefl _ hlt

theorem scan_repos (hfs : fs.ProperNames) (hroot : fs.list root = .ok (rootLoc, names))
    (hscan : (scan fs options root).result = .ok repos) :
    repos = (admittedPairs fs options ⟨root, rootLoc⟩).map (repoAt root) := by
  rw [scan_result, scanRoot_of_list hroot] at hscan
  obtain ⟨_, _, rfl⟩ := scanDirectory_result hfs hroot hscan
  rw [admittedPairs, List.map_flatMap]
  refine List.flatMap_congr fun ns _ => ?_
  rw [List.map_map]
  rfl

theorem mem_admittedPairs (hfs : fs.ProperNames) (hroot : fs.list root = .ok (rootLoc, names))
    (hscan : (scan fs options root).result = .ok repos) {ns r : Name} :
    (ns, r) ∈ admittedPairs fs options ⟨root, rootLoc⟩ ↔ ∃ nsLoc rLoc,
      Enters fs options ⟨root, rootLoc⟩ [] ns nsLoc ∧
        Enters fs options ⟨root.child ns, nsLoc⟩ [⟨root, rootLoc⟩] r rLoc := by
  have hwalks : Walks fs options root ⟨root, rootLoc⟩ [] := .root hroot
  obtain ⟨_, hsettled⟩ := hwalks.settled hfs hscan
  have hpair : (ns, r) ∈ admittedPairs fs options ⟨root, rootLoc⟩ ↔
      ns ∈ admittedIn fs options [] root ∧
        r ∈ admittedIn fs options [⟨root, rootLoc⟩] (root.child ns) := by
    simp [admittedPairs, List.mem_flatMap]
  rw [hpair, hsettled.mem_admittedIn]
  constructor
  · rintro ⟨⟨nsLoc, henters⟩, hr⟩
    obtain ⟨_, hinner⟩ := (hwalks.entry henters).settled hfs hscan
    obtain ⟨rLoc, hrenters⟩ := hinner.mem_admittedIn.mp hr
    exact ⟨nsLoc, rLoc, henters, hrenters⟩
  · rintro ⟨nsLoc, rLoc, henters, hrenters⟩
    obtain ⟨_, hinner⟩ := (hwalks.entry henters).settled hfs hscan
    exact ⟨⟨nsLoc, henters⟩, hinner.mem_admittedIn.mpr ⟨rLoc, hrenters⟩⟩

/-- A pair that is found consists of names that entries can have. -/
theorem entryNames_of_mem_admittedPairs (hfs : fs.ProperNames) {dir : Ancestor} {ns r : Name}
    (h : (ns, r) ∈ admittedPairs fs options dir) : EntryName ns ∧ EntryName r := by
  obtain ⟨ns', hns, hpair⟩ := List.mem_flatMap.mp h
  obtain ⟨r', hr, heq⟩ := List.mem_map.mp hpair
  obtain ⟨rfl, rfl⟩ := Prod.mk.inj heq
  exact ⟨entryName_of_admittedIn hfs hns, entryName_of_admittedIn hfs hr⟩

/-- A walk from the root enters the entry `ns` of the root and, below it, the entry `r`. -/
def Discovers (fs : FileSystem) (options : AuditOptions) (root : Path) (ns r : Name) : Prop :=
  ∃ rootLoc names nsLoc rLoc, fs.list root = .ok (rootLoc, names) ∧
    Enters fs options ⟨root, rootLoc⟩ [] ns nsLoc ∧
    Enters fs options ⟨root.child ns, nsLoc⟩ [⟨root, rootLoc⟩] r rLoc

theorem Discovers.nodes {ns r : Name} (h : Discovers fs options root ns r) :
    (∃ loc node, fs.node? (ns :: loc) = some node) ∧
      ∃ loc node, fs.node? (r :: loc) = some node := by
  obtain ⟨rootLoc, names, nsLoc, rLoc, -, hns, hr⟩ := h
  exact ⟨⟨_, hns.node⟩, _, hr.node⟩

theorem Discovers.entryNames (hfs : fs.ProperNames) {ns r : Name}
    (h : Discovers fs options root ns r) : EntryName ns ∧ EntryName r := by
  obtain ⟨⟨_, _, hns⟩, _, _, hr⟩ := h.nodes
  exact ⟨hfs _ _ hns ns List.mem_cons_self, hfs _ _ hr r List.mem_cons_self⟩

theorem mem_admittedPairs_iff_discovers (hfs : fs.ProperNames)
    (hroot : fs.list root = .ok (rootLoc, names))
    (hscan : (scan fs options root).result = .ok repos) {ns r : Name} :
    (ns, r) ∈ admittedPairs fs options ⟨root, rootLoc⟩ ↔ Discovers fs options root ns r := by
  rw [mem_admittedPairs hfs hroot hscan]
  constructor
  · rintro ⟨nsLoc, rLoc, hns, hr⟩
    exact ⟨rootLoc, names, nsLoc, rLoc, hroot, hns, hr⟩
  · rintro ⟨rootLoc', names', nsLoc, rLoc, hroot', hns, hr⟩
    obtain ⟨rfl, -⟩ := FileSystem.list_unique hroot' hroot
    exact ⟨nsLoc, rLoc, hns, hr⟩

theorem repos_of_list_error {e : IoError} (hroot : fs.list root = .error e)
    (hscan : (scan fs options root).result = .ok repos) : repos = [] := by
  rw [scan_result] at hscan
  rcases scanRoot_of_list_error options hroot with hnothing | ⟨err, hraise⟩ | ⟨err, hraise⟩
  · rw [hnothing] at hscan
    exact (Except.ok.inj hscan).symm
  · rw [hraise] at hscan
    exact raise_result hscan
  · rw [hraise] at hscan
    exact raise_result hscan

/-- What a scan finds are the pairs that it discovers, each once. A root that is not listed leaves
nothing to discover. -/
theorem exists_pairs_of_scan (hfs : fs.ProperNames)
    (hscan : (scan fs options root).result = .ok repos) :
    ∃ pairs : List (Name × Name), pairs.Nodup ∧
      (∀ ns r, (ns, r) ∈ pairs ↔ Discovers fs options root ns r) ∧
      repos = pairs.map (repoAt root) := by
  cases hlist : fs.list root with
  | ok found =>
    obtain ⟨loc, names⟩ := found
    exact ⟨admittedPairs fs options ⟨root, loc⟩, admittedPairs_nodup ..,
      fun ns r => mem_admittedPairs_iff_discovers hfs hlist hscan, scan_repos hfs hlist hscan⟩
  | error e =>
    obtain rfl := repos_of_list_error hlist hscan
    refine ⟨[], List.nodup_nil, ?_, rfl⟩
    simp [Discovers, hlist]

/-- A scan that succeeds finds the repositories at the pairs that it discovers. -/
theorem mem_scan_iff (hfs : fs.ProperNames)
    (hscan : (scan fs options root).result = .ok repos) {repo : FoundRepo} :
    repo ∈ repos ↔ ∃ ns r, Discovers fs options root ns r ∧ repo = repoAt root (ns, r) := by
  obtain ⟨pairs, -, hpairs, rfl⟩ := exists_pairs_of_scan hfs hscan
  rw [List.mem_map]
  constructor
  · rintro ⟨⟨ns, r⟩, hpair, rfl⟩
    exact ⟨ns, r, (hpairs ns r).mp hpair, rfl⟩
  · rintro ⟨ns, r, hdiscovers, rfl⟩
    exact ⟨(ns, r), (hpairs ns r).mpr hdiscovers, rfl⟩

/-- A scan that succeeds finds one repository for each entry that is entered below an entry of the
root that is entered, and nothing else, in the order of the two names. In which order the file
system holds its nodes does not matter. -/
theorem scan_finds_entered_pairs (hfs : fs.ProperNames)
    (hroot : fs.list root = .ok (rootLoc, names))
    (hscan : (scan fs options root).result = .ok repos) :
    ∃ pairs : List (Name × Name),
      pairs.Pairwise (fun a b => a.1 < b.1 ∨ a.1 = b.1 ∧ a.2 < b.2) ∧
      (∀ ns r, (ns, r) ∈ pairs ↔ ∃ nsLoc rLoc,
        Enters fs options ⟨root, rootLoc⟩ [] ns nsLoc ∧
          Enters fs options ⟨root.child ns, nsLoc⟩ [⟨root, rootLoc⟩] r rLoc) ∧
      repos = pairs.map fun pair =>
        ⟨⟨Text.ofBytesLossy pair.1, Text.ofBytesLossy pair.2⟩,
          ⟨root.stem ++ pair.1 ++ slash :: pair.2⟩⟩ := by
  refine ⟨admittedPairs fs options ⟨root, rootLoc⟩, admittedPairs_pairwise .., ?_, ?_⟩
  · intro ns r
    exact mem_admittedPairs hfs hroot hscan
  · rw [scan_repos hfs hroot hscan]
    refine List.map_congr_left fun pair hpair => ?_
    obtain ⟨hns, hr⟩ := entryNames_of_mem_admittedPairs hfs hpair
    rw [repoAt, Path.child_child_eq root hns hr]

/-- A root with a namespace, which holds a link back to the root, and with a link to another
namespace. -/
def linkedShelf : FileSystem :=
  .ofFixtures []
    [.directory (.ofString "sync/acme/widgets"),
      .link (.ofString "sync/acme/back") (.ofString ".."),
      .directory (.ofString "store/repo"), .link (.ofString "sync/shared") (.ofString "../store")]

theorem linkedShelf_found :
    ∃ pairs : List (Name × Name),
      pairs.Pairwise (fun a b => a.1 < b.1 ∨ a.1 = b.1 ∧ a.2 < b.2) ∧
      (∀ ns r, (ns, r) ∈ pairs ↔ ∃ nsLoc rLoc,
        Enters linkedShelf .default ⟨.ofString "sync", [Text.toBytes "sync"]⟩ [] ns nsLoc ∧
          Enters linkedShelf .default ⟨(Path.ofString "sync").child ns, nsLoc⟩
            [⟨.ofString "sync", [Text.toBytes "sync"]⟩] r rLoc) ∧
      [⟨⟨"acme", "widgets"⟩, .ofString "sync/acme/widgets"⟩,
          ⟨⟨"shared", "repo"⟩, .ofString "sync/shared/repo"⟩] =
        pairs.map fun pair =>
          (⟨⟨Text.ofBytesLossy pair.1, Text.ofBytesLossy pair.2⟩,
            ⟨(Path.ofString "sync").stem ++ pair.1 ++ slash :: pair.2⟩⟩ : FoundRepo) :=
  scan_finds_entered_pairs (FileSystem.properNames_ofFixtures (by decide) _)
    (show linkedShelf.list (.ofString "sync") =
      .ok ([Text.toBytes "sync"], ["acme", "shared"].map Text.toBytes) by decide +kernel)
    (by decide +kernel)

end SyncAudit.Scan
