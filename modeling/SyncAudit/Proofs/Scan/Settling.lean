import SyncAudit.Proofs.Run
import SyncAudit.Proofs.Scan.Admission
import SyncAudit.Proofs.Text.Utf8

/-!
# Successful scans

A scan that succeeds has settled every entry of every directory that it lists, none of them by
breaking off. The directories that it lists are the root and the entries of the root that are
entered. Conversely, a scan succeeds if the root can be listed and all these directories are
settled.
-/
namespace SyncAudit.Scan

variable {fs : FileSystem} {options : AuditOptions} {dir : Ancestor} {above : List Ancestor}
  {names : List Name}

theorem nameText_result (n : Name) (path : Path) :
    (nameText n path).result = .ok (Text.ofBytesLossy n) := by
  unfold nameText
  cases h : Text.ofBytes? n with
  | some s => rw [Text.ofBytesLossy_of_ofBytes h]; rfl
  | none => rfl

/-- A repository is identified by the lossy texts of its two names. -/
theorem identify_result (p : Path) {n r : Name} (hn : EntryName n) (hr : EntryName r) :
    (identify ((p.child n).child r) r).result =
      .ok [⟨⟨Text.ofBytesLossy n, Text.ofBytesLossy r⟩, (p.child n).child r⟩] := by
  rw [identify, namespaceOf_child_child p hn hr, Run.bind_result_eq_ok]
  refine ⟨_, nameText_result _ _, ?_⟩
  rw [Run.bind_result_eq_ok]
  exact ⟨_, nameText_result _ _, rfl⟩

theorem settle_result {outcome : Outcome} {go : Path → Run (List FoundRepo)}
    {found : List FoundRepo} (h : (settle outcome go).result = .ok found) :
    (∀ e, outcome ≠ .broken e) ∧
      (∀ p, outcome = .admitted p → (go p).result = .ok found) ∧
      (outcome.isAdmitted = false → found = []) := by
  cases outcome with
  | admitted p => simpa [settle, Outcome.isAdmitted] using h
  | broken e => simp [settle] at h
  | _ =>
    simp only [settle, Run.log_bind_result, Run.result_pure, Except.ok.injEq] at h
    simp [h]

theorem settle_congr {outcome : Outcome} {go go' : Path → Run (List FoundRepo)}
    (h : ∀ p, outcome = .admitted p → go p = go' p) : settle outcome go = settle outcome go' := by
  cases outcome with
  | admitted p => exact h p rfl
  | _ => rfl

theorem settle_error {outcome : Outcome} {go : Path → Run (List FoundRepo)} {e : AuditError}
    (h : (settle outcome go).result = .error e) :
    e.kind = .walk ∨ ∃ p, outcome = .admitted p ∧ (go p).result = .error e := by
  cases outcome with
  | admitted p => exact .inr ⟨p, rfl, h⟩
  | broken err =>
    obtain rfl := Except.error.inj h
    exact .inl rfl
  | _ => simp [settle] at h

theorem visit_admitted_path {p : Path}
    (h : visit fs options (dir :: above) dir.path dir.loc n = .admitted p) :
    p = dir.path.child n := by
  rcases visit_cases fs options dir above n with
    ⟨_, _, hvisit⟩ | ⟨_, _, _, hvisit⟩ | ⟨_, _, hvisit⟩
  · rw [h] at hvisit
    rcases sift_cases options (dir.path.child n) n with ⟨_, hs⟩ | ⟨_, hs⟩
    · rw [hs] at hvisit
      exact Outcome.admitted.inj hvisit
    · simp [hs] at hvisit
  · rw [h] at hvisit
    cases hvisit
    rfl
  · simp [h] at hvisit

theorem visit_of_isAdmitted
    (h : (visit fs options (dir :: above) dir.path dir.loc n).isAdmitted = true) :
    visit fs options (dir :: above) dir.path dir.loc n = .admitted (dir.path.child n) := by
  cases hout : visit fs options (dir :: above) dir.path dir.loc n with
  | admitted p => rw [visit_admitted_path hout]
  | _ => simp [hout, Outcome.isAdmitted] at h

/-- The names in a listing whose entries are admitted. -/
def admittedNames (fs : FileSystem) (options : AuditOptions) (dir : Ancestor)
    (above : List Ancestor) (names : List Name) : List Name :=
  names.filter fun n => (visit fs options (dir :: above) dir.path dir.loc n).isAdmitted

theorem flatMap_eq_flatMap_filter {α β : Type} {f g : α → List β} {keep : α → Bool}
    {as : List α} (hkeep : ∀ a ∈ as, keep a = true → f a = g a)
    (hdrop : ∀ a ∈ as, keep a = false → f a = []) :
    as.flatMap f = (as.filter keep).flatMap g := by
  induction as with
  | nil => rfl
  | cons a rest ih =>
    rw [List.flatMap_cons, ih (fun b hb => hkeep b (List.mem_cons_of_mem _ hb))
      (fun b hb => hdrop b (List.mem_cons_of_mem _ hb))]
    cases ha : keep a with
    | true => rw [List.filter_cons_of_pos ha, List.flatMap_cons, hkeep a List.mem_cons_self ha]
    | false =>
      rw [List.filter_cons_of_neg (by simp [ha]), hdrop a List.mem_cons_self ha, List.nil_append]

/-- What it takes that the entries of a listing are settled with success. -/
theorem settled_result (dir : Ancestor) {go : Name → Path → Run (List FoundRepo)}
    {found : List FoundRepo}
    (h : (collect (fun n =>
      settle (visit fs options (dir :: above) dir.path dir.loc n) (go n)) names).result =
        .ok found) :
    (∀ n ∈ names, ∀ e, visit fs options (dir :: above) dir.path dir.loc n ≠ .broken e) ∧
      (∀ n ∈ admittedNames fs options dir above names,
        ∃ part, (go n (dir.path.child n)).result = .ok part) ∧
      found = (admittedNames fs options dir above names).flatMap
        fun n => (go n (dir.path.child n)).items := by
  obtain ⟨hall, rfl⟩ := collect_result.mp h
  refine ⟨?_, ?_, ?_⟩
  · intro n hn
    obtain ⟨part, hpart⟩ := hall n hn
    exact (settle_result hpart).1
  · intro n hn
    obtain ⟨hmem, hadm⟩ := List.mem_filter.mp hn
    obtain ⟨part, hpart⟩ := hall n hmem
    exact ⟨part, (settle_result hpart).2.1 _ (visit_of_isAdmitted hadm)⟩
  · refine flatMap_eq_flatMap_filter (fun n hn hadm => ?_) (fun n hn hadm => ?_)
    · obtain ⟨part, hpart⟩ := hall n hn
      rw [Run.items_of_ok hpart,
        Run.items_of_ok ((settle_result hpart).2.1 _ (visit_of_isAdmitted hadm))]
    · obtain ⟨part, hpart⟩ := hall n hn
      rw [Run.items_of_ok hpart, (settle_result hpart).2.2 hadm]

/-- An admitted directory that cannot be listed is no link. -/
theorem isLink_of_admitted (dir : Ancestor) {access : Access} {n : Name} {e : IoError}
    (hdir : fs.locate .follow dir.path = .ok (dir.loc, .directory access)) (hn : EntryName n)
    (hadm : (visit fs options (dir :: above) dir.path dir.loc n).isAdmitted = true)
    (hlist : fs.list (dir.path.child n) = .error e) : fs.isLink (dir.path.child n) = false := by
  rcases visit_cases fs options dir above n with
    ⟨_, hnode, _⟩ | ⟨_, _, _, hvisit⟩ | ⟨_, _, hvisit⟩
  · exact FileSystem.isLink_child hdir hn hnode rfl
  · generalize visit fs options (dir :: above) dir.path dir.loc n = out at *
    cases hvisit with
    | entered hl hread _ _ => simp [FileSystem.list_of_directory hl, hread] at hlist
    | _ => simp [Outcome.isAdmitted] at hadm
  · simp [hvisit, Outcome.isAdmitted] at hadm

/-- The path of an entry that is entered leads to the location that is entered, if anywhere. -/
theorem Enters.loc_eq_of_locate {access : Access} {n : Name} {loc loc' : Location} {node : Node}
    (h : Enters fs options dir above n loc)
    (hdir : fs.locate .follow dir.path = .ok (dir.loc, .directory access)) (hn : EntryName n)
    (hl : fs.locate .follow (dir.path.child n) = .ok (loc', node)) : loc' = loc := by
  cases h with
  | directory hnode _ =>
    rcases FileSystem.locate_child hdir hn hnode with ⟨e, he⟩ | ⟨_, hfollow⟩
    · simp [he .follow] at hl
    · exact (FileSystem.locate_unique hl (hfollow rfl)).1
  | link _ _ hl' _ _ => exact (FileSystem.locate_unique hl hl').1

theorem Enters.loc_eq {access : Access} {n : Name} {loc loc' : Location} {names : List Name}
    (h : Enters fs options dir above n loc)
    (hdir : fs.locate .follow dir.path = .ok (dir.loc, .directory access)) (hn : EntryName n)
    (hlist : fs.list (dir.path.child n) = .ok (loc', names)) : loc' = loc := by
  obtain ⟨_, hl, _⟩ := FileSystem.list_eq_ok_iff.mp hlist
  exact h.loc_eq_of_locate hdir hn hl

theorem mem_admittedNames {n : Name}
    (hunbroken : ∀ n ∈ names, ∀ e, visit fs options (dir :: above) dir.path dir.loc n ≠ .broken e) :
    n ∈ admittedNames fs options dir above names ↔
      n ∈ names ∧ ∃ loc, Enters fs options dir above n loc := by
  rw [admittedNames, List.mem_filter]
  constructor
  · rintro ⟨hn, hadm⟩
    exact ⟨hn, (visit_isAdmitted_iff (hunbroken n hn)).mp hadm⟩
  · rintro ⟨hn, henters⟩
    exact ⟨hn, (visit_isAdmitted_iff (hunbroken n hn)).mpr henters⟩

theorem Enters.node {n : Name} {loc : Location} (h : Enters fs options dir above n loc) :
    ∃ node, fs.node? (n :: dir.loc) = some node := by
  cases h with
  | directory hnode _ => exact ⟨_, hnode⟩
  | link _ hnode _ _ _ => exact ⟨_, hnode⟩

/-- The names of the admitted entries of a directory, given by its path. -/
def admittedIn (fs : FileSystem) (options : AuditOptions) (above : List Ancestor) (path : Path) :
    List Name :=
  match fs.list path with
  | .ok (loc, names) => admittedNames fs options ⟨path, loc⟩ above names
  | .error _ => []

theorem admittedIn_of_list {path : Path} {loc : Location} (h : fs.list path = .ok (loc, names)) :
    admittedIn fs options above path = admittedNames fs options ⟨path, loc⟩ above names := by
  rw [admittedIn, h]

theorem admittedIn_pairwise (fs : FileSystem) (options : AuditOptions) (above : List Ancestor)
    (path : Path) : (admittedIn fs options above path).Pairwise (· < ·) := by
  unfold admittedIn
  split
  case h_1 h => exact (FileSystem.pairwise_of_list h).filter _
  case h_2 => exact List.Pairwise.nil

theorem entryName_of_admittedIn {path : Path} {n : Name}
    (hfs : fs.ProperNames) (hn : n ∈ admittedIn fs options above path) : EntryName n := by
  unfold admittedIn at hn
  split at hn
  case h_1 h => exact hfs.of_list h (List.mem_of_mem_filter hn)
  case h_2 => simp at hn

/-- A directory is listed and none of its entries breaks the walk off. -/
structure Settled (fs : FileSystem) (options : AuditOptions) (above : List Ancestor)
    (dir : Ancestor) (names : List Name) : Prop where
  listed : fs.list dir.path = .ok (dir.loc, names)
  unbroken : ∀ n ∈ names, ∀ e, visit fs options (dir :: above) dir.path dir.loc n ≠ .broken e

theorem Settled.mem_admittedIn {n : Name} (h : Settled fs options above dir names) :
    n ∈ admittedIn fs options above dir.path ↔ ∃ loc, Enters fs options dir above n loc := by
  rw [admittedIn_of_list h.listed, mem_admittedNames h.unbroken]
  constructor
  · exact And.right
  · rintro ⟨loc, henters⟩
    exact ⟨(FileSystem.mem_of_list h.listed).mpr henters.node, loc, henters⟩

/-- A namespace that is scanned with success is listed, and its repositories are its admitted
entries. -/
theorem scanNamespace_result {root : Ancestor} {p : Path} {ns : Name} {found : List FoundRepo}
    (hfs : fs.ProperNames) (hns : EntryName ns)
    (hlink : ∀ e, fs.list (p.child ns) = .error e → fs.isLink (p.child ns) = false)
    (h : (scanNamespace fs options root (p.child ns)).result = .ok found) :
    (∃ loc names, Settled fs options [root] ⟨p.child ns, loc⟩ names) ∧
      found = (admittedIn fs options [root] (p.child ns)).map fun r =>
        ⟨⟨Text.ofBytesLossy ns, Text.ofBytesLossy r⟩, (p.child ns).child r⟩ := by
  rw [scanNamespace, Run.log_bind_result] at h
  cases hlist : fs.list (p.child ns) with
  | error e => simp [hlist, raise, isUnfollowable, hlink e hlist] at h
  | ok listing =>
    obtain ⟨loc, names⟩ := listing
    rw [hlist] at h
    obtain ⟨hunbroken, _, rfl⟩ := settled_result ⟨p.child ns, loc⟩ h
    refine ⟨⟨loc, names, hlist, hunbroken⟩, ?_⟩
    rw [admittedIn_of_list hlist, List.map_eq_flatMap]
    refine List.flatMap_congr fun r hr => ?_
    have hname := hfs.of_list hlist (List.mem_of_mem_filter hr)
    exact Run.items_of_ok (identify_result p hns hname)

/-- A root that is scanned with success has admitted namespaces, each of them scanned with
success. -/
theorem scanDirectory_result {root : Path} {rootLoc : Location} {found : List FoundRepo}
    (hfs : fs.ProperNames) (hroot : fs.list root = .ok (rootLoc, names))
    (h : (scanDirectory fs options root).result = .ok found) :
    Settled fs options [] ⟨root, rootLoc⟩ names ∧
      (∀ ns ∈ admittedIn fs options [] root, ∃ loc names,
        Settled fs options [⟨root, rootLoc⟩] ⟨root.child ns, loc⟩ names) ∧
      found = (admittedIn fs options [] root).flatMap fun ns =>
        (admittedIn fs options [⟨root, rootLoc⟩] (root.child ns)).map fun r =>
          ⟨⟨Text.ofBytesLossy ns, Text.ofBytesLossy r⟩, (root.child ns).child r⟩ := by
  obtain ⟨access, hlocate, _⟩ := FileSystem.list_eq_ok_iff.mp hroot
  rw [scanDirectory, hroot] at h
  obtain ⟨hunbroken, hparts, rfl⟩ := settled_result ⟨root, rootLoc⟩ h
  have hnamespace : ∀ ns ∈ admittedNames fs options ⟨root, rootLoc⟩ [] names, ∀ part,
      (scanNamespace fs options ⟨root, rootLoc⟩ (root.child ns)).result = .ok part →
        (∃ loc names, Settled fs options [⟨root, rootLoc⟩] ⟨root.child ns, loc⟩ names) ∧
          part = (admittedIn fs options [⟨root, rootLoc⟩] (root.child ns)).map fun r =>
            ⟨⟨Text.ofBytesLossy ns, Text.ofBytesLossy r⟩, (root.child ns).child r⟩ := by
    intro ns hns part hpart
    obtain ⟨hmem, hadm⟩ := List.mem_filter.mp hns
    have hname := hfs.of_list hroot hmem
    exact scanNamespace_result hfs hname
      (fun e he => isLink_of_admitted ⟨root, rootLoc⟩ hlocate hname hadm he) hpart
  refine ⟨⟨hroot, hunbroken⟩, ?_, ?_⟩
  · intro ns hns
    rw [admittedIn_of_list hroot] at hns
    obtain ⟨part, hpart⟩ := hparts ns hns
    exact (hnamespace ns hns part hpart).1
  · rw [admittedIn_of_list hroot]
    refine List.flatMap_congr fun ns hns => ?_
    obtain ⟨part, hpart⟩ := hparts ns hns
    rw [Run.items_of_ok hpart]
    exact (hnamespace ns hns part hpart).2

/-- A root that leads to a directory is walked, if it is no link that must be opened first. -/
theorem scanRoot_of_directory {root : Path} {access : Access}
    (h : fs.stat root = .ok (.directory access)) :
    scanRoot fs options root =
      if fs.isLink root = true ∧ options.followLinks = true then
        match fs.openForReading root with
        | .error e => raise fs (.unopened e)
        | .ok _ => scanDirectory fs options root
      else scanDirectory fs options root := by
  rcases fs.locate_keep root with hkeep | ⟨loc, target, hkeep⟩
  · have hself : fs.linkStat root = .ok (.directory access) := by
      rw [FileSystem.linkStat, hkeep]
      exact h
    simp [scanRoot, FileSystem.isLink, hself, Node.isLink]
  · have hself : fs.linkStat root = .ok (.link target) := by
      rw [FileSystem.linkStat, hkeep]
      rfl
    cases hopen : fs.openForReading root <;>
      simp [scanRoot, FileSystem.isLink, hself, h, hopen, Node.isLink]

/-- A root that can be listed is walked, be it a link or not. -/
theorem scanRoot_of_list {root : Path} {rootLoc : Location}
    (h : fs.list root = .ok (rootLoc, names)) :
    scanRoot fs options root = scanDirectory fs options root := by
  obtain ⟨access, hl, hread, _⟩ := FileSystem.list_eq_ok_iff.mp h
  have hopen : fs.openForReading root = .ok (rootLoc, .directory access) := by
    rw [FileSystem.openForReading_of_directory hl, if_pos hread]
  rw [scanRoot_of_directory (FileSystem.stat_eq_ok_iff.mpr ⟨rootLoc, hl⟩), hopen]
  exact ite_self _

theorem raise_result {e : WalkError} {found : List FoundRepo}
    (h : (raise fs e).result = .ok found) : found = [] := by
  unfold raise at h
  split at h
  · exact (Except.ok.inj h).symm
  · simp at h

/-- A root that cannot be listed holds nothing, or the walk meets an error at it. -/
theorem scanRoot_of_list_error (options : AuditOptions) {root : Path} {e : IoError}
    (h : fs.list root = .error e) :
    scanRoot fs options root = pure [] ∨
      (∃ err, scanRoot fs options root = raise fs (.io root err)) ∨
      ∃ err, scanRoot fs options root = raise fs (.unopened err) := by
  have hdirectory : scanDirectory fs options root = raise fs (.io root e) := by
    rw [scanDirectory, h]
  rw [scanRoot]
  cases fs.linkStat root with
  | error err => exact .inr (.inl ⟨err, rfl⟩)
  | ok node =>
    cases node with
    | file _ _ => exact .inl rfl
    | directory _ => exact .inr (.inl ⟨e, hdirectory⟩)
    | link _ =>
      cases fs.stat root with
      | error err => exact .inr (.inl ⟨err, rfl⟩)
      | ok node =>
        cases node with
        | file _ _ => exact .inl rfl
        | link _ => exact .inl rfl
        | directory _ =>
          simp only [hdirectory]
          split
          case isFalse => exact .inr (.inl ⟨e, rfl⟩)
          case isTrue =>
            cases fs.openForReading root with
            | error err => exact .inr (.inr ⟨err, rfl⟩)
            | ok _ => exact .inr (.inl ⟨e, rfl⟩)

theorem scan_result (fs : FileSystem) (options : AuditOptions) (root : Path) :
    (scan fs options root).result = (scanRoot fs options root).result := by
  rw [scan, Run.log_bind_result]
  cases h : (scanRoot fs options root).result with
  | ok found => simp [Run.bind_of_ok h]
  | error err => simp [Run.bind_of_error h]

/-- The directories that the walk lists, each with those above it: the root and the entries of the
root that are entered. -/
inductive Walks (fs : FileSystem) (options : AuditOptions) (root : Path) :
    Ancestor → List Ancestor → Prop
  | root {loc : Location} {names : List Name} : fs.list root = .ok (loc, names) →
      Walks fs options root ⟨root, loc⟩ []
  | entry {dir : Ancestor} {n : Name} {loc : Location} : Walks fs options root dir [] →
      Enters fs options dir [] n loc → Walks fs options root ⟨dir.path.child n, loc⟩ [dir]

/-- Every directory that the walk lists is settled by a scan that succeeds. -/
theorem Walks.settled {root : Path} {repos : List FoundRepo} (hfs : fs.ProperNames)
    (hscan : (scan fs options root).result = .ok repos) (h : Walks fs options root dir above) :
    ∃ names, Settled fs options above dir names := by
  cases h with
  | root hroot =>
    rw [scan_result, scanRoot_of_list hroot] at hscan
    exact ⟨_, (scanDirectory_result hfs hroot hscan).1⟩
  | entry hdir henters =>
    cases hdir with
    | root hroot =>
      obtain ⟨access, hlocate, _⟩ := FileSystem.list_eq_ok_iff.mp hroot
      rw [scan_result, scanRoot_of_list hroot] at hscan
      obtain ⟨hsettled, hnamespaces, _⟩ := scanDirectory_result hfs hroot hscan
      have hname := hfs.of_list hroot ((FileSystem.mem_of_list hroot).mpr henters.node)
      obtain ⟨loc, names, hin⟩ := hnamespaces _ (hsettled.mem_admittedIn.mpr ⟨_, henters⟩)
      obtain rfl := henters.loc_eq hlocate hname hin.listed
      exact ⟨names, hin⟩

theorem enters_of_admitted {n : Name} {p : Path}
    (h : visit fs options (dir :: above) dir.path dir.loc n = .admitted p) :
    p = dir.path.child n ∧ ∃ loc, Enters fs options dir above n loc := by
  have hunbroken : ∀ e, visit fs options (dir :: above) dir.path dir.loc n ≠ .broken e := by
    simp [h]
  refine ⟨visit_admitted_path h, (visit_isAdmitted_iff hunbroken).mp ?_⟩
  rw [h]
  rfl

theorem exists_settle_result {outcome : Outcome} {go : Path → Run (List FoundRepo)}
    (hunbroken : ∀ e, outcome ≠ .broken e)
    (hgo : ∀ p, outcome = .admitted p → ∃ found, (go p).result = .ok found) :
    ∃ found, (settle outcome go).result = .ok found := by
  cases outcome with
  | admitted p => exact hgo p rfl
  | broken e => exact absurd rfl (hunbroken e)
  | _ => exact ⟨[], rfl⟩

theorem exists_scanNamespace_result {root : Ancestor} {p : Path} {ns : Name} {loc : Location}
    (hfs : fs.ProperNames) (hns : EntryName ns)
    (h : Settled fs options [root] ⟨p.child ns, loc⟩ names) :
    ∃ found, (scanNamespace fs options root (p.child ns)).result = .ok found := by
  rw [scanNamespace, Run.log_bind_result, h.listed]
  refine ⟨_, collect_result.mpr ⟨fun r hr => ?_, rfl⟩⟩
  refine exists_settle_result (h.unbroken r hr) fun q hq => ?_
  obtain rfl := (enters_of_admitted hq).1
  exact ⟨_, identify_result p hns (hfs.of_list h.listed hr)⟩

/-- A scan of a root that can be listed succeeds exactly if every directory that it walks is
settled. -/
theorem exists_scan_result_iff {root : Path} {rootLoc : Location} (hfs : fs.ProperNames)
    (hroot : fs.list root = .ok (rootLoc, names)) :
    (∃ repos, (scan fs options root).result = .ok repos) ↔
      ∀ dir above, Walks fs options root dir above →
        ∃ names, Settled fs options above dir names := by
  constructor
  · rintro ⟨repos, hscan⟩ dir above hdir
    exact hdir.settled hfs hscan
  · intro hsettled
    have hwalks : Walks fs options root ⟨root, rootLoc⟩ [] := .root hroot
    obtain ⟨names', hroot'⟩ := hsettled _ _ hwalks
    obtain ⟨-, rfl⟩ := FileSystem.list_unique hroot hroot'.listed
    rw [scan_result, scanRoot_of_list hroot, scanDirectory, hroot]
    refine ⟨_, collect_result.mpr ⟨fun ns hns => ?_, rfl⟩⟩
    refine exists_settle_result (hroot'.unbroken ns hns) fun p hp => ?_
    obtain ⟨rfl, loc, henters⟩ := enters_of_admitted hp
    obtain ⟨_, hnamespace⟩ := hsettled _ _ (hwalks.entry henters)
    exact exists_scanNamespace_result hfs (hfs.of_list hroot hns) hnamespace

end SyncAudit.Scan
