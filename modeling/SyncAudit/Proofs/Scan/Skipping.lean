import SyncAudit.Proofs.FileSystem.Described
import SyncAudit.Proofs.Scan.Settling

/-!
# Links that are passed over

A scan that succeeds has passed over exactly the links that it met whose targets it could not
examine, whatever the reason, and those that lead back to a directory on the walk's path. A link
to a directory that cannot be opened is not passed over but ends the scan.
-/
namespace SyncAudit.Scan

variable {fs : FileSystem} {options : AuditOptions} {root : Path} {repos : List FoundRepo}
  {dir : Ancestor} {above : List Ancestor} {names : List Name} {n : Name} {e : WalkError}

/-- Why a link at a path below the given directories cannot be followed. -/
inductive Unfollowable (fs : FileSystem) (stack : List Ancestor) (path : Path) : WalkError → Prop
  | lost {err : IoError} : fs.stat path = .error err → Unfollowable fs stack path (.io path err)
  | looping {a : Ancestor} {access : Access} : a ∈ stack →
      fs.locate .follow path = .ok (a.loc, .directory access) →
      Unfollowable fs stack path (.loop path a.path)

/-- A link is passed over for the one reason that there is, unless the walk breaks off at it. -/
theorem visit_unfollowable_iff (hfollow : options.followLinks = true)
    (hlocs : ((dir :: above).map Ancestor.loc).Nodup)
    (hunbroken : ∀ e, visit fs options (dir :: above) dir.path dir.loc n ≠ .broken e) :
    visit fs options (dir :: above) dir.path dir.loc n = .unfollowable e ↔
      (∃ target, fs.node? (n :: dir.loc) = some (.link target)) ∧
        Unfollowable fs (dir :: above) (dir.path.child n) e := by
  rcases visit_cases fs options dir above n with
    ⟨_, hnode, hvisit⟩ | ⟨target, hnode, _, hvisit⟩ | ⟨_, hnolink, hvisit⟩
  · rcases sift_cases options (dir.path.child n) n with ⟨_, hs⟩ | ⟨_, hs⟩ <;>
      simp [hvisit, hs, hnode]
  · generalize visit fs options (dir :: above) dir.path dir.loc n = out at *
    simp only [hnode, Option.some.injEq, Node.link.injEq, exists_eq', true_and]
    constructor
    · rintro rfl
      cases hvisit with
      | lost hstat _ => exact .lost hstat
      | loop hl _ ha => exact .looping ha hl
    · rintro (hstat | ⟨ha, hl⟩)
      · exact hvisit.of_error hunbroken hstat
      · rcases (hvisit.of_directory hunbroken hl).2 with ⟨a', ha', hloc, rfl⟩ | ⟨hoff, _⟩
        · rw [List.inj_on_of_nodup_map hlocs ha' ha hloc]
        · exact absurd rfl (hoff _ ha)
  · simp [hvisit, hnolink hfollow]

/-- No directory stands twice on the walk's path. -/
theorem Walks.nodup_locs (h : Walks fs options root dir above) :
    ((dir :: above).map Ancestor.loc).Nodup := by
  cases h with
  | root _ => simp
  | entry hdir henters =>
    cases hdir
    cases henters with
    | directory _ _ => simp
    | link _ _ _ hoff _ => simpa [eq_comm] using hoff

theorem skippingLink_mem_settle {outcome : Outcome} {go : Path → Run (List FoundRepo)} :
    .skippingLink e ∈ (settle outcome go).events ↔
      outcome = .unfollowable e ∨
        ∃ path, outcome = .admitted path ∧ .skippingLink e ∈ (go path).events := by
  cases outcome <;> simp [settle, eq_comm]

theorem skippingLink_mem_raise {err : WalkError} :
    .skippingLink e ∈ (raise fs err).events ↔ e = err ∧ isUnfollowable fs err = true := by
  unfold raise
  cases isUnfollowable fs err <;> simp

theorem skippingLink_not_mem_identify (path : Path) (n : Name) :
    .skippingLink e ∉ (identify path n).events := by
  have hname : ∀ n path, .skippingLink e ∉ (nameText n path).events := by
    intro n path
    unfold nameText
    cases Text.ofBytes? n <;> simp
  unfold identify
  cases namespaceOf? path with
  | none => simp
  | some found =>
    simp only
    rw [Run.bind_of_ok (nameText_result _ _), Run.bind_of_ok (nameText_result _ _)]
    simp [hname]

/-- The links passed over among the entries of a listing, and below those that are admitted. -/
theorem skippingLink_mem_collect (dir : Ancestor) {go : Name → Path → Run (List FoundRepo)}
    {found : List FoundRepo}
    (h : (collect (fun n =>
      settle (visit fs options (dir :: above) dir.path dir.loc n) (go n)) names).result =
        .ok found) :
    .skippingLink e ∈ (collect (fun n =>
        settle (visit fs options (dir :: above) dir.path dir.loc n) (go n)) names).events ↔
      (∃ n ∈ names, visit fs options (dir :: above) dir.path dir.loc n = .unfollowable e) ∨
        ∃ n ∈ admittedNames fs options dir above names,
          .skippingLink e ∈ (go n (dir.path.child n)).events := by
  rw [collect_events (collect_result.mp h).1, List.mem_flatMap]
  simp only [skippingLink_mem_settle, admittedNames, List.mem_filter]
  constructor
  · rintro ⟨n, hn, hvisit | ⟨path, hvisit, hmem⟩⟩
    · exact .inl ⟨n, hn, hvisit⟩
    · obtain rfl := visit_admitted_path hvisit
      exact .inr ⟨n, ⟨hn, by rw [hvisit]; rfl⟩, hmem⟩
  · rintro (⟨n, hn, hvisit⟩ | ⟨n, ⟨hn, hadm⟩, hmem⟩)
    · exact ⟨n, hn, .inl hvisit⟩
    · exact ⟨n, hn, .inr ⟨_, visit_of_isAdmitted hadm, hmem⟩⟩

theorem exists_link_of_unfollowable
    (h : visit fs options (dir :: above) dir.path dir.loc n = .unfollowable e) :
    ∃ target, fs.node? (n :: dir.loc) = some (.link target) := by
  rcases visit_cases fs options dir above n with
    ⟨_, _, hvisit⟩ | ⟨target, hnode, _⟩ | ⟨_, _, hvisit⟩
  · rcases sift_cases options (dir.path.child n) n with ⟨_, hs⟩ | ⟨_, hs⟩ <;> simp [h, hs] at hvisit
  · exact ⟨target, hnode⟩
  · simp [h] at hvisit

theorem skippingLink_mem_scanNamespace {top : Ancestor} {found : List FoundRepo}
    (hlist : fs.list dir.path = .ok (dir.loc, names))
    (h : (scanNamespace fs options top dir.path).result = .ok found) :
    .skippingLink e ∈ (scanNamespace fs options top dir.path).events ↔
      ∃ n ∈ names, visit fs options [dir, top] dir.path dir.loc n = .unfollowable e := by
  rw [scanNamespace, hlist] at h ⊢
  rw [Run.log_bind_result] at h
  rw [Run.log_bind_events, List.mem_cons]
  simp only [reduceCtorEq, false_or]
  rw [skippingLink_mem_collect dir h]
  simp [skippingLink_not_mem_identify]

theorem skippingLink_mem_scanRoot :
    .skippingLink e ∈ (scan fs options root).events ↔
      .skippingLink e ∈ (scanRoot fs options root).events := by
  rw [scan, Run.log_bind_events]
  cases h : (scanRoot fs options root).result with
  | ok found => simp [Run.bind_of_ok h]
  | error err => simp [Run.bind_of_error h]

/-- Where the root cannot be listed, nothing but the root can be passed over. -/
theorem skippingLink_of_list_error {err : IoError} (hroot : fs.list root = .error err)
    (h : .skippingLink e ∈ (scan fs options root).events) : ∃ err, e = .io root err := by
  rw [skippingLink_mem_scanRoot] at h
  rcases scanRoot_of_list_error options hroot with hnothing | ⟨err, hraise⟩ | ⟨err, hraise⟩
  · simp [hnothing] at h
  · rw [hraise] at h
    exact ⟨err, (skippingLink_mem_raise.mp h).1⟩
  · rw [hraise] at h
    simp [skippingLink_mem_raise, isUnfollowable] at h

/-- A link is passed over somewhere in a scan that succeeds exactly if it is passed over in a
directory that the walk lists. -/
theorem skippingLink_mem_scan {rootLoc : Location} (hfs : fs.ProperNames)
    (hroot : fs.list root = .ok (rootLoc, names))
    (hscan : (scan fs options root).result = .ok repos) :
    .skippingLink e ∈ (scan fs options root).events ↔
      ∃ dir above n, Walks fs options root dir above ∧
        visit fs options (dir :: above) dir.path dir.loc n = .unfollowable e := by
  have hdirectory : (scanDirectory fs options root).result = .ok repos := by
    rw [← scanRoot_of_list hroot, ← scan_result]
    exact hscan
  have hwalks : Walks fs options root ⟨root, rootLoc⟩ [] := .root hroot
  obtain ⟨_, hsettled⟩ := hwalks.settled hfs hscan
  rw [scanDirectory, hroot] at hdirectory
  obtain ⟨_, hparts, _⟩ := settled_result ⟨root, rootLoc⟩ hdirectory
  rw [skippingLink_mem_scanRoot, scanRoot_of_list hroot, scanDirectory, hroot,
    skippingLink_mem_collect ⟨root, rootLoc⟩ hdirectory,
    ← admittedIn_of_list hroot]
  rw [← admittedIn_of_list hroot] at hparts
  constructor
  · rintro (⟨n, _, hvisit⟩ | ⟨ns, hns, hskip⟩)
    · exact ⟨_, _, n, hwalks, hvisit⟩
    · obtain ⟨part, hpart⟩ := hparts ns hns
      obtain ⟨loc, henters⟩ := hsettled.mem_admittedIn.mp hns
      have hentry := hwalks.entry henters
      obtain ⟨_, hin⟩ := hentry.settled hfs hscan
      obtain ⟨n, _, hvisit⟩ := (skippingLink_mem_scanNamespace hin.listed hpart).mp hskip
      exact ⟨_, _, n, hentry, hvisit⟩
  · rintro ⟨dir, above, n, hdir, hvisit⟩
    obtain ⟨names, hin⟩ := hdir.settled hfs hscan
    obtain ⟨target, hnode⟩ := exists_link_of_unfollowable hvisit
    have hn : n ∈ names := (FileSystem.mem_of_list hin.listed).mpr ⟨_, hnode⟩
    cases hdir with
    | root hroot' =>
      obtain ⟨rfl, rfl⟩ := FileSystem.list_unique hroot hroot'
      obtain ⟨-, rfl⟩ := FileSystem.list_unique hroot hin.listed
      exact .inl ⟨n, hn, hvisit⟩
    | entry hdir henters =>
      cases hdir with
      | root hroot' =>
        obtain ⟨rfl, rfl⟩ := FileSystem.list_unique hroot hroot'
        have hns := hsettled.mem_admittedIn.mpr ⟨_, henters⟩
        obtain ⟨part, hpart⟩ := hparts _ hns
        exact .inr ⟨_, hns,
          (skippingLink_mem_scanNamespace hin.listed hpart).mpr ⟨n, hn, hvisit⟩⟩

/-- The walk meets a link at a path, below the given directories: it is an entry of a directory
that the walk lists. -/
inductive Meets (fs : FileSystem) (options : AuditOptions) (root : Path) :
    List Ancestor → Path → Prop
  | link {dir : Ancestor} {above : List Ancestor} {n : Name} {target : Path} :
      Walks fs options root dir above → fs.node? (n :: dir.loc) = some (.link target) →
      Meets fs options root (dir :: above) (dir.path.child n)

theorem Walks.exists_list (h : Walks fs options root dir above) :
    ∃ loc names, fs.list root = .ok (loc, names) := by
  induction h with
  | root hroot => exact ⟨_, _, hroot⟩
  | entry _ _ ih => exact ih

/-- A link that is met stands at a path of its own, below the root. -/
theorem Meets.ne_root {stack : List Ancestor} {path : Path} (hfs : fs.ProperNames)
    (hscan : (scan fs options root).result = .ok repos)
    (h : Meets fs options root stack path) : path ≠ root := by
  obtain ⟨hdir, hnode⟩ := h
  have hchild {dir : Ancestor} {above : List Ancestor} {n : Name} {node : Node}
      (hdir : Walks fs options root dir above) (hnode : fs.node? (n :: dir.loc) = some node) :
      dir.path.bytes.length < (dir.path.child n).bytes.length := by
    obtain ⟨_, hin⟩ := hdir.settled hfs hscan
    exact Path.length_lt_child _
      (hfs.of_list hin.listed ((FileSystem.mem_of_list hin.listed).mpr ⟨_, hnode⟩))
  have hlt := hchild hdir hnode
  intro heq
  rw [heq] at hlt
  cases hdir with
  | root _ => exact Nat.lt_irrefl _ hlt
  | entry hdir henters =>
    obtain ⟨_, hnode'⟩ := henters.node
    have hlt' := hchild hdir hnode'
    cases hdir
    exact Nat.lt_asymm hlt hlt'

/-- A scan that succeeds has followed, sifted or passed over every link that it met. -/
theorem Meets.followed {stack : List Ancestor} {path : Path} (hfs : fs.ProperNames)
    (hfollow : options.followLinks = true)
    (hscan : (scan fs options root).result = .ok repos)
    (h : Meets fs options root stack path) :
    ∃ n out, Followed fs options stack path n out ∧ ∀ err, out ≠ .broken err := by
  cases h with
  | @link dir above n target hdir hnode =>
    obtain ⟨_, hin⟩ := hdir.settled hfs hscan
    have hn := (FileSystem.mem_of_list hin.listed).mpr ⟨_, hnode⟩
    refine ⟨n, visit fs options (dir :: above) dir.path dir.loc n, ?_, hin.unbroken n hn⟩
    rcases visit_cases fs options dir above n with
      ⟨_, hdir', _⟩ | ⟨_, _, _, hvisit⟩ | ⟨_, hnolink, _⟩
    · simp [hnode] at hdir'
    · exact hvisit
    · exact absurd hnode (hnolink hfollow _)

/-- With links followed, a scan that succeeds passes over the links that it met and cannot follow,
and over its root if it cannot list that. -/
theorem skippingLink_iff_meets (hfs : fs.ProperNames) (hfollow : options.followLinks = true)
    (hscan : (scan fs options root).result = .ok repos) (hbelow : ∀ err, e ≠ .io root err) :
    .skippingLink e ∈ (scan fs options root).events ↔
      ∃ stack path, Meets fs options root stack path ∧ Unfollowable fs stack path e := by
  cases hroot : fs.list root with
  | error err =>
    constructor
    · intro h
      obtain ⟨err, rfl⟩ := skippingLink_of_list_error hroot h
      exact absurd rfl (hbelow err)
    · rintro ⟨_, _, ⟨hdir, _⟩, _⟩
      obtain ⟨_, _, hlist⟩ := hdir.exists_list
      simp [hroot] at hlist
  | ok listing =>
    rw [skippingLink_mem_scan hfs hroot hscan]
    constructor
    · rintro ⟨dir, above, n, hdir, hvisit⟩
      obtain ⟨_, hin⟩ := hdir.settled hfs hscan
      obtain ⟨target, hnode⟩ := exists_link_of_unfollowable hvisit
      have hn := (FileSystem.mem_of_list hin.listed).mpr ⟨_, hnode⟩
      exact ⟨_, _, .link hdir hnode,
        ((visit_unfollowable_iff hfollow hdir.nodup_locs (hin.unbroken n hn)).mp hvisit).2⟩
    · rintro ⟨_, _, ⟨hdir, hnode⟩, he⟩
      obtain ⟨_, hin⟩ := hdir.settled hfs hscan
      have hn := (FileSystem.mem_of_list hin.listed).mpr ⟨_, hnode⟩
      exact ⟨_, _, _, hdir,
        (visit_unfollowable_iff hfollow hdir.nodup_locs (hin.unbroken _ hn)).mpr ⟨⟨_, hnode⟩, he⟩⟩

/-- The failures to look at a link's target that say that there is none. -/
def saysAbsent : IoError → Bool
  | .os .noEntry | .os .notDirectory | .os .tooManyLinks => true
  | _ => false

/-- What a scan passes over below its root are links without a target and links back to a directory
above them. -/
def SkipsFairly (fs : FileSystem) (options : AuditOptions) (root : Path) : Prop :=
  ∀ e, .skippingLink e ∈ (scan fs options root).events → (∀ err, e ≠ .io root err) →
    ∃ stack path, Meets fs options root stack path ∧
      ((∃ err, e = .io path err ∧ fs.stat path = .error err ∧ saysAbsent err = true) ∨
        ∃ a ∈ stack, ∃ access, e = .loop path a.path ∧
          fs.locate .follow path = .ok (a.loc, .directory access))

/-- A scan that succeeds could open every directory that a link it met leads to. It passed over
links fairly exactly if no link that it met has a target that is kept from it in another way than
by being absent. -/
theorem skipped_dangle_or_loop_iff (hfs : fs.ProperNames) (hfollow : options.followLinks = true)
    (hscan : (scan fs options root).result = .ok repos) :
    (∀ stack path loc access, Meets fs options root stack path →
      fs.locate .follow path = .ok (loc, .directory access) → access.read = true) ∧
    (SkipsFairly fs options root ↔ ∀ stack path err, Meets fs options root stack path →
      fs.stat path = .error err → saysAbsent err = true) := by
  refine ⟨?_, ?_, ?_⟩
  · intro stack path loc access hmeets hl
    obtain ⟨n, out, hout, hunbroken⟩ := hmeets.followed hfs hfollow hscan
    exact (hout.of_directory hunbroken hl).1
  · intro hfair stack path err hmeets hstat
    have hbelow : ∀ err', WalkError.io path err ≠ .io root err' := by
      intro err' heq
      exact hmeets.ne_root hfs hscan (WalkError.io.inj heq).1
    have hskip := (skippingLink_iff_meets hfs hfollow hscan hbelow).mpr
      ⟨stack, path, hmeets, .lost hstat⟩
    obtain ⟨_, path', _, ⟨err', heq, _, habsent⟩ | ⟨_, _, _, heq, _⟩⟩ := hfair _ hskip hbelow
    · rw [(WalkError.io.inj heq).2]
      exact habsent
    · simp at heq
  · intro habsent e hskip hbelow
    obtain ⟨stack, path, hmeets, he⟩ := (skippingLink_iff_meets hfs hfollow hscan hbelow).mp hskip
    refine ⟨stack, path, hmeets, ?_⟩
    cases he with
    | lost hstat => exact .inl ⟨_, rfl, hstat, habsent _ _ _ hmeets hstat⟩
    | looping ha hl => exact .inr ⟨_, ha, _, rfl, hl⟩

/-- A namespace with a link to a repository below a directory that may not be searched. -/
def barredShelf : FileSystem :=
  .ofFixtures []
    [.directory (.ofString "sync/acme"), .directory (.ofString "vault/repo"),
      .link (.ofString "sync/acme/x") (.ofString "../../vault/repo"),
      .permissions (.ofString "vault") 0]

theorem barredShelf_scan :
    scan barredShelf .default (.ofString "sync") =
      ⟨[.scanning (.ofString "sync"), .processing (.ofString "sync/acme"),
        .skippingLink (.io (.ofString "sync/acme/x") (.os .accessDenied)), .foundRepos 0],
        .ok []⟩ :=
  Run.ext (by decide +kernel) (by decide +kernel)

theorem barredShelf_openable_and_fair_iff :
    (∀ stack path loc access, Meets barredShelf .default (.ofString "sync") stack path →
      barredShelf.locate .follow path = .ok (loc, .directory access) → access.read = true) ∧
    (SkipsFairly barredShelf .default (.ofString "sync") ↔ ∀ stack path err,
      Meets barredShelf .default (.ofString "sync") stack path →
        barredShelf.stat path = .error err → saysAbsent err = true) :=
  skipped_dangle_or_loop_iff (FileSystem.properNames_ofFixtures (by decide) _) rfl
    (congrArg Run.result barredShelf_scan)

theorem barredShelf_not_fair :
    (scan barredShelf .default (.ofString "sync")).result = .ok [] ∧
      ¬ SkipsFairly barredShelf .default (.ofString "sync") := by
  rw [SkipsFairly, barredShelf_scan]
  refine ⟨rfl, fun hfair => ?_⟩
  obtain ⟨_, _, _, ⟨err, he, _, habsent⟩ | ⟨_, _, _, he, _⟩⟩ :=
    hfair (.io (.ofString "sync/acme/x") (.os .accessDenied)) (by simp) (by simp; decide)
  · rw [← (WalkError.io.inj he).2] at habsent
    simp [saysAbsent] at habsent
  · simp at he

end SyncAudit.Scan
