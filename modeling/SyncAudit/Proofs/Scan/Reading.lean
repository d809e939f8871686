import SyncAudit.Proofs.FileSystem.Changing
import SyncAudit.Proofs.Scan.Skipping

/-!
# What a walk reads

A walk lists its root and the namespaces, and it opens the directories that links lead to if links
are followed. The permissions to read all other directories, and the contents of files, make no
difference to it: with these changed, it comes to the same result and logs the same events. Where
the permission is taken from a directory that is opened and not listed, the walk is the same or
fails for it.
-/
namespace SyncAudit.Scan

open FileSystem (KeepsWays KeepsListing TakesListing)

/-- A directory that a walk lists. -/
inductive Lists (fs : FileSystem) (options : AuditOptions) (root : Path) : Location → Prop
  | root {loc : Location} {access : Access} :
      fs.locate .follow root = .ok (loc, .directory access) → Lists fs options root loc
  | walked {dir : Ancestor} {above : List Ancestor} :
      Walks fs options root dir above → Lists fs options root dir.loc

/-- A directory that a walk opens because a link that it follows leads there. -/
def Opens (fs : FileSystem) (options : AuditOptions) (root : Path) (loc : Location) : Prop :=
  options.followLinks = true ∧ ∃ stack path access, Meets fs options root stack path ∧
    fs.locate .follow path = .ok (loc, .directory access)

/-- The failure of a walk at a link to a directory that may not be opened. -/
def unopenable : WalkError :=
  .unopened (.os .accessDenied)

/-- A change keeps what a walk goes by. If `barring`, it may take the permission to list a directory
that a link leads to. -/
structure KeepsWalk (fs : FileSystem) (options : AuditOptions) (root : Path) (barring : Prop)
    (alter : Location → Node → Node) : Prop where
  ways : KeepsWays alter
  listed : ∀ loc, Lists fs options root loc → KeepsListing alter loc
  opened : ∀ loc, Opens fs options root loc →
    KeepsListing alter loc ∨ barring ∧ TakesListing alter loc

/-- A run is the same as another one. If `barring`, it may fail instead for a directory that may not
be opened. -/
def SameUnless {α : Type} (barring : Prop) (x y : Run α) : Prop :=
  y = x ∨ barring ∧ y.result = .error (.walk unopenable)

variable {fs : FileSystem} {options : AuditOptions} {root path : Path} {dir : Ancestor}
  {above stack : List Ancestor} {n : Name} {alter : Location → Node → Node} {barring : Prop}

section Runs

variable {α β : Type}

theorem SameUnless.refl (barring : Prop) (x : Run α) : SameUnless barring x x :=
  .inl rfl

theorem SameUnless.bind {x y : Run α} {f g : α → Run β} (hxy : SameUnless barring x y)
    (hfg : ∀ a, SameUnless barring (f a) (g a)) :
    SameUnless barring (x >>= f) (y >>= g) := by
  rcases hxy with rfl | ⟨hbarring, hfails⟩
  · cases hy : y.result with
    | error e => exact .inl (by rw [Run.bind_of_error hy, Run.bind_of_error hy])
    | ok a =>
      rw [Run.bind_of_ok hy, Run.bind_of_ok hy]
      rcases hfg a with heq | ⟨hbarring, hfails⟩
      · exact .inl (by rw [heq])
      · exact .inr ⟨hbarring, hfails⟩
  · exact .inr ⟨hbarring, by rw [Run.bind_of_error hfails]⟩

theorem SameUnless.collect {f g : α → Run (List β)} {as : List α}
    (h : ∀ a ∈ as, SameUnless barring (f a) (g a)) :
    SameUnless barring (collect f as) (collect g as) := by
  induction as with
  | nil => exact .refl _ _
  | cons a rest ih =>
    obtain ⟨ha, hrest⟩ := List.forall_mem_cons.mp h
    rw [collect_cons, collect_cons]
    exact ha.bind fun here => (ih hrest).bind fun later => .refl _ _

theorem SameUnless.settle {out out' : Outcome} {go go' : Path → Run (List FoundRepo)}
    (hout : out' = out ∨ barring ∧ out' = .broken unopenable)
    (hgo : ∀ p, out = .admitted p → SameUnless barring (go p) (go' p)) :
    SameUnless barring (settle out go) (settle out' go') := by
  rcases hout with rfl | ⟨hbarring, rfl⟩
  · cases out' with
    | admitted p => exact hgo p rfl
    | _ => exact .refl _ _
  · exact .inr ⟨hbarring, rfl⟩

end Runs

theorem isUnfollowable_mapNodes (h : KeepsWays alter) (e : WalkError) :
    isUnfollowable (fs.mapNodes alter) e = isUnfollowable fs e := by
  cases e with
  | io path e => exact h.isLink fs path
  | _ => rfl

theorem ofError_mapNodes (h : KeepsWays alter) (e : WalkError) :
    Outcome.ofError (fs.mapNodes alter) e = Outcome.ofError fs e := by
  rw [Outcome.ofError, Outcome.ofError, isUnfollowable_mapNodes h]

theorem raise_mapNodes (h : KeepsWays alter) (e : WalkError) :
    raise (fs.mapNodes alter) e = raise fs e := by
  rw [raise, raise, isUnfollowable_mapNodes h]

theorem follow_mapNodes (h : KeepsWays alter)
    (hread : ∀ loc access, fs.locate .follow path = .ok (loc, .directory access) →
      KeepsListing alter loc ∨ barring ∧ TakesListing alter loc) :
    follow (fs.mapNodes alter) options stack path n = follow fs options stack path n ∨
      barring ∧ follow (fs.mapNodes alter) options stack path n = .broken unopenable := by
  rw [follow, follow, h.locate]
  cases hl : fs.locate .follow path with
  | error e => exact .inl (ofError_mapNodes h _)
  | ok found =>
    obtain ⟨loc, node⟩ := found
    cases node with
    | file access content =>
      obtain ⟨_, _, hfile⟩ := h.file loc access content
      simp [Except.map, hfile]
    | link target => simp [Except.map, h.link]
    | directory access =>
      obtain ⟨_, hdirectory, -⟩ := h.directory loc access
      simp only [Except.map, hdirectory]
      rcases hread loc access hl with hkeeps | ⟨hbarring, htakes⟩
      · rw [h.openForReading hl hkeeps]
        cases fs.openForReading path with
        | error e => exact .inl (ofError_mapNodes h _)
        | ok opened => simp [Except.map, ofError_mapNodes h]
      · rw [h.openForReading_of_takes hl htakes]
        exact .inr ⟨hbarring, rfl⟩

theorem visit_mapNodes (h : KeepsWays alter)
    (hread : options.followLinks = true → ∀ target loc access,
      fs.node? (n :: dir.loc) = some (.link target) →
      fs.locate .follow (dir.path.child n) = .ok (loc, .directory access) →
      KeepsListing alter loc ∨ barring ∧ TakesListing alter loc) :
    visit (fs.mapNodes alter) options stack dir.path dir.loc n =
        visit fs options stack dir.path dir.loc n ∨
      barring ∧ visit (fs.mapNodes alter) options stack dir.path dir.loc n =
        .broken unopenable := by
  rw [visit, visit, FileSystem.node_mapNodes]
  cases hnode : fs.node? (n :: dir.loc) with
  | none => exact .inl rfl
  | some node =>
    cases node with
    | file access content =>
      obtain ⟨_, _, hfile⟩ := h.file (n :: dir.loc) access content
      simp [hfile]
    | directory access =>
      obtain ⟨_, hdirectory, -⟩ := h.directory (n :: dir.loc) access
      simp [hdirectory]
    | link target =>
      simp only [Option.map_some, h.link]
      split
      case isTrue hfollow =>
        exact follow_mapNodes h fun loc access hl => hread hfollow target loc access hnode hl
      case isFalse => exact .inl rfl

namespace KeepsWalk

variable (h : KeepsWalk fs options root barring alter)

include h

/-- An entry that the walk visits is found to be the same, or cannot be opened any more. -/
theorem visit (hdir : Walks fs options root dir above) (n : Name) :
    visit (fs.mapNodes alter) options (dir :: above) dir.path dir.loc n =
        visit fs options (dir :: above) dir.path dir.loc n ∨
      barring ∧ visit (fs.mapNodes alter) options (dir :: above) dir.path dir.loc n =
        .broken unopenable :=
  visit_mapNodes h.ways fun hfollow _ _ _ hnode hl =>
    h.opened _ ⟨hfollow, _, _, _, .link hdir hnode, hl⟩

theorem list_root : (fs.mapNodes alter).list root = fs.list root :=
  h.ways.list fun loc _ hl => h.listed loc (.root hl)

theorem scanNamespace {loc : Location} {access : Access} (hdir : Walks fs options root dir [])
    (hlocate : fs.locate .follow dir.path = .ok (dir.loc, .directory access))
    (hn : EntryName n) (henters : Enters fs options dir [] n loc) :
    SameUnless barring (scanNamespace fs options dir (dir.path.child n))
      (scanNamespace (fs.mapNodes alter) options dir (dir.path.child n)) := by
  have hentry := hdir.entry henters
  have hlist : (fs.mapNodes alter).list (dir.path.child n) = fs.list (dir.path.child n) := by
    refine h.ways.list fun loc' access' hl => ?_
    obtain rfl := henters.loc_eq_of_locate hlocate hn hl
    exact h.listed _ (.walked hentry)
  rw [Scan.scanNamespace, Scan.scanNamespace, hlist]
  refine SameUnless.bind (.refl _ _) fun _ => ?_
  cases hfound : fs.list (dir.path.child n) with
  | error e => exact .inl (raise_mapNodes h.ways _)
  | ok found =>
    obtain ⟨loc', names⟩ := found
    obtain rfl := henters.loc_eq hlocate hn hfound
    exact .collect fun r _ => .settle (h.visit hentry r) fun _ _ => .refl _ _

theorem scanDirectory (hfs : fs.ProperNames) :
    SameUnless barring (scanDirectory fs options root)
      (scanDirectory (fs.mapNodes alter) options root) := by
  rw [Scan.scanDirectory, Scan.scanDirectory, h.list_root]
  cases hroot : fs.list root with
  | error e => exact .inl (raise_mapNodes h.ways _)
  | ok found =>
    obtain ⟨rootLoc, names⟩ := found
    obtain ⟨access, hlocate, -⟩ := FileSystem.list_eq_ok_iff.mp hroot
    have hwalks : Walks fs options root ⟨root, rootLoc⟩ [] := .root hroot
    refine .collect fun ns hns => .settle (h.visit hwalks ns) fun p hp => ?_
    obtain ⟨rfl, loc, henters⟩ := enters_of_admitted hp
    exact h.scanNamespace hwalks hlocate (hfs.of_list hroot hns) henters

theorem scanRoot (hfs : fs.ProperNames) :
    SameUnless barring (scanRoot fs options root) (scanRoot (fs.mapNodes alter) options root) := by
  have hdirectory := h.scanDirectory hfs
  have hraise : ∀ e, SameUnless barring (raise fs e) (raise (fs.mapNodes alter) e) :=
    fun e => .inl (raise_mapNodes h.ways e)
  rw [Scan.scanRoot, Scan.scanRoot, FileSystem.linkStat, FileSystem.linkStat, FileSystem.stat,
    FileSystem.stat, h.ways.locate, h.ways.locate]
  cases fs.locate .keep root with
  | error e => exact hraise _
  | ok kept =>
    obtain ⟨loc, node⟩ := kept
    cases node with
    | file access content =>
      obtain ⟨_, _, hfile⟩ := h.ways.file loc access content
      simp only [Except.map, hfile]
      exact .refl _ _
    | directory access =>
      obtain ⟨_, hkept, -⟩ := h.ways.directory loc access
      simp only [Except.map, hkept]
      exact hdirectory
    | link target =>
      simp only [Except.map, h.ways.link]
      cases hl : fs.locate .follow root with
      | error e => exact hraise _
      | ok found =>
        obtain ⟨rootLoc, rootNode⟩ := found
        cases rootNode with
        | file access content =>
          obtain ⟨_, _, hfile⟩ := h.ways.file rootLoc access content
          simp only [hfile]
          exact .refl _ _
        | link target =>
          simp only [h.ways.link]
          exact .refl _ _
        | directory access =>
          obtain ⟨_, hfound, -⟩ := h.ways.directory rootLoc access
          simp only [hfound, h.ways.openForReading hl (h.listed rootLoc (.root hl))]
          split
          case isFalse => exact hdirectory
          case isTrue =>
            cases fs.openForReading root with
            | error e => exact hraise _
            | ok opened => exact hdirectory

/-- A scan is the same run after a change that keeps what it goes by, or fails for a directory that
the change bars. -/
theorem scan (hfs : fs.ProperNames) :
    SameUnless barring (scan fs options root) (scan (fs.mapNodes alter) options root) :=
  SameUnless.bind (.refl _ _) fun _ => (h.scanRoot hfs).bind fun _ => .refl _ _

theorem node_of_link {loc : Location} {target : Path} (hnode : fs.node? loc = some (.link target)) :
    (fs.mapNodes alter).node? loc = some (.link target) := by
  rw [FileSystem.node_mapNodes, hnode, Option.map_some, h.ways.link]

theorem enters {loc : Location} (henters : Enters fs options dir above n loc) :
    Enters (fs.mapNodes alter) options dir above n loc := by
  cases henters with
  | @directory access hnode hshown =>
    obtain ⟨access', hdirectory, -⟩ := h.ways.directory (n :: dir.loc) access
    have hnode' : (fs.mapNodes alter).node? (n :: dir.loc) = some (.directory access') := by
      rw [FileSystem.node_mapNodes, hnode, Option.map_some, hdirectory]
    exact .directory hnode' hshown
  | @link target _ access hfollow hnode hl hoff hshown =>
    obtain ⟨access', hdirectory, -⟩ := h.ways.directory loc access
    have hl' : (fs.mapNodes alter).locate .follow (dir.path.child n) =
        .ok (loc, .directory access') := by
      rw [h.ways.locate, hl, Except.map, hdirectory]
    exact .link hfollow (h.node_of_link hnode) hl' hoff hshown

/-- The walk lists the same directories after the change. -/
theorem walks (hdir : Walks fs options root dir above) :
    Walks (fs.mapNodes alter) options root dir above := by
  induction hdir with
  | root hroot => exact .root (h.list_root.trans hroot)
  | entry _ hentry ih => exact .entry ih (h.enters hentry)

theorem meets (hmeets : Meets fs options root stack path) :
    Meets (fs.mapNodes alter) options root stack path := by
  obtain ⟨hdir, hnode⟩ := hmeets
  exact .link (h.walks hdir) (h.node_of_link hnode)

end KeepsWalk

/-- A scan is the same run after every change that keeps what paths are followed by and the
permission to list the directories that the walk lists or opens. -/
theorem scan_mapNodes (hfs : fs.ProperNames) (h : KeepsWalk fs options root False alter) :
    scan (fs.mapNodes alter) options root = scan fs options root := by
  rcases h.scan hfs with heq | ⟨hbarring, -⟩
  · exact heq
  · exact hbarring.elim

end SyncAudit.Scan
