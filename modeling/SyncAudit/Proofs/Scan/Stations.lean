import SyncAudit.Proofs.Scan.Accounting

/-!
# The stations of a walk

A walk comes to the entries of the root one after the other and, behind each that it goes into, to
the entries of that namespace. A scan is one loop over these stations. It does not remember which
namespace it is in but reads it off the path of the entry that it is at. What it reads is the entry
of the root that it went into last, however the path of the root is spelled, so no scan fails for
want of a namespace.
-/
namespace SyncAudit

/-- The path of the directory that an event says is processed. -/
def Event.processed? : Event → Option Path
  | .processing path => some path
  | _ => none

/-- The path of the directory that was processed last, by the log. -/
def lastProcessed (events : List Event) : Option Path :=
  (events.filterMap Event.processed?).getLast?

namespace Scan

/-- What a walk comes to: an entry of the root or of a namespace, with what becomes of it, or an
error in place of entries. -/
inductive Station where
  | inRoot (path : Path) (n : Name) (outcome : Outcome)
  | inNamespace (path : Path) (n : Name) (outcome : Outcome)
  | error (e : WalkError)
  deriving DecidableEq, Repr

/-- The stations in the namespace directory at `path`. -/
def namespaceStations (fs : FileSystem) (options : AuditOptions) (root : Ancestor) (path : Path) :
    List Station :=
  match fs.list path with
  | .error e => [.error (.io path e)]
  | .ok (loc, names) =>
    names.map fun r =>
      .inNamespace (path.child r) r (visit fs options [⟨path, loc⟩, root] path loc r)

/-- The station at the entry `ns` of the root, and those in it if it is admitted. -/
def entryStations (fs : FileSystem) (options : AuditOptions) (root : Ancestor) (ns : Name) :
    List Station :=
  let outcome := visit fs options [root] root.path root.loc ns
  .inRoot (root.path.child ns) ns outcome ::
    if outcome.isAdmitted then namespaceStations fs options root (root.path.child ns) else []

def directoryStations (fs : FileSystem) (options : AuditOptions) (root : Path) : List Station :=
  match fs.list root with
  | .error e => [.error (.io root e)]
  | .ok (loc, names) => names.flatMap (entryStations fs options ⟨root, loc⟩)

/-- The stations of a walk from a root, in the order in which it comes to them. -/
def stations (fs : FileSystem) (options : AuditOptions) (root : Path) : List Station :=
  match fs.linkStat root with
  | .error e => [.error (.io root e)]
  | .ok (.directory _) => directoryStations fs options root
  | .ok (.file _ _) => []
  | .ok (.link _) =>
    match fs.stat root with
    | .error e => [.error (.io root e)]
    | .ok (.directory _) =>
      if options.followLinks then
        match fs.openForReading root with
        | .error e => [.error (.unopened e)]
        | .ok _ => directoryStations fs options root
      else directoryStations fs options root
    | .ok _ => []

/-- What a scan does at a station. -/
def stopAt (fs : FileSystem) : Station → Run (List FoundRepo)
  | .inRoot path _ outcome => settle outcome fun _ => do
    Run.log (.processing path)
    pure []
  | .inNamespace path n outcome => settle outcome fun _ => identify path n
  | .error e => raise fs e

variable {fs : FileSystem} {options : AuditOptions} {root : Ancestor} {path : Path}
  {last : Option (Path × Name)} {station : Station}

/-! ## The loop -/

/-- A namespace is announced and then gone through station by station. -/
theorem scanNamespace_eq_collect (fs : FileSystem) (options : AuditOptions) (root : Ancestor)
    (path : Path) :
    scanNamespace fs options root path =
      Run.log (.processing path) >>= fun _ =>
        collect (stopAt fs) (namespaceStations fs options root path) := by
  rw [scanNamespace, namespaceStations]
  cases fs.list path with
  | error e => rw [collect_singleton]; rfl
  | ok listing =>
    obtain ⟨loc, names⟩ := listing
    -- an entry that is admitted is admitted with its own path
    have hstop (r : Name) :
        stopAt fs (.inNamespace (path.child r) r
            (visit fs options [⟨path, loc⟩, root] path loc r)) =
          settle (visit fs options [⟨path, loc⟩, root] path loc r) fun p => identify p r := by
      apply settle_congr
      intro p hp
      rw [visit_admitted_path hp]
    simp only [collect_map, hstop]

/-- Each entry of the root is settled at its station, and a namespace at those behind it. -/
theorem collect_entryStations (fs : FileSystem) (options : AuditOptions) (root : Ancestor)
    (ns : Name) :
    collect (stopAt fs) (entryStations fs options root ns) =
      settle (visit fs options [root] root.path root.loc ns) fun p =>
        scanNamespace fs options root p := by
  rw [entryStations]
  cases hvisit : visit fs options [root] root.path root.loc ns with
  | admitted p =>
    obtain rfl := visit_admitted_path hvisit
    simp [Outcome.isAdmitted, collect_cons, stopAt, settle, scanNamespace_eq_collect]
  | _ => exact collect_singleton _ _

theorem scanDirectory_eq_collect (fs : FileSystem) (options : AuditOptions) (root : Path) :
    scanDirectory fs options root = collect (stopAt fs) (directoryStations fs options root) := by
  rw [scanDirectory, directoryStations]
  cases fs.list root with
  | error e => exact (collect_singleton _ _).symm
  | ok listing =>
    obtain ⟨loc, names⟩ := listing
    simp only [collect_flatMap, collect_entryStations]

/-- A scan goes through its root, or meets an error at it, or finds nothing to go through. -/
theorem stations_cases (fs : FileSystem) (options : AuditOptions) (root : Path) :
    (scanRoot fs options root = scanDirectory fs options root ∧
      stations fs options root = directoryStations fs options root) ∨
    (∃ e, scanRoot fs options root = raise fs e ∧ stations fs options root = [.error e]) ∨
    (scanRoot fs options root = pure [] ∧ stations fs options root = []) := by
  rw [scanRoot, stations]
  cases fs.linkStat root with
  | error e => exact .inr (.inl ⟨_, rfl, rfl⟩)
  | ok node =>
    cases node with
    | file _ _ => exact .inr (.inr ⟨rfl, rfl⟩)
    | directory _ => exact .inl ⟨rfl, rfl⟩
    | link _ =>
      cases fs.stat root with
      | error e => exact .inr (.inl ⟨_, rfl, rfl⟩)
      | ok node =>
        cases node with
        | file _ _ => exact .inr (.inr ⟨rfl, rfl⟩)
        | link _ => exact .inr (.inr ⟨rfl, rfl⟩)
        | directory _ =>
          simp only
          split
          case isFalse => exact .inl ⟨rfl, rfl⟩
          case isTrue =>
            cases fs.openForReading root with
            | error e => exact .inr (.inl ⟨_, rfl, rfl⟩)
            | ok _ => exact .inl ⟨rfl, rfl⟩

/-- A scan is one loop over the stations of the walk. -/
theorem scanRoot_eq_collect (fs : FileSystem) (options : AuditOptions) (root : Path) :
    scanRoot fs options root = collect (stopAt fs) (stations fs options root) := by
  rcases stations_cases fs options root with ⟨hscan, hat⟩ | ⟨e, hscan, hat⟩ | ⟨hscan, hat⟩
  · rw [hscan, hat, scanDirectory_eq_collect]
  · rw [hscan, hat, collect_singleton]
    rfl
  · rw [hscan, hat]
    rfl

/-! ## The order of the stations -/

/-- The directory that a walk goes into at a station, by its path and its name. -/
def Station.entered? : Station → Option (Path × Name)
  | .inRoot path n (.admitted _) => some (path, n)
  | _ => none

/-- The directory that a walk went into last. -/
def lastEntered (passed : List Station) : Option (Path × Name) :=
  (passed.filterMap Station.entered?).getLast?

theorem lastEntered_cons (station : Station) (rest : List Station) :
    lastEntered (station :: rest) = (lastEntered rest).or station.entered? := by
  rw [lastEntered, lastEntered]
  cases h : station.entered? with
  | none => rw [List.filterMap_cons_none h, Option.or_none]
  | some entered =>
    rw [List.filterMap_cons_some h, List.getLast?_cons]
    cases (rest.filterMap Station.entered?).getLast? <;> rfl

/-- A station in a namespace belongs to the entry of the root that the walk went into last. -/
def Belongs (root : Path) (last : Option (Path × Name)) : Station → Prop
  | .inNamespace path r _ => ∃ ns, EntryName ns ∧ EntryName r ∧
    last = some (root.child ns, ns) ∧ path = (root.child ns).child r
  | _ => True

/-- Every station belongs where the walk has got to, if it starts in the directory `last`. -/
def InOrder (root : Path) : Option (Path × Name) → List Station → Prop
  | _, [] => True
  | last, station :: rest => Belongs root last station ∧ InOrder root (station.entered?.or last) rest

theorem inOrder_append {root : Path} {as bs : List Station} :
    InOrder root last (as ++ bs) ↔
      InOrder root last as ∧ InOrder root ((lastEntered as).or last) bs := by
  induction as generalizing last with
  | nil => simp [InOrder, lastEntered]
  | cons station rest ih =>
    rw [List.cons_append, InOrder, InOrder, ih, lastEntered_cons, Option.or_assoc, and_assoc]

theorem InOrder.belongs {root : Path} {before after : List Station}
    (h : InOrder root last (before ++ station :: after)) :
    Belongs root ((lastEntered before).or last) station :=
  (inOrder_append.mp h).2.1

/-- The walk stays in a namespace at the stations in it. -/
theorem inOrder_namespaceStations (hfs : fs.ProperNames) {ns : Name} (hns : EntryName ns) :
    InOrder root.path (some (root.path.child ns, ns))
      (namespaceStations fs options root (root.path.child ns)) := by
  rw [namespaceStations]
  cases hlist : fs.list (root.path.child ns) with
  | error e => exact ⟨trivial, trivial⟩
  | ok listing =>
    obtain ⟨loc, names⟩ := listing
    have hnames : ∀ r ∈ names, EntryName r := fun r hr => hfs.of_list hlist hr
    clear hlist
    simp only
    induction names with
    | nil => trivial
    | cons r rest ih =>
      obtain ⟨hr, hrest⟩ := List.forall_mem_cons.mp hnames
      exact ⟨⟨ns, hns, hr, rfl, rfl⟩, ih hrest⟩

theorem inOrder_entryStations (hfs : fs.ProperNames) {ns : Name} (hns : EntryName ns)
    (last : Option (Path × Name)) :
    InOrder root.path last (entryStations fs options root ns) := by
  refine ⟨trivial, ?_⟩
  cases visit fs options [root] root.path root.loc ns with
  | admitted p => exact inOrder_namespaceStations hfs hns
  | _ => trivial

theorem inOrder_flatMap_entryStations (hfs : fs.ProperNames) {names : List Name}
    (hnames : ∀ ns ∈ names, EntryName ns) (last : Option (Path × Name)) :
    InOrder root.path last (names.flatMap (entryStations fs options root)) := by
  -- whatever the walk went into before, each entry of the root starts anew
  induction names generalizing last with
  | nil => trivial
  | cons ns rest ih =>
    obtain ⟨hns, hrest⟩ := List.forall_mem_cons.mp hnames
    rw [List.flatMap_cons, inOrder_append]
    exact ⟨inOrder_entryStations hfs hns _, ih hrest _⟩

theorem inOrder_directoryStations (hfs : fs.ProperNames) (root : Path) :
    InOrder root none (directoryStations fs options root) := by
  rw [directoryStations]
  cases hlist : fs.list root with
  | error e => exact ⟨trivial, trivial⟩
  | ok listing =>
    obtain ⟨loc, names⟩ := listing
    show InOrder (⟨root, loc⟩ : Ancestor).path none
      (names.flatMap (entryStations fs options ⟨root, loc⟩))
    apply inOrder_flatMap_entryStations hfs
    intro ns hns
    exact hfs.of_list hlist hns

theorem inOrder_stations (hfs : fs.ProperNames) (root : Path) :
    InOrder root none (stations fs options root) := by
  rcases stations_cases fs options root with ⟨-, hat⟩ | ⟨e, -, hat⟩ | ⟨-, hat⟩
  · exact hat ▸ inOrder_directoryStations hfs root
  · exact hat ▸ ⟨trivial, trivial⟩
  · exact hat ▸ trivial

/-! ## What is done at the stations -/

/-- Where every station belongs, nothing but the walk fails at one. -/
theorem kind_of_stopAt_error {root : Path} {e : AuditError} (hbelongs : Belongs root last station)
    (h : (stopAt fs station).result = .error e) : e.kind = .walk := by
  cases station with
  | error err =>
    rw [stopAt, raise] at h
    split at h
    · simp at h
    · obtain rfl := Except.error.inj h
      rfl
  | inRoot path n outcome =>
    rcases settle_error h with hwalk | ⟨p, -, hfails⟩
    · exact hwalk
    · simp at hfails
  | inNamespace path r outcome =>
    obtain ⟨ns, hns, hr, -, rfl⟩ := hbelongs
    rcases settle_error h with hwalk | ⟨p, -, hfails⟩
    · exact hwalk
    · simp [identify_result root hns hr] at hfails

theorem processed_of_entryLines {α : Type} {x : Run α} (h : x.entryLines = []) :
    x.events.filterMap Event.processed? = [] := by
  rw [List.filterMap_eq_nil_iff]
  intro e he
  have htold := List.filter_eq_nil_iff.mp h e he
  cases e with
  | processing path => exact absurd rfl htold
  | _ => rfl

/-- The directory that a walk goes into at a station is logged as processed there. -/
theorem processed_stopAt (fs : FileSystem) (station : Station) :
    (stopAt fs station).events.filterMap Event.processed? =
      (station.entered?.map Prod.fst).toList := by
  cases station with
  | error e =>
    rw [stopAt, raise]
    split <;> rfl
  | inRoot path n outcome => cases outcome <;> rfl
  | inNamespace path r outcome =>
    cases outcome with
    | admitted p => exact processed_of_entryLines (entryLines_identify path r)
    | _ => rfl

/-- The directory that the log of a loop names last is the one that the walk went into last. -/
theorem lastProcessed_collect {passed : List Station} {found : List FoundRepo}
    (h : (collect (stopAt fs) passed).result = .ok found) :
    lastProcessed (collect (stopAt fs) passed).events = (lastEntered passed).map Prod.fst := by
  have hprocessed : (collect (stopAt fs) passed).events.filterMap Event.processed? =
      (passed.filterMap Station.entered?).map Prod.fst := by
    rw [collect_events (collect_result.mp h).1, List.filterMap_flatMap]
    simp only [processed_stopAt]
    rw [List.map_filterMap, List.filterMap_eq_flatMap_toList]
  rw [lastProcessed, lastEntered, hprocessed, List.getLast?_map]

/-- What a scan reads off the path of the entry `r` of a namespace, at the station behind those that
it has passed. -/
structure ReadsOff (fs : FileSystem) (passed : List Station) (path : Path) (r : Name)
    (parent : Path) (ns : Name) : Prop where
  entered : lastEntered passed = some (parent, ns)
  processed : ∀ found, (collect (stopAt fs) passed).result = .ok found →
    lastProcessed (collect (stopAt fs) passed).events = some parent
  hasParent : path.parent? = some parent
  hasName : parent.fileName? = some ns
  identified : (identify path r).result =
    .ok [⟨⟨Text.ofBytesLossy ns, Text.ofBytesLossy r⟩, path⟩]

theorem Belongs.readsOff {root : Path} {passed : List Station} {path : Path} {r : Name}
    {outcome : Outcome} (h : Belongs root (lastEntered passed) (.inNamespace path r outcome)) :
    ∃ ns, ReadsOff fs passed path r (root.child ns) ns := by
  obtain ⟨ns, hns, hr, hlast, rfl⟩ := h
  refine ⟨ns, hlast, fun found hfound => ?_, ?_, ?_, ?_⟩
  · rw [lastProcessed_collect hfound, hlast]
    rfl
  · exact Path.parent_child_child root hns hr
  · exact Path.fileName_child root hns
  · exact identify_result root hns hr

/-- A scan fails for nothing but the walk. It is one loop over the stations of the walk, and at each
entry of a namespace the path of that entry has a parent, whose name is that of the entry of the
root that the walk went into last and that was logged last as processed. -/
theorem scan_reads_off_namespaces (hfs : fs.ProperNames) (options : AuditOptions) (root : Path) :
    (∀ e, (scan fs options root).result = .error e → e.kind = .walk) ∧
    scan fs options root = (do
      Run.log (.scanning root)
      let repos ← collect (stopAt fs) (stations fs options root)
      Run.log (.foundRepos repos.length)
      pure repos) ∧
    ∀ before path r outcome after,
      stations fs options root = before ++ .inNamespace path r outcome :: after →
      ∃ ns, ReadsOff fs before path r (root.child ns) ns := by
  have horder : InOrder root none (stations fs options root) := inOrder_stations hfs root
  have hbelongs {before after : List Station} {station : Station}
      (h : stations fs options root = before ++ station :: after) :
      Belongs root (lastEntered before) station := by
    rw [h] at horder
    simpa using horder.belongs
  refine ⟨fun e he => ?_, ?_, ?_⟩
  · rw [scan_result, scanRoot_eq_collect] at he
    obtain ⟨station, hmem, hfails⟩ := exists_of_collect_error he
    obtain ⟨before, after, hsplit⟩ := List.append_of_mem hmem
    exact kind_of_stopAt_error (hbelongs hsplit) hfails
  · rw [scan, scanRoot_eq_collect]
  · intro before path r outcome after hsplit
    exact (hbelongs hsplit).readsOff

/-- Two namespaces, the name of the second of which is not text. -/
def windingShelf : FileSystem :=
  .ofFixtures []
    [.directory (.ofString "sync/acme/kit"), .file (.ofString "sync/acme/notes") [],
      .directory ⟨Text.toBytes "sync/b" ++ 0xFF :: Text.toBytes "d/kit"⟩]

/-- A root with dots and repeated slashes in its path. -/
def windingRoot : Path :=
  .ofString "./sync//."

/-- The stations in front of the repository in the second namespace. -/
def windingStations : List Station :=
  [.inRoot (.ofString "./sync//./acme") (Text.toBytes "acme")
      (.admitted (.ofString "./sync//./acme")),
    .inNamespace (.ofString "./sync//./acme/kit") (Text.toBytes "kit")
      (.admitted (.ofString "./sync//./acme/kit")),
    .inNamespace (.ofString "./sync//./acme/notes") (Text.toBytes "notes")
      (.notDirectory (.ofString "./sync//./acme/notes")),
    .inRoot ⟨Text.toBytes "./sync//./b" ++ 0xFF :: Text.toBytes "d"⟩ [0x62, 0xFF, 0x64]
      (.admitted ⟨Text.toBytes "./sync//./b" ++ 0xFF :: Text.toBytes "d"⟩)]

theorem windingShelf_stations : stations windingShelf .default windingRoot =
    windingStations ++
      [.inNamespace ⟨Text.toBytes "./sync//./b" ++ 0xFF :: Text.toBytes "d/kit"⟩
        (Text.toBytes "kit")
        (.admitted ⟨Text.toBytes "./sync//./b" ++ 0xFF :: Text.toBytes "d/kit"⟩)] := by
  decide +kernel

theorem windingShelf_reads_off :
    (∀ e, (scan windingShelf .default windingRoot).result = .error e → e.kind = .walk) ∧
    ∃ ns, ReadsOff windingShelf windingStations
      ⟨Text.toBytes "./sync//./b" ++ 0xFF :: Text.toBytes "d/kit"⟩ (Text.toBytes "kit")
      (windingRoot.child ns) ns := by
  obtain ⟨hfails, -, hreads⟩ := scan_reads_off_namespaces
    (FileSystem.properNames_ofFixtures (by decide) _ : windingShelf.ProperNames) .default
    windingRoot
  exact ⟨hfails, hreads _ _ _ _ _ windingShelf_stations⟩

end Scan
end SyncAudit
