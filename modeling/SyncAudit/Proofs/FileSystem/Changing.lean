import SyncAudit.Proofs.FileSystem.Listing

/-!
# Changes that leave paths alone

A path is followed by what stands where: directories, with the permission to search them, files, and
links with their targets. What else a node carries, such as the content of a file or the permission
to list a directory, can be changed, and every path leads where it led.
-/
namespace SyncAudit.FileSystem

/-- A change of nodes that keeps all that a path is followed by. -/
structure KeepsWays (alter : Location → Node → Node) : Prop where
  directory : ∀ loc access, ∃ access',
    alter loc (.directory access) = .directory access' ∧ access'.search = access.search
  file : ∀ loc access content, ∃ access' content',
    alter loc (.file access content) = .file access' content'
  link : ∀ loc target, alter loc (.link target) = .link target

/-- Changes the node at one location. -/
def alterAt (loc : Location) (change : Node → Node) (l : Location) (node : Node) : Node :=
  if l = loc then change node else node

theorem KeepsWays.alterAt {change : Node → Node} (h : KeepsWays fun _ => change) (loc : Location) :
    KeepsWays (alterAt loc change) where
  directory l access := by
    rw [FileSystem.alterAt]
    split
    · exact h.directory l access
    · exact ⟨access, rfl, rfl⟩
  file l access content := by
    rw [FileSystem.alterAt]
    split
    · exact h.file l access content
    · exact ⟨access, content, rfl⟩
  link l target := by
    rw [FileSystem.alterAt]
    split
    · exact h.link l target
    · rfl

variable {fs : FileSystem} {alter : Location → Node → Node} {last : LastLink} {p : Path}

theorem node_mapNodes (alter : Location → Node → Node) (fs : FileSystem) (loc : Location) :
    (fs.mapNodes alter).node? loc = (fs.node? loc).map (alter loc) := by
  change (fs.nodes.map fun row => (row.1, alter row.1 row.2)).lookup loc =
    (fs.nodes.lookup loc).map (alter loc)
  induction fs.nodes with
  | nil => rfl
  | cons row rest ih =>
    rw [List.map_cons, List.lookup_cons, List.lookup_cons, ih]
    by_cases hkey : loc = row.1
    · simp [hkey]
    · have hne : (loc == row.1) = false := by simpa using hkey
      rw [hne]

theorem namesIn_mapNodes (alter : Location → Node → Node) (fs : FileSystem) (loc : Location) :
    (fs.mapNodes alter).namesIn loc = fs.namesIn loc := by
  rw [namesIn_eq, namesIn_eq, mapNodes, List.map_map]
  rfl

/-- A place that is reached, with its node altered. -/
def alterReached (alter : Location → Node → Node) : Reached → Reached
  | .found loc node => .found loc (alter loc node)
  | .missing dir n => .missing dir n

theorem KeepsWays.followNames (h : KeepsWays alter) {onLink onLink' : Route → Except Errno Reached}
    (hon : ∀ route, onLink' route = (onLink route).map (alterReached alter))
    (slashEnded : Bool) (start : Location) (names : List Name) :
    (fs.mapNodes alter).followNames last onLink' slashEnded start names =
      (fs.followNames last onLink slashEnded start names).map (alterReached alter) := by
  induction names generalizing start with
  | nil =>
    rw [FileSystem.followNames, FileSystem.followNames, node_mapNodes]
    cases fs.node? start <;> rfl
  | cons n rest ih =>
    rw [FileSystem.followNames, FileSystem.followNames, node_mapNodes, node_mapNodes]
    cases fs.node? start with
    | none => rfl
    | some node =>
      cases node with
      | file access content =>
        obtain ⟨_, _, hfile⟩ := h.file start access content
        rw [Option.map_some, hfile]
        rfl
      | link target =>
        rw [Option.map_some, h.link]
        rfl
      | directory access =>
        obtain ⟨access', hdirectory, hsearch⟩ := h.directory start access
        rw [Option.map_some, hdirectory]
        simp only [hsearch, ih]
        -- The checks that come before the entry is looked up do not see the change.
        by_cases hbarred : (!access.search) = true
        · simp only [if_pos hbarred, Except.map]
        by_cases hslash : (rest.isEmpty && slashEnded && decide (last = .followToCreate)) = true
        · simp only [if_neg hbarred, if_pos hslash, Except.map]
        by_cases hdot : n = dot
        · simp only [if_neg hbarred, if_neg hslash, if_pos hdot]
        by_cases hup : n = dotDot
        · simp only [if_neg hbarred, if_neg hslash, if_neg hdot, if_pos hup]
        by_cases hlong : maxName < n.length
        · simp only [if_neg hbarred, if_neg hslash, if_neg hdot, if_neg hup, if_pos hlong,
            Except.map]
        simp only [if_neg hbarred, if_neg hslash, if_neg hdot, if_neg hup, if_neg hlong]
        cases fs.node? (n :: start) with
        | none => cases rest <;> rfl
        | some entry =>
          cases entry with
          | file entryAccess content =>
            obtain ⟨_, _, hfile⟩ := h.file (n :: start) entryAccess content
            simp only [Option.map_some, hfile]
            split <;> simp [Except.map, alterReached, hfile]
          | link target =>
            simp only [Option.map_some, h.link, hon]
            split <;> simp [Except.map, alterReached, h.link]
          | directory entryAccess =>
            obtain ⟨_, hentry, -⟩ := h.directory (n :: start) entryAccess
            simp only [Option.map_some, hentry]

theorem KeepsWays.followRoute (h : KeepsWays alter) (links : Nat) (route : Route) :
    (fs.mapNodes alter).followRoute last links route =
      (fs.followRoute last links route).map (alterReached alter) := by
  induction links generalizing route with
  | zero =>
    have hlink : ∀ _ : Route, (.error .tooManyLinks : Except Errno Reached) =
        (Except.error .tooManyLinks).map (alterReached alter) := fun _ => rfl
    rw [FileSystem.followRoute, FileSystem.followRoute]
    exact h.followNames hlink _ _ _
  | succ links ih =>
    rw [FileSystem.followRoute, FileSystem.followRoute]
    exact h.followNames ih _ _ _

/-- Every path leads where it led, to the altered node. -/
theorem KeepsWays.locate (h : KeepsWays alter) (fs : FileSystem) (last : LastLink) (p : Path) :
    (fs.mapNodes alter).locate last p =
      (fs.locate last p).map fun found => (found.1, alter found.1 found.2) := by
  have hlookup : (fs.mapNodes alter).lookup last p =
      (fs.lookup last p).map (alterReached alter) := by
    unfold lookup
    have hhere : (fs.mapNodes alter).here = fs.here := rfl
    rw [h.followRoute, hhere]
    split
    · rfl
    split
    · rfl
    split
    · rfl
    · cases fs.followRoute last maxLinks (Route.ofPath fs.here p) <;> rfl
  rw [FileSystem.locate, FileSystem.locate, hlookup]
  rcases fs.lookup last p with _ | _ | _ <;> rfl

/-- A node stays of its kind. -/
theorem KeepsWays.kind (h : KeepsWays alter) (loc : Location) (node : Node) :
    (alter loc node).isDirectory = node.isDirectory ∧ (alter loc node).isLink = node.isLink := by
  cases node with
  | file access content =>
    obtain ⟨_, _, hfile⟩ := h.file loc access content
    rw [hfile]
    exact ⟨rfl, rfl⟩
  | link target =>
    rw [h.link]
    exact ⟨rfl, rfl⟩
  | directory access =>
    obtain ⟨_, hdirectory, -⟩ := h.directory loc access
    rw [hdirectory]
    exact ⟨rfl, rfl⟩

theorem KeepsWays.stat (h : KeepsWays alter) (fs : FileSystem) (p : Path) :
    (fs.mapNodes alter).stat p =
      (fs.locate .follow p).map fun found => alter found.1 found.2 := by
  rw [FileSystem.stat, h.locate]
  cases fs.locate .follow p <;> rfl

theorem KeepsWays.isLink (h : KeepsWays alter) (fs : FileSystem) (p : Path) :
    (fs.mapNodes alter).isLink p = fs.isLink p := by
  rw [FileSystem.isLink, FileSystem.isLink, linkStat, linkStat, h.locate]
  cases fs.locate .keep p with
  | error e => rfl
  | ok found => exact (h.kind _ _).2

theorem KeepsWays.exists? (h : KeepsWays alter) (fs : FileSystem) (p : Path) :
    (fs.mapNodes alter).exists? p = fs.exists? p := by
  rw [FileSystem.exists?, FileSystem.exists?, h.stat, FileSystem.stat]
  cases fs.locate .follow p with
  | ok found => rfl
  | error e => rfl

/-- A change keeps the permission to list what stands at a location. -/
def KeepsListing (alter : Location → Node → Node) (loc : Location) : Prop :=
  ∀ access access', alter loc (.directory access) = .directory access' →
    access'.read = access.read

theorem keepsListing_alterAt {change : Node → Node} {loc l : Location} (h : l ≠ loc) :
    KeepsListing (alterAt loc change) l := by
  intro access access' heq
  rw [alterAt, if_neg h] at heq
  rw [Node.directory.inj heq]

/-- A change takes the permission to list what stands at a location. -/
def TakesListing (alter : Location → Node → Node) (loc : Location) : Prop :=
  ∀ access access', alter loc (.directory access) = .directory access' → access'.read = false

theorem KeepsWays.openForReading (h : KeepsWays alter) {loc : Location} {access : Access}
    (hl : fs.locate .follow p = .ok (loc, .directory access)) (hread : KeepsListing alter loc) :
    (fs.mapNodes alter).openForReading p =
      (fs.openForReading p).map fun found => (found.1, alter found.1 found.2) := by
  obtain ⟨access', hdirectory, -⟩ := h.directory loc access
  have hl' : (fs.mapNodes alter).locate .follow p = .ok (loc, .directory access') := by
    rw [h.locate, hl, ← hdirectory]
    rfl
  rw [openForReading_of_directory hl, openForReading_of_directory hl', hread _ _ hdirectory]
  split
  · rw [Except.map, hdirectory]
  · rfl

theorem KeepsWays.openForReading_of_takes (h : KeepsWays alter) {loc : Location} {access : Access}
    (hl : fs.locate .follow p = .ok (loc, .directory access)) (htakes : TakesListing alter loc) :
    (fs.mapNodes alter).openForReading p = .error (.os .accessDenied) := by
  obtain ⟨access', hdirectory, -⟩ := h.directory loc access
  have hl' : (fs.mapNodes alter).locate .follow p = .ok (loc, .directory access') := by
    rw [h.locate, hl, ← hdirectory]
    rfl
  rw [openForReading_of_directory hl', htakes _ _ hdirectory]
  rfl

theorem KeepsWays.list (h : KeepsWays alter)
    (hread : ∀ loc access, fs.locate .follow p = .ok (loc, .directory access) →
      KeepsListing alter loc) : (fs.mapNodes alter).list p = fs.list p := by
  rw [FileSystem.list, FileSystem.list, h.locate]
  cases hl : fs.locate .follow p with
  | error e => rfl
  | ok found =>
    obtain ⟨loc, node⟩ := found
    cases node with
    | file access content =>
      obtain ⟨_, _, hfile⟩ := h.file loc access content
      simp only [Except.map, hfile]
    | link target => simp only [Except.map, h.link]
    | directory access =>
      obtain ⟨access', hdirectory, -⟩ := h.directory loc access
      simp only [Except.map, hdirectory, hread loc access hl access access' hdirectory,
        namesIn_mapNodes]

end SyncAudit.FileSystem
