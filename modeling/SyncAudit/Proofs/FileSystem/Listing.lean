import SyncAudit.Proofs.Path.Entry
import SyncAudit.Proofs.Sorting
import SyncAudit.Proofs.Table

/-!
# Nodes and listings

The table of a file system holds each location once, so looking a location up and being a row of
the table are the same, and the listing of a directory names each of its entries once, in strictly
increasing order. A path is looked up with success by following its names, if its text allows it.
-/
namespace SyncAudit.FileSystem

variable {fs : FileSystem} {p : Path} {loc : Location} {n : Name}

theorem node_eq_some_iff {node : Node} : fs.node? loc = some node ↔ (loc, node) ∈ fs.nodes :=
  Table.lookup_eq_some_iff fs.nodup

/-- The name of a location in a directory, if it stands there. -/
def nameIn? (dir : Location) : Location → Option Name
  | [] => none
  | n :: parent => if parent = dir then some n else none

theorem nameIn_eq_some_iff {dir : Location} : nameIn? dir loc = some n ↔ loc = n :: dir := by
  cases loc with
  | nil => simp [nameIn?]
  | cons m parent =>
    by_cases h : parent = dir <;> simp [nameIn?, h]

theorem namesIn_eq (dir : Location) :
    fs.namesIn dir = (fs.nodes.map Prod.fst).filterMap (nameIn? dir) := by
  rw [List.filterMap_map]
  unfold namesIn
  congr 1

theorem mem_namesIn : n ∈ fs.namesIn loc ↔ ∃ node, fs.node? (n :: loc) = some node := by
  simp [namesIn_eq, List.mem_filterMap, nameIn_eq_some_iff, node_eq_some_iff]

theorem nodup_namesIn (fs : FileSystem) (loc : Location) : (fs.namesIn loc).Nodup := by
  rw [namesIn_eq]
  apply fs.nodup.filterMap
  intro a b m ha hb
  rw [Option.mem_def, nameIn_eq_some_iff] at ha hb
  rw [ha, hb]

theorem sortNames_perm (names : List Name) : (sortNames names).Perm names := by
  rw [sortNames, sortBy_eq_insertionSort]
  exact List.perm_insertionSort ..

theorem mem_sortNames {names : List Name} : n ∈ sortNames names ↔ n ∈ names :=
  (sortNames_perm names).mem_iff

theorem sortNames_pairwise {names : List Name} (h : names.Nodup) :
    (sortNames names).Pairwise (· < ·) := by
  have hle : (sortNames names).Pairwise (· ≤ ·) := by
    rw [sortNames, sortBy_eq_insertionSort]
    exact List.pairwise_insertionSort ..
  have hne : (sortNames names).Nodup := (sortNames_perm names).nodup_iff.mpr h
  exact (hle.and hne).imp fun ⟨hab, hab'⟩ => Std.lt_of_le_of_ne hab hab'

theorem list_eq_ok_iff {names : List Name} :
    fs.list p = .ok (loc, names) ↔ ∃ access, fs.locate .follow p = .ok (loc, .directory access) ∧
      access.read = true ∧ names = sortNames (fs.namesIn loc) := by
  unfold list
  split
  case h_1 l access hl =>
    by_cases hr : access.read = true
    · simp only [hl, hr, if_true, Except.ok.injEq, Prod.mk.injEq, Node.directory.injEq]
      constructor
      · rintro ⟨rfl, rfl⟩
        exact ⟨access, ⟨rfl, rfl⟩, hr, rfl⟩
      · rintro ⟨_, ⟨rfl, rfl⟩, _, rfl⟩
        exact ⟨rfl, rfl⟩
    · simp only [hl, hr, Bool.false_eq_true, if_false, reduceCtorEq, false_iff, Except.ok.injEq,
        Prod.mk.injEq, Node.directory.injEq]
      rintro ⟨_, ⟨_, rfl⟩, hread, _⟩
      exact hr hread
  case h_2 found hne hl =>
    simp only [reduceCtorEq, false_iff]
    rintro ⟨access, h, _⟩
    exact hne _ _ (Except.ok.inj (hl.symm.trans h))
  case h_3 e he => simp [he]

theorem mem_of_list {names : List Name} (h : fs.list p = .ok (loc, names)) :
    n ∈ names ↔ ∃ node, fs.node? (n :: loc) = some node := by
  obtain ⟨_, _, _, rfl⟩ := list_eq_ok_iff.mp h
  rw [mem_sortNames, mem_namesIn]

theorem pairwise_of_list {names : List Name} (h : fs.list p = .ok (loc, names)) :
    names.Pairwise (· < ·) := by
  obtain ⟨_, _, _, rfl⟩ := list_eq_ok_iff.mp h
  exact sortNames_pairwise (fs.nodup_namesIn loc)

/-- Every node stands under names that entries can have. -/
def ProperNames (fs : FileSystem) : Prop :=
  ∀ loc node, fs.node? loc = some node → ∀ n ∈ loc, EntryName n

theorem ProperNames.of_list {names : List Name} (hfs : fs.ProperNames)
    (h : fs.list p = .ok (loc, names)) (hn : n ∈ names) : EntryName n := by
  obtain ⟨node, hnode⟩ := (mem_of_list h).mp hn
  exact hfs _ node hnode n List.mem_cons_self

theorem lookup_eq_ok_iff {last : LastLink} {reached : Reached} :
    fs.lookup last p = .ok reached ↔ 0 ∉ p.bytes ∧ p.isEmpty = false ∧
      p.bytes.length ≤ maxPath ∧
      fs.followRoute last maxLinks (Route.ofPath fs.here p) = .ok reached := by
  rw [lookup]
  by_cases hnul : p.bytes.contains 0 = true
  · rw [if_pos hnul]
    simp [List.contains_iff_mem.mp hnul]
  have hmem : 0 ∉ p.bytes := mt List.contains_iff_mem.mpr hnul
  by_cases hempty : p.isEmpty = true
  · simp [hmem, hempty]
  by_cases hlong : maxPath < p.bytes.length
  · simp [hmem, hempty, hlong, Nat.not_le.mpr hlong]
  · rw [if_neg hnul, if_neg hempty, if_neg hlong]
    cases hroute : fs.followRoute last maxLinks (Route.ofPath fs.here p) <;>
      simp [hmem, hempty, Nat.not_lt.mp hlong, Except.mapError]

theorem locate_eq_ok_iff {last : LastLink} {node : Node} :
    fs.locate last p = .ok (loc, node) ↔ fs.lookup last p = .ok (.found loc node) := by
  unfold locate
  split <;> simp_all

theorem stat_eq_ok_iff {node : Node} :
    fs.stat p = .ok node ↔ ∃ loc, fs.locate .follow p = .ok (loc, node) := by
  unfold stat
  cases h : fs.locate .follow p with
  | ok found => obtain ⟨loc, _⟩ := found; simp [Except.map]
  | error e => simp [Except.map]

theorem stat_eq_error_iff {e : IoError} :
    fs.stat p = .error e ↔ fs.locate .follow p = .error e := by
  unfold stat
  cases h : fs.locate .follow p <;> simp [Except.map]

theorem locate_unique {last : LastLink} {loc' : Location} {node node' : Node}
    (h : fs.locate last p = .ok (loc, node)) (h' : fs.locate last p = .ok (loc', node')) :
    loc = loc' ∧ node = node' :=
  Prod.mk.inj (Except.ok.inj (h.symm.trans h'))

theorem list_unique {loc' : Location} {names names' : List Name}
    (h : fs.list p = .ok (loc, names)) (h' : fs.list p = .ok (loc', names')) :
    loc = loc' ∧ names = names' :=
  Prod.mk.inj (Except.ok.inj (h.symm.trans h'))

/-- A directory can be opened where it can be listed. -/
theorem openForReading_of_directory {access : Access}
    (h : fs.locate .follow p = .ok (loc, .directory access)) :
    fs.openForReading p =
      if access.read then .ok (loc, .directory access) else .error (.os .accessDenied) := by
  rw [openForReading, h]

theorem list_of_directory {access : Access}
    (h : fs.locate .follow p = .ok (loc, .directory access)) :
    fs.list p =
      if access.read then .ok (loc, sortNames (fs.namesIn loc))
      else .error (.os .accessDenied) := by
  rw [list, h]

/-- What keeps a directory from being listed keeps it from being opened as well. -/
theorem openForReading_of_list_error {access : Access} {e : IoError}
    (hstat : fs.stat p = .ok (.directory access)) (hlist : fs.list p = .error e) :
    fs.openForReading p = .error e := by
  obtain ⟨loc, hl⟩ := stat_eq_ok_iff.mp hstat
  rw [list_of_directory hl] at hlist
  rw [openForReading_of_directory hl]
  split at hlist
  case isTrue => simp at hlist
  case isFalse hread => rw [if_neg hread, Except.error.inj hlist]

theorem read_of_file {access : Access} {content : List UInt8}
    (h : fs.locate .follow p = .ok (loc, .file access content)) :
    fs.read p = if access.read then .ok content else .error (.os .accessDenied) := by
  rw [read, openForReading, h]
  cases hread : access.read <;> simp [hread]

/-- What can be read is the content of a file. -/
theorem exists_file_of_read {bytes : List UInt8} (h : fs.read p = .ok bytes) :
    ∃ loc access, fs.locate .follow p = .ok (loc, .file access bytes) ∧ access.read = true := by
  cases hl : fs.locate .follow p with
  | error e => simp [read, openForReading, hl] at h
  | ok found =>
    obtain ⟨loc, node⟩ := found
    cases node with
    | link target => simp [read, openForReading, hl] at h
    | directory access =>
      cases hread : access.read <;> simp [read, openForReading, hl, hread] at h
    | file access content =>
      rw [read_of_file hl] at h
      split at h
      case isTrue hread =>
        obtain rfl := Except.ok.inj h
        exact ⟨loc, access, rfl, hread⟩
      case isFalse => simp at h

end SyncAudit.FileSystem
