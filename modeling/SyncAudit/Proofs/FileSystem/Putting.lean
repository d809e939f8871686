import SyncAudit.Proofs.FileSystem.Listing

/-!
# What an operation puts where

Putting a node somewhere leaves every other row of the table as it is. Making a directory puts it
where its path found nothing, and writing a file does that too or puts a new content into the file
that it found. Neither does anything else.
-/
namespace SyncAudit.FileSystem

variable {fs fs' : FileSystem} {p : Path} {loc : Location} {node : Node} {content : List UInt8}

theorem replaceRows_cons (loc : Location) (node : Node) (row : Location × Node)
    (rest : List (Location × Node)) :
    replaceRows loc node (row :: rest) =
      (if row.1 = loc then (loc, node) else row) :: replaceRows loc node rest := rfl

theorem lookup_replaceRows_self {rows : List (Location × Node)}
    (h : loc ∈ rows.map Prod.fst) : (replaceRows loc node rows).lookup loc = some node := by
  induction rows with
  | nil => simp at h
  | cons row rest ih =>
    rw [replaceRows_cons]
    by_cases hkey : row.1 = loc
    · rw [if_pos hkey, List.lookup_cons_self]
    · have hne : (loc == row.1) = false := by simpa using Ne.symm hkey
      have hrest : loc ∈ rest.map Prod.fst := by simpa [Ne.symm hkey] using h
      rw [if_neg hkey, List.lookup_cons, hne]
      exact ih hrest

theorem lookup_replaceRows_of_ne {l : Location} (h : l ≠ loc) (rows : List (Location × Node)) :
    (replaceRows loc node rows).lookup l = rows.lookup l := by
  induction rows with
  | nil => rfl
  | cons row rest ih =>
    rw [replaceRows_cons, List.lookup_cons]
    by_cases hkey : row.1 = loc
    · have hne : (l == row.1) = false := by simpa [hkey] using h
      have hnew : (l == loc) = false := by simpa using h
      rw [if_pos hkey, List.lookup_cons, hnew, hne, ih]
    · rw [if_neg hkey, List.lookup_cons, ih]

theorem node_put_self (fs : FileSystem) (loc : Location) (node : Node) :
    (fs.put loc node).node? loc = some node := by
  unfold put
  split
  case isTrue h => exact lookup_replaceRows_self h
  case isFalse h =>
    have hold : fs.nodes.lookup loc = none := by
      rw [List.lookup_eq_none_iff]
      intro row hrow
      simpa using fun heq : loc = row.1 => h (heq ▸ List.mem_map_of_mem hrow)
    change (fs.nodes ++ [(loc, node)]).lookup loc = some node
    rw [List.lookup_append, hold, List.lookup_cons_self]
    rfl

theorem node_put_of_ne {l : Location} (h : l ≠ loc) (fs : FileSystem) (node : Node) :
    (fs.put loc node).node? l = fs.node? l := by
  unfold put
  split
  case isTrue => exact lookup_replaceRows_of_ne h fs.nodes
  case isFalse =>
    have hnew : (l == loc) = false := by simpa using h
    change (fs.nodes ++ [(loc, node)]).lookup l = fs.nodes.lookup l
    rw [List.lookup_append, List.lookup_cons, hnew]
    exact Option.or_none

/-- What is put where nothing was leaves all that was there in its place. -/
theorem node_put_of_none (h : fs.node? loc = none) {l : Location} {old : Node}
    (hold : fs.node? l = some old) (node : Node) : (fs.put loc node).node? l = some old := by
  have hne : l ≠ loc := by
    rintro rfl
    simp [h] at hold
  rw [node_put_of_ne hne, hold]

theorem here_put (fs : FileSystem) (loc : Location) (node : Node) :
    (fs.put loc node).here = fs.here := by
  unfold put
  split <;> rfl

/-- What stands somewhere can be put there again. -/
theorem put_eq_self (h : fs.node? loc = some node) : fs.put loc node = fs := by
  have hrow : (loc, node) ∈ fs.nodes := node_eq_some_iff.mp h
  have hrows : replaceRows loc node fs.nodes = fs.nodes := by
    refine (List.map_congr_left fun row hmem => ?_).trans (List.map_id fs.nodes)
    by_cases hkey : row.1 = loc
    · have hnode : fs.node? loc = some row.2 := node_eq_some_iff.mpr (hkey ▸ hmem)
      have hsame : node = row.2 := Option.some.inj (h.symm.trans hnode)
      rw [if_pos hkey, hsame, ← hkey]
      rfl
    · exact if_neg hkey
  obtain ⟨nodes, here, hnodup⟩ := fs
  rw [put, dif_pos (List.mem_map_of_mem hrow)]
  simp only [FileSystem.mk.injEq, and_true]
  exact hrows

/-- `fs'` is `fs` with a new node in the place where a path found nothing. -/
inductive Adds (fs : FileSystem) (last : LastLink) (p : Path) (node : Node) : FileSystem → Prop
  | mk {dir : Location} {n : Name} {access : Access} :
      fs.lookup last p = .ok (.missing dir n) → fs.node? dir = some (.directory access) →
      access.write = true → Adds fs last p node (fs.put (n :: dir) node)

/-- `fs'` is `fs` with another content in the file that a path leads to. -/
inductive Overwrites (fs : FileSystem) (p : Path) (content : List UInt8) : FileSystem → Prop
  | mk {loc : Location} {access : Access} {old : List UInt8} :
      fs.lookup .followToCreate p = .ok (.found loc (.file access old)) →
      access.write = true → Overwrites fs p content (fs.put loc (.file access content))

/-- A file is overwritten or made. -/
theorem write_eq_ok_iff : fs.write p content = .ok fs' ↔
    fs.Overwrites p content fs' ∨ fs.Adds .followToCreate p (.file .full content) fs' := by
  constructor
  · intro h
    unfold write at h
    split at h
    case h_1 hl =>
      split at h
      case isTrue hwrite => exact .inl (Except.ok.inj h ▸ .mk hl hwrite)
      case isFalse => simp at h
    case h_2 => simp at h
    case h_3 hl =>
      split at h
      case h_1 hdir =>
        split at h
        case isTrue hwrite => exact .inr (Except.ok.inj h ▸ .mk hl hdir hwrite)
        case isFalse => simp at h
      case h_2 => simp at h
    case h_4 => simp at h
  · rintro (⟨hl, hwrite⟩ | ⟨hl, hdir, hwrite⟩)
    · simp only [write, hl, hwrite, if_true]
    · simp only [write, hl, hdir, hwrite, if_true]

theorem makeDirectory_eq_ok_iff :
    fs.makeDirectory p = .ok fs' ↔ fs.Adds .keepToCreate p (.directory .full) fs' := by
  constructor
  · intro h
    unfold makeDirectory at h
    split at h
    case h_1 => simp at h
    case h_2 hl =>
      split at h
      case h_1 hdir =>
        split at h
        case isTrue hwrite => exact Except.ok.inj h ▸ .mk hl hdir hwrite
        case isFalse => simp at h
      case h_2 => simp at h
    case h_3 => simp at h
  · rintro ⟨hl, hdir, hwrite⟩
    simp only [makeDirectory, hl, hdir, hwrite, if_true]

end SyncAudit.FileSystem
