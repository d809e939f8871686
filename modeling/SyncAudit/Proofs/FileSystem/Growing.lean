import SyncAudit.Proofs.FileSystem.Described

/-!
# File systems that grow

Making directories and writing files removes nothing: what stands somewhere stays there, with the
access to it, and only the content of a file may be another. A path leads through what stays, so a
place that it came to before is where it leads once a directory or a file stands there.
-/
namespace SyncAudit

/-- Where a node is, or would be made. -/
def Reached.place : Reached → Location
  | .found loc _ => loc
  | .missing dir n => n :: dir

namespace FileSystem

variable {fs fs' : FileSystem} {loc : Location} {node : Node} {p : Path}
  {last last' : LastLink} {onLink onLink' : Route → Except Errno Reached} {slashEnded : Bool}

/-- All that stands in `fs` stands in `fs'`, up to the content of files. -/
structure Grows (fs fs' : FileSystem) : Prop where
  here : fs'.here = fs.here
  node : ∀ {loc node}, fs.node? loc = some node → node.isFile = false →
    fs'.node? loc = some node
  file : ∀ {loc access content}, fs.node? loc = some (.file access content) →
    ∃ content', fs'.node? loc = some (.file access content')

theorem grows_put_of_none (h : fs.node? loc = none) (node : Node) :
    fs.Grows (fs.put loc node) where
  here := here_put fs loc node
  node hnode _ := node_put_of_none h hnode node
  file hfile := ⟨_, node_put_of_none h hfile node⟩

theorem grows_put_of_file {access : Access} {old : List UInt8}
    (h : fs.node? loc = some (.file access old)) (content : List UInt8) :
    fs.Grows (fs.put loc (.file access content)) := by
  refine ⟨here_put fs loc _, fun {l other} hother hkind => ?_, fun {l a bytes} hfile => ?_⟩
  · have hne : l ≠ loc := by
      rintro rfl
      obtain rfl := Option.some.inj (h.symm.trans hother)
      simp [Node.isFile] at hkind
    rw [node_put_of_ne hne, hother]
  · by_cases hl : l = loc
    · subst hl
      obtain ⟨rfl, -⟩ := Node.file.inj (Option.some.inj (h.symm.trans hfile))
      exact ⟨content, node_put_self fs l _⟩
    · exact ⟨bytes, by rw [node_put_of_ne hl, hfile]⟩

/-! ## Paths -/

/-- Names that came to a place lead to the directory that stands there now, or to the file if they
were to create one. -/
theorem Grows.followNames (h : fs.Grows fs')
    (hon : ∀ route reached, onLink route = .ok reached → reached.place = loc →
      onLink' route = .ok (.found loc node))
    (hlast : last' = .follow ∨ last' = last) (hthere : fs'.node? loc = some node)
    (hkind : node.isDirectory = true ∨ node.isFile = true ∧ last = .followToCreate)
    {names : List Name} {start : Location} {reached : Reached}
    (hold : fs.followNames last onLink slashEnded start names = .ok reached)
    (hplace : reached.place = loc) :
    fs'.followNames last' onLink' slashEnded start names = .ok (.found loc node) := by
  induction names generalizing start with
  | nil =>
    obtain ⟨_, -, rfl⟩ := followNames_nil_eq_ok_iff.mp hold
    obtain rfl : start = loc := hplace
    exact followNames_nil_eq_ok_iff.mpr ⟨node, hthere, rfl⟩
  | cons n rest ih =>
    obtain ⟨⟨access, hdir, hsearch⟩, hslash, hfirst⟩ := followNames_cons_eq_ok_iff.mp hold
    have hslash' : ¬ (rest = [] ∧ slashEnded = true ∧ last' = .followToCreate) := by
      rcases hlast with rfl | rfl
      · simp
      · exact hslash
    have hends : LookedUp n → rest = [] → n :: start = loc →
        FirstName fs' last' onLink' slashEnded start n rest (.found loc node) := by
      rintro hname rfl rfl
      cases node with
      | link _ => simp [Node.isDirectory, Node.isFile] at hkind
      | directory _ =>
        exact .into hname hthere (followNames_nil_eq_ok_iff.mpr ⟨_, hthere, rfl⟩)
      | file _ _ =>
        -- No file is created behind a slash.
        have hcreate : last = .followToCreate := by
          simpa [Node.isDirectory, Node.isFile] using hkind
        exact .file hname hthere rfl (.inr (by simpa [hcreate] using hslash))
    refine followNames_cons_eq_ok_iff.mpr ⟨⟨access, h.node hdir rfl, hsearch⟩, hslash', ?_⟩
    cases hfirst with
    | stay hdot hrest => exact .stay hdot (ih hrest)
    | up hup hrest => exact .up hup (ih hrest)
    | into hname hentry hrest => exact .into hname (h.node hentry rfl) (ih hrest)
    | absent hname _ hend => exact hends hname hend hplace
    | file hname _ hend _ => exact hends hname hend hplace
    | keep _ hlink _ =>
      -- No directory and no file stands where a link stood.
      obtain rfl : n :: start = loc := hplace
      obtain rfl := Option.some.inj (hthere.symm.trans (h.node hlink rfl))
      simp [Node.isDirectory, Node.isFile] at hkind
    | through hname hlink hfollowed hreach =>
      have hfollowed' : ¬ KeepsLink last' slashEnded rest := by
        rcases hlast with rfl | rfl
        · simp [KeepsLink]
        · exact hfollowed
      exact .through hname (h.node hlink rfl) hfollowed' (hon _ _ hreach hplace)

theorem Grows.followRoute (h : fs.Grows fs') (hlast : last' = .follow ∨ last' = last)
    (hthere : fs'.node? loc = some node)
    (hkind : node.isDirectory = true ∨ node.isFile = true ∧ last = .followToCreate)
    {links : Nat} {route : Route} {reached : Reached}
    (hold : fs.followRoute last links route = .ok reached) (hplace : reached.place = loc) :
    fs'.followRoute last' links route = .ok (.found loc node) := by
  induction links generalizing route reached with
  | zero => exact h.followNames (fun _ _ hr => by simp at hr) hlast hthere hkind hold hplace
  | succ links ih =>
    exact h.followNames (fun _ _ hr hp => ih hr hp) hlast hthere hkind hold hplace

theorem Grows.locate (h : fs.Grows fs') (hlast : last' = .follow ∨ last' = last)
    {reached : Reached} (hold : fs.lookup last p = .ok reached)
    (hthere : fs'.node? reached.place = some node)
    (hkind : node.isDirectory = true ∨ node.isFile = true ∧ last = .followToCreate) :
    fs'.locate last' p = .ok (reached.place, node) := by
  obtain ⟨hnul, hempty, hlong, hroute⟩ := lookup_eq_ok_iff.mp hold
  rw [locate_eq_ok_iff, lookup_eq_ok_iff, h.here]
  exact ⟨hnul, hempty, hlong, h.followRoute hlast hthere hkind hroute rfl⟩

/-- A path that leads to a directory goes on leading to it. -/
theorem Grows.locate_directory (h : fs.Grows fs') {access : Access}
    (hp : fs.locate .follow p = .ok (loc, .directory access)) :
    fs'.locate .follow p = .ok (loc, .directory access) := by
  have hold : fs.lookup .follow p = .ok (.found loc (.directory access)) :=
    locate_eq_ok_iff.mp hp
  have hthere : fs'.node? loc = some (.directory access) := h.node (lookup_isPlace hold) rfl
  exact h.locate (.inl rfl) hold hthere (.inl rfl)

end FileSystem
end SyncAudit
