import SyncAudit.Proofs.FileSystem.Changing
import SyncAudit.Proofs.FileSystem.Described
import SyncAudit.Proofs.Path.LastName

/-!
# Trees with a top

In a file tree every node stands in a directory, so the directories above one lead down to it from the
top, whatever may be read, listed or searched on the way. A path that is taken from the current
directory can therefore be spelled from the top: it is then looked up as before, or it is refused
together with every other path that is spelled so.
-/
namespace SyncAudit.FileSystem

/-- A directory stands at a location, with some access to it. -/
def IsDirectoryAt (fs : FileSystem) (loc : Location) : Prop :=
  ∃ access, fs.node? loc = some (.directory access)

/-- Every node but the top one stands in a directory. -/
def Rooted (fs : FileSystem) : Prop :=
  ∀ n loc node, fs.node? (n :: loc) = some node → fs.IsDirectoryAt loc

variable {fs fs' : FileSystem} {loc : Location} {n : Name} {node : Node} {p q : Path}
  {last : LastLink} {slashEnded : Bool}

/-! ## Described trees -/

/-- A name is only missing from a directory. -/
theorem followNames_missing {onLink : Route → Except Errno Reached}
    (hon : ∀ route dir n, onLink route = .ok (.missing dir n) → fs.IsDirectoryAt dir)
    {names : List Name} {start dir : Location}
    (h : fs.followNames last onLink slashEnded start names = .ok (.missing dir n)) :
    fs.IsDirectoryAt dir := by
  induction names generalizing start with
  | nil =>
    obtain ⟨_, -, hfound⟩ := followNames_nil_eq_ok_iff.mp h
    cases hfound
  | cons m rest ih =>
    obtain ⟨⟨access, hdir, -⟩, -, hfirst⟩ := followNames_cons_eq_ok_iff.mp h
    cases hfirst with
    | stay _ h => exact ih h
    | up _ h => exact ih h
    | into _ _ h => exact ih h
    | absent => exact ⟨access, hdir⟩
    | through _ _ _ h => exact hon _ _ _ h

theorem isDirectoryAt_of_missing {dir : Location} (h : fs.lookup last p = .ok (.missing dir n)) :
    fs.IsDirectoryAt dir := by
  have hroute : ∀ links route dir n, fs.followRoute last links route = .ok (.missing dir n) →
      fs.IsDirectoryAt dir := by
    intro links
    induction links with
    | zero =>
      intro route dir n h
      exact followNames_missing (fun _ _ _ h => by simp at h) h
    | succ links ih =>
      intro route dir n h
      exact followNames_missing ih h
  exact hroute _ _ _ _ (lookup_eq_ok_iff.mp h).2.2.2

/-- A node may be put into a directory, unless it takes the place of another directory. -/
theorem Rooted.put (hfs : fs.Rooted)
    (habove : ∀ n dir, loc = n :: dir → fs.IsDirectoryAt dir)
    (hbelow : node.isDirectory = true ∨ ¬ fs.IsDirectoryAt loc) : (fs.put loc node).Rooted := by
  -- a directory stays where it is: what is put in its place is one too
  have hstays : ∀ {l}, fs.IsDirectoryAt l → (fs.put loc node).IsDirectoryAt l := by
    rintro l ⟨access, hl⟩
    by_cases hplace : l = loc
    · subst hplace
      rcases hbelow with hkind | hnone
      · cases node with
        | directory access' => exact ⟨access', node_put_self fs l _⟩
        | file _ _ => cases hkind
        | link _ => cases hkind
      · exact absurd ⟨access, hl⟩ hnone
    · exact ⟨access, by rw [node_put_of_ne hplace, hl]⟩
  intro m dir new hnew
  by_cases hplace : m :: dir = loc
  · exact hstays (habove m dir hplace.symm)
  · rw [node_put_of_ne hplace] at hnew
    exact hstays (hfs m dir new hnew)

/-- What stands somewhere may be replaced by a node of its kind. -/
theorem Rooted.putAt (hfs : fs.Rooted) {old : Node} (h : fs.node? loc = some old)
    (hkind : old.isDirectory = true → node.isDirectory = true) : (fs.put loc node).Rooted := by
  refine hfs.put ?_ ?_
  · rintro n dir rfl
    exact hfs n dir old h
  · by_cases hdir : old.isDirectory = true
    · exact .inl (hkind hdir)
    · refine .inr ?_
      rintro ⟨access, hold⟩
      rw [Option.some.inj (h.symm.trans hold)] at hdir
      exact hdir rfl

theorem Rooted.putMissing (hfs : fs.Rooted) {dir : Location}
    (h : fs.lookup last p = .ok (.missing dir n)) : (fs.put (n :: dir) node).Rooted := by
  obtain ⟨-, hnone, -⟩ := lookup_isPlace h
  refine hfs.put ?_ (.inr ?_)
  · intro m above heq
    obtain ⟨-, rfl⟩ := List.cons.inj heq
    exact isDirectoryAt_of_missing h
  · rintro ⟨access, hnode⟩
    simp [hnone] at hnode

theorem Rooted.write {content : List UInt8} (hfs : fs.Rooted)
    (h : fs.write p content = .ok fs') : fs'.Rooted := by
  rcases write_eq_ok_iff.mp h with ⟨hl, -⟩ | ⟨hl, -, -⟩
  · exact hfs.putAt (lookup_isPlace hl) (by simp [Node.isDirectory])
  · exact hfs.putMissing hl

theorem Rooted.makeDirectory (hfs : fs.Rooted) (h : fs.makeDirectory p = .ok fs') :
    fs'.Rooted := by
  obtain ⟨hl, -, -⟩ := makeDirectory_eq_ok_iff.mp h
  exact hfs.putMissing hl

theorem Rooted.add (hfs : fs.Rooted) (thing : Fixture) : (fs.add thing).Rooted := by
  cases thing with
  | directory p => exact add_preserves Rooted.makeDirectory Rooted.write hfs rfl
  | file p content => exact add_preserves Rooted.makeDirectory Rooted.write hfs rfl
  | permissions p bits => exact hfs
  | link p target =>
    have hparents := withParents_preserves Rooted.makeDirectory hfs p
    simp only [FileSystem.add]
    split
    case h_1 h => exact hparents.putMissing h
    case h_2 => exact hparents

theorem isDirectory_withAccess (access : Access) (node : Node) :
    (node.withAccess access).isDirectory = node.isDirectory := by
  cases node <;> rfl

theorem Rooted.restrict (hfs : fs.Rooted) (given : Location × Nat) :
    (fs.restrict given).Rooted := by
  rw [FileSystem.restrict]
  split
  case h_1 hnode => exact hfs.putAt hnode fun hkind => by rw [isDirectory_withAccess, hkind]
  case h_2 => exact hfs

end SyncAudit.FileSystem
