import SyncAudit.Proofs.FileSystem.Growing

/-!
# Directories that are made

Making a directory together with those above it removes and changes nothing, whether it succeeds or
stops on the way: what is new is a directory that the path or one above it leads to. If it succeeds,
the path leads to a directory, and where a path does so there is nothing left to make.
-/
namespace SyncAudit.FileSystem

variable {fs fs' fs'' : FileSystem} {p : Path}

/-- `fs'` is `fs` with more directories in it, and one of the paths in question leads to each. -/
structure MadeAlong (Q : Path → Prop) (fs fs' : FileSystem) : Prop where
  here : fs'.here = fs.here
  kept : ∀ {loc node}, fs.node? loc = some node → fs'.node? loc = some node
  new : ∀ {loc node}, fs.node? loc = none → fs'.node? loc = some node →
    ∃ q access, Q q ∧ node = .directory access ∧
      fs'.locate .follow q = .ok (loc, .directory access)

/-- A directory is made where nothing was, and its path leads to it. -/
theorem exists_made (h : fs.makeDirectory p = .ok fs') :
    ∃ loc, fs.node? loc = none ∧ fs' = fs.put loc (.directory .full) ∧ fs.Grows fs' ∧
      fs'.locate .follow p = .ok (loc, .directory .full) := by
  obtain @⟨dir, n, _, hl, -, -⟩ := makeDirectory_eq_ok_iff.mp h
  obtain ⟨-, hnone, -⟩ := lookup_isPlace hl
  have hgrows := grows_put_of_none hnone (.directory .full)
  have hthere := node_put_self fs (n :: dir) (.directory .full)
  exact ⟨n :: dir, hnone, rfl, hgrows, hgrows.locate (.inl rfl) hl hthere (.inl rfl)⟩

section MadeAlong

variable {Q : Path → Prop}

theorem MadeAlong.refl (Q : Path → Prop) (fs : FileSystem) : MadeAlong Q fs fs where
  here := rfl
  kept h := h
  new hnone hsome := by simp [hnone] at hsome

theorem MadeAlong.step (hp : Q p) (h : MadeAlong Q fs fs')
    (hmade : fs'.makeDirectory p = .ok fs'') : MadeAlong Q fs fs'' := by
  obtain ⟨made, hnone, rfl, hgrows, hmadeLead⟩ := exists_made hmade
  refine ⟨hgrows.here.trans h.here,
    fun hold => node_put_of_none hnone (h.kept hold) _, fun {loc node} hfree hnew => ?_⟩
  by_cases hloc : loc = made
  · subst hloc
    have hthere := node_put_self fs' loc (.directory .full)
    obtain rfl := Option.some.inj (hthere.symm.trans hnew)
    exact ⟨p, .full, hp, rfl, hmadeLead⟩
  · rw [node_put_of_ne hloc] at hnew
    obtain ⟨q, access, hq, rfl, hlead⟩ := h.new hfree hnew
    exact ⟨q, access, hq, rfl, hgrows.locate_directory hlead⟩

/-- What is made on the way to a path is led to by the path or by one above it. -/
theorem madeAlong_makeDirectories (hp : Q p)
    (hparent : ∀ {p parent : Path}, Q p → p.parent? = some parent → Q parent)
    (fs : FileSystem) : MadeAlong Q fs (fs.makeDirectories p).1 :=
  makeDirectoriesWithin_preserves_along hparent (fun hq h hmade => h.step hq hmade)
    (MadeAlong.refl Q fs) _ hp

end MadeAlong

theorem isDirectory_eq_true_iff :
    fs.isDirectory p = true ↔ ∃ loc access, fs.locate .follow p = .ok (loc, .directory access) := by
  unfold isDirectory stat
  cases h : fs.locate .follow p with
  | error e => simp [Except.map]
  | ok found =>
    obtain ⟨loc, node⟩ := found
    cases node <;> simp [Except.map, Node.isDirectory]

theorem isDirectory_of_makeDirectory (h : fs.makeDirectory p = .ok fs') :
    fs'.isDirectory p = true := by
  obtain ⟨_, -, -, -, hlead⟩ := exists_made h
  exact isDirectory_eq_true_iff.mpr ⟨_, _, hlead⟩

/-- Directories that have been made are there. -/
theorem isDirectory_of_makeDirectories (hne : p.isEmpty = false)
    (h : fs.makeDirectories p = (fs', .ok ())) : fs'.isDirectory p = true := by
  have hchecked : ∀ {made : FileSystem} {e : IoError},
      (made, if made.isDirectory p then .ok () else .error e) = (fs', Except.ok ()) →
        fs'.isDirectory p = true := by
    intro made e heq
    obtain ⟨rfl, hcheck⟩ := Prod.mk.inj heq
    by_contra hnot
    simp [hnot] at hcheck
  rw [makeDirectories, makeDirectoriesWithin, hne, if_neg Bool.false_ne_true] at h
  split at h
  case h_1 hmade =>
    obtain ⟨rfl, -⟩ := Prod.mk.inj h
    exact isDirectory_of_makeDirectory hmade
  case h_3 => exact hchecked h
  case h_2 =>
    split at h
    case h_1 => simp at h
    case h_2 =>
      split at h
      case h_1 => simp at h
      case h_2 =>
        split at h
        case h_1 hmade =>
          obtain ⟨rfl, -⟩ := Prod.mk.inj h
          exact isDirectory_of_makeDirectory hmade
        case h_2 => exact hchecked h

/-! ## Making again -/

/-- Where names lead to a directory, no other can be made: they find it or a link to it. -/
theorem followNames_keepToCreate {onLink onLink' : Route → Except Errno Reached}
    (hon : ∀ route loc access, onLink route = .ok (.found loc (.directory access)) →
      ∃ loc' node, onLink' route = .ok (.found loc' node))
    {slashEnded : Bool} {names : List Name} {start loc : Location} {access : Access}
    (h : fs.followNames .follow onLink slashEnded start names =
      .ok (.found loc (.directory access))) :
    ∃ loc' node, fs.followNames .keepToCreate onLink' slashEnded start names =
      .ok (.found loc' node) := by
  induction names generalizing start with
  | nil =>
    obtain ⟨node, hnode, -⟩ := followNames_nil_eq_ok_iff.mp h
    exact ⟨start, node, followNames_nil_eq_ok_iff.mpr ⟨node, hnode, rfl⟩⟩
  | cons n rest ih =>
    obtain ⟨hdir, -, hfirst⟩ := followNames_cons_eq_ok_iff.mp h
    have hfound : ∃ loc' node,
        FirstName fs .keepToCreate onLink' slashEnded start n rest (.found loc' node) := by
      cases hfirst with
      | stay hdot h =>
        obtain ⟨loc', node, hrest⟩ := ih h
        exact ⟨loc', node, .stay hdot hrest⟩
      | up hup h =>
        obtain ⟨loc', node, hrest⟩ := ih h
        exact ⟨loc', node, .up hup hrest⟩
      | into hname hentry h =>
        obtain ⟨loc', node, hrest⟩ := ih h
        exact ⟨loc', node, .into hname hentry hrest⟩
      | through hname hlink _ h =>
        by_cases hend : rest = []
        · exact ⟨_, _, .keep hname hlink ⟨hend, .inl rfl⟩⟩
        · obtain ⟨loc', node, hreach⟩ := hon _ _ _ h
          exact ⟨loc', node, .through hname hlink (fun hkeeps => hend hkeeps.1) hreach⟩
    obtain ⟨loc', node, hfound⟩ := hfound
    exact ⟨loc', node, followNames_cons_eq_ok_iff.mpr ⟨hdir, by simp, hfound⟩⟩

theorem followRoute_keepToCreate {links : Nat} {route : Route} {loc : Location} {access : Access}
    (h : fs.followRoute .follow links route = .ok (.found loc (.directory access))) :
    ∃ loc' node, fs.followRoute .keepToCreate links route = .ok (.found loc' node) := by
  induction links generalizing route loc access with
  | zero => exact followNames_keepToCreate (fun _ _ _ hr => by simp at hr) h
  | succ links ih => exact followNames_keepToCreate (fun _ _ _ hr => ih hr) h

theorem makeDirectory_of_isDirectory (h : fs.isDirectory p = true) :
    fs.makeDirectory p = .error (.os .exists) := by
  obtain ⟨loc, access, hl⟩ := isDirectory_eq_true_iff.mp h
  obtain ⟨hnul, hempty, hlong, hroute⟩ := lookup_eq_ok_iff.mp (locate_eq_ok_iff.mp hl)
  obtain ⟨loc', node, hkept⟩ := followRoute_keepToCreate hroute
  have hfound : fs.lookup .keepToCreate p = .ok (.found loc' node) :=
    lookup_eq_ok_iff.mpr ⟨hnul, hempty, hlong, hkept⟩
  rw [makeDirectory, hfound]

/-- Where a path leads to a directory, there is nothing to make. -/
theorem makeDirectories_of_isDirectory (h : fs.isDirectory p = true) :
    fs.makeDirectories p = (fs, .ok ()) := by
  rw [makeDirectories, makeDirectoriesWithin, makeDirectory_of_isDirectory h]
  simp only [h, if_true, ite_self]

end SyncAudit.FileSystem
