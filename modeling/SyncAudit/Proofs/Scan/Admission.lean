import SyncAudit.Proofs.FileSystem.Resolution

/-!
# Admission of entries

An entry is entered if it is a directory, or a link that is followed to a directory off the walk's
path, and its name is shown. This is said without the order in which the walk looks at an entry;
the walk admits exactly the entries that are entered, unless it breaks off.
-/
namespace SyncAudit.Scan

/-- With `skipHidden`, a name is shown unless it is text that starts with a dot. -/
def Shown (options : AuditOptions) (n : Name) : Prop :=
  options.skipHidden = true → ∀ s, Text.ofBytes? n = some s → s.toList.head? ≠ some '.'

/-- The entry `n` of the directory `dir`, below the directories `above`, is a directory or followed
to one, at the given location. -/
inductive Enters (fs : FileSystem) (options : AuditOptions) (dir : Ancestor)
    (above : List Ancestor) (n : Name) : Location → Prop
  | directory {access : Access} :
      fs.node? (n :: dir.loc) = some (.directory access) → Shown options n →
      Enters fs options dir above n (n :: dir.loc)
  | link {target : Path} {loc : Location} {access : Access} :
      options.followLinks = true → fs.node? (n :: dir.loc) = some (.link target) →
      fs.locate .follow (dir.path.child n) = .ok (loc, .directory access) →
      (∀ a ∈ dir :: above, a.loc ≠ loc) → Shown options n →
      Enters fs options dir above n loc

def Outcome.isAdmitted : Outcome → Bool
  | .admitted _ => true
  | _ => false

variable {fs : FileSystem} {options : AuditOptions} {dir : Ancestor} {above : List Ancestor}
  {n : Name} {path : Path}

theorem isHidden_eq_false_iff :
    isHidden n = false ↔ ∀ s, Text.ofBytes? n = some s → s.toList.head? ≠ some '.' := by
  unfold isHidden
  cases Text.ofBytes? n <;> simp

theorem sift_of_shown (h : Shown options n) : sift options path n = .admitted path := by
  unfold sift
  cases hskip : options.skipHidden with
  | false => rfl
  | true => rw [isHidden_eq_false_iff.mpr (h hskip)]; rfl

theorem sift_of_not_shown (h : ¬ Shown options n) : sift options path n = .hidden path := by
  simp only [Shown, Classical.not_imp] at h
  have hhidden : isHidden n = true := by
    rw [← Bool.not_eq_false, isHidden_eq_false_iff]
    exact h.2
  rw [sift, h.1, hhidden]
  rfl

theorem sift_cases (options : AuditOptions) (path : Path) (n : Name) :
    Shown options n ∧ sift options path n = .admitted path ∨
      ¬ Shown options n ∧ sift options path n = .hidden path := by
  by_cases h : Shown options n
  · exact .inl ⟨h, sift_of_shown h⟩
  · exact .inr ⟨h, sift_of_not_shown h⟩

theorem sift_ne_broken (options : AuditOptions) (path : Path) (n : Name) (e : WalkError) :
    sift options path n ≠ .broken e := by
  rcases sift_cases options path n with ⟨-, h⟩ | ⟨-, h⟩ <;> simp [h]

theorem ofError_cases (fs : FileSystem) (e : WalkError) :
    Outcome.ofError fs e = .unfollowable e ∧ isUnfollowable fs e = true ∨
      Outcome.ofError fs e = .broken e ∧ isUnfollowable fs e = false := by
  unfold Outcome.ofError
  cases isUnfollowable fs e <;> simp

/-- What becomes of a link that is followed. -/
inductive Followed (fs : FileSystem) (options : AuditOptions) (stack : List Ancestor)
    (path : Path) (n : Name) : Outcome → Prop
  | lost {e : IoError} : fs.stat path = .error e → fs.isLink path = true →
      Followed fs options stack path n (.unfollowable (.io path e))
  | barred {e : IoError} : fs.stat path = .error e → fs.isLink path = false →
      Followed fs options stack path n (.broken (.io path e))
  | unopened {loc : Location} {access : Access} :
      fs.locate .follow path = .ok (loc, .directory access) → access.read = false →
      Followed fs options stack path n (.broken (.unopened (.os .accessDenied)))
  | loop {a : Ancestor} {access : Access} :
      fs.locate .follow path = .ok (a.loc, .directory access) → access.read = true → a ∈ stack →
      Followed fs options stack path n (.unfollowable (.loop path a.path))
  | entered {loc : Location} {access : Access} :
      fs.locate .follow path = .ok (loc, .directory access) → access.read = true →
      (∀ a ∈ stack, a.loc ≠ loc) → Shown options n →
      Followed fs options stack path n (.admitted path)
  | hidden {loc : Location} {access : Access} :
      fs.locate .follow path = .ok (loc, .directory access) → access.read = true →
      (∀ a ∈ stack, a.loc ≠ loc) → ¬ Shown options n →
      Followed fs options stack path n (.hidden path)
  | leaf {loc : Location} {node : Node} :
      fs.locate .follow path = .ok (loc, node) → node.isDirectory = false →
      Followed fs options stack path n (.notDirectory path)

theorem follow_followed (fs : FileSystem) (options : AuditOptions) (stack : List Ancestor)
    (path : Path) (n : Name) :
    Followed fs options stack path n (follow fs options stack path n) := by
  unfold follow
  cases hl : fs.locate .follow path with
  | error e =>
    have hstat := FileSystem.stat_eq_error_iff.mpr hl
    change Followed fs options stack path n (.ofError fs (.io path e))
    rcases ofError_cases fs (.io path e) with ⟨h, hlink⟩ | ⟨h, hlink⟩
    · exact h ▸ .lost hstat hlink
    · exact h ▸ .barred hstat hlink
  | ok found =>
    obtain ⟨loc, node⟩ := found
    cases node with
    | file _ _ => exact .leaf hl rfl
    | link _ => exact .leaf hl rfl
    | directory access =>
      rw [FileSystem.openForReading_of_directory hl]
      cases hread : access.read with
      | false => exact .unopened hl hread
      | true =>
        simp only [if_true]
        cases hfind : stack.find? fun a => decide (a.loc = loc) with
        | some a =>
          have hloc : a.loc = loc := by simpa using List.find?_some hfind
          subst hloc
          exact .loop hl hread (List.mem_of_find?_eq_some hfind)
        | none =>
          have hoff : ∀ a ∈ stack, a.loc ≠ loc := by simpa using hfind
          rcases sift_cases options path n with ⟨hs, h⟩ | ⟨hs, h⟩
          · exact h ▸ .entered hl hread hoff hs
          · exact h ▸ .hidden hl hread hoff hs

/-- A link whose target cannot be looked at is passed over, if the walk does not break off. -/
theorem Followed.of_error {stack : List Ancestor} {out : Outcome}
    (h : Followed fs options stack path n out) (hunbroken : ∀ e, out ≠ .broken e) {e : IoError}
    (hstat : fs.stat path = .error e) : out = .unfollowable (.io path e) := by
  have hl := FileSystem.stat_eq_error_iff.mp hstat
  cases h with
  | lost hstat' _ => rw [Except.error.inj (hstat'.symm.trans hstat)]
  | barred _ _ => simp at hunbroken
  | _ hl' => simp [hl] at hl'

/-- A link to a directory leads to one that can be read, if the walk does not break off, and it is
passed over as a loop or sifted like a directory. -/
theorem Followed.of_directory {stack : List Ancestor} {out : Outcome}
    (h : Followed fs options stack path n out) (hunbroken : ∀ e, out ≠ .broken e)
    {loc : Location} {access : Access}
    (hl : fs.locate .follow path = .ok (loc, .directory access)) :
    access.read = true ∧
      ((∃ a ∈ stack, a.loc = loc ∧ out = .unfollowable (.loop path a.path)) ∨
        (∀ a ∈ stack, a.loc ≠ loc) ∧ out = sift options path n) := by
  cases h with
  | lost hstat _ => simp [FileSystem.stat_eq_error_iff.mp hstat] at hl
  | barred _ _ => simp at hunbroken
  | unopened _ _ => simp at hunbroken
  | loop hl' hread ha =>
    obtain ⟨hloc, hdir⟩ := FileSystem.locate_unique hl' hl
    exact ⟨Node.directory.inj hdir ▸ hread, .inl ⟨_, ha, hloc, rfl⟩⟩
  | entered hl' hread hoff hs =>
    obtain ⟨rfl, hdir⟩ := FileSystem.locate_unique hl' hl
    exact ⟨Node.directory.inj hdir ▸ hread, .inr ⟨hoff, (sift_of_shown hs).symm⟩⟩
  | hidden hl' hread hoff hs =>
    obtain ⟨rfl, hdir⟩ := FileSystem.locate_unique hl' hl
    exact ⟨Node.directory.inj hdir ▸ hread, .inr ⟨hoff, (sift_of_not_shown hs).symm⟩⟩
  | leaf hl' hleaf =>
    obtain ⟨-, rfl⟩ := FileSystem.locate_unique hl' hl
    simp [Node.isDirectory] at hleaf

/-- What becomes of an entry: a directory is sifted, a link is followed if links are, and anything
else is passed over. -/
theorem visit_cases (fs : FileSystem) (options : AuditOptions) (dir : Ancestor)
    (above : List Ancestor) (n : Name) :
    (∃ access, fs.node? (n :: dir.loc) = some (.directory access) ∧
      visit fs options (dir :: above) dir.path dir.loc n = sift options (dir.path.child n) n) ∨
    (∃ target, fs.node? (n :: dir.loc) = some (.link target) ∧ options.followLinks = true ∧
      Followed fs options (dir :: above) (dir.path.child n) n
        (visit fs options (dir :: above) dir.path dir.loc n)) ∨
    ((∀ access, fs.node? (n :: dir.loc) ≠ some (.directory access)) ∧
      (options.followLinks = true → ∀ target, fs.node? (n :: dir.loc) ≠ some (.link target)) ∧
      visit fs options (dir :: above) dir.path dir.loc n = .notDirectory (dir.path.child n)) := by
  unfold visit
  cases hnode : fs.node? (n :: dir.loc) with
  | none => simp
  | some node =>
    cases node with
    | file _ _ => simp
    | directory access => exact .inl ⟨access, rfl, rfl⟩
    | link target =>
      cases hfollow : options.followLinks with
      | false => simp
      | true => exact .inr (.inl ⟨target, rfl, rfl, follow_followed fs options _ _ n⟩)

/-- An entry that does not break the walk off is admitted exactly if it is entered. -/
theorem visit_isAdmitted_iff
    (hunbroken : ∀ e, visit fs options (dir :: above) dir.path dir.loc n ≠ .broken e) :
    (visit fs options (dir :: above) dir.path dir.loc n).isAdmitted = true ↔
      ∃ loc, Enters fs options dir above n loc := by
  rcases visit_cases fs options dir above n with
    ⟨access, hnode, hvisit⟩ | ⟨target, hnode, hfollow, hvisit⟩ | ⟨hnodir, hnolink, hvisit⟩
  · rw [hvisit]
    rcases sift_cases options (dir.path.child n) n with ⟨hs, h⟩ | ⟨hs, h⟩
    · simpa [h, Outcome.isAdmitted] using ⟨_, .directory hnode hs⟩
    · simp only [h, Outcome.isAdmitted, Bool.false_eq_true, false_iff, not_exists]
      rintro loc (⟨_, hshown⟩ | ⟨_, _, _, _, hshown⟩)
      · exact hs hshown
      · exact hs hshown
  · generalize hout : visit fs options (dir :: above) dir.path dir.loc n = out at *
    constructor
    · intro hadm
      cases hvisit with
      | entered hl _ hoff hs => exact ⟨_, .link hfollow hnode hl hoff hs⟩
      | _ => simp [Outcome.isAdmitted] at hadm
    · rintro ⟨loc, ⟨hdir, _⟩ | ⟨_, _, hl, hoff, hs⟩⟩
      · simp [hnode] at hdir
      · rcases (hvisit.of_directory hunbroken hl).2 with ⟨a, ha, hloc, _⟩ | ⟨_, rfl⟩
        · exact absurd hloc (hoff a ha)
        · rw [sift_of_shown hs]
          rfl
  · rw [hvisit]
    simp only [Outcome.isAdmitted, Bool.false_eq_true, false_iff, not_exists]
    rintro loc (⟨hdir, _⟩ | ⟨hfollow, hlink, _⟩)
    · exact hnodir _ hdir
    · exact hnolink hfollow _ hlink

end SyncAudit.Scan
