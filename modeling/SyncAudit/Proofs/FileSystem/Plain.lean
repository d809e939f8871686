import SyncAudit.Proofs.FileSystem.Described
import SyncAudit.Proofs.FileSystem.Resolution

/-!
# Plain trees

A plain tree has directories and files, all of them open to the process, and no links. What is
joined to a directory of such a tree leads to a node, or to nothing, or it is refused because a file
stands in front of one of its slashes.
-/
namespace SyncAudit

/-- A name that can be stored: one that entries can have, without NUL and not too long. -/
structure StoredName (n : Name) : Prop extends EntryName n where
  noNul : 0 ∉ n
  fits : n.length ≤ FileSystem.maxName

instance (n : Name) : Decidable (StoredName n) :=
  decidable_of_iff (EntryName n ∧ 0 ∉ n ∧ n.length ≤ FileSystem.maxName)
    ⟨fun h => ⟨h.1, h.2.1, h.2.2⟩, fun h => ⟨h.toEntryName, h.noNul, h.fits⟩⟩

/-- A directory or a file that is open to the process. -/
def Node.IsPlain (node : Node) : Prop :=
  node = .directory .full ∨ ∃ content, node = .file .full content

namespace FileSystem

/-- A tree of directories and files and of nothing else, all of them open to the process. -/
structure Plain (fs : FileSystem) : Prop where
  kinds : ∀ loc node, fs.node? loc = some node → node.IsPlain
  parents : ∀ n loc node, fs.node? (n :: loc) = some node →
    fs.node? loc = some (.directory .full)
  names : ∀ loc node, fs.node? loc = some node → ∀ n ∈ loc, StoredName n

variable {fs fs' : FileSystem} {loc : Location} {n : Name} {names : List Name}
  {p : Path}

theorem Plain.properNames (hfs : fs.Plain) : fs.ProperNames :=
  fun loc node hnode n hn => (hfs.names loc node hnode n hn).toEntryName

theorem Plain.isLink_eq_false (hfs : fs.Plain) {node : Node} (h : fs.node? loc = some node) :
    node.isLink = false := by
  rcases hfs.kinds loc node h with rfl | ⟨content, rfl⟩ <;> rfl

theorem Plain.directory_full (hfs : fs.Plain) {access : Access}
    (h : fs.node? loc = some (.directory access)) : fs.node? loc = some (.directory .full) := by
  rcases hfs.kinds loc _ h with hfull | ⟨content, hfile⟩
  · rw [h, hfull]
  · cases hfile

theorem Plain.node_of_locate (hfs : fs.Plain) {last : LastLink} {access : Access}
    (h : fs.locate last p = .ok (loc, .directory access)) :
    fs.node? loc = some (.directory .full) :=
  hfs.directory_full (lookup_isPlace (locate_eq_ok_iff.mp h))

/-! ## Following names -/

/-- What one name does in a directory of a plain tree, whatever comes behind it. -/
inductive Step (fs : FileSystem) (loc : Location) (n : Name) : Prop
  | into {next : Location} : fs.node? next = some (.directory .full) →
      (∀ onLink slashEnded rest, fs.followNames .follow onLink slashEnded loc (n :: rest) =
        fs.followNames .follow onLink slashEnded next rest) → Step fs loc n
  | file {content : List UInt8} :
      (∀ onLink slashEnded rest, fs.followNames .follow onLink slashEnded loc (n :: rest) =
        if rest = [] ∧ slashEnded = false then .ok (.found (n :: loc) (.file .full content))
        else .error .notDirectory) → Step fs loc n
  | absent :
      (∀ onLink slashEnded rest, fs.followNames .follow onLink slashEnded loc (n :: rest) =
        if rest = [] then .ok (.missing loc n) else .error .noEntry) → Step fs loc n

theorem Plain.node_tail (hfs : fs.Plain) (hloc : fs.node? loc = some (.directory .full)) :
    fs.node? loc.tail = some (.directory .full) := by
  cases loc with
  | nil => exact hloc
  | cons n above => exact hfs.parents n above _ hloc

theorem Plain.step (hfs : fs.Plain) (hloc : fs.node? loc = some (.directory .full))
    (hlong : n.length ≤ maxName) : Step fs loc n := by
  have hlong : ¬ maxName < n.length := Nat.not_lt.mpr hlong
  have hsearch : Access.full.search = true := rfl
  by_cases hdot : n = dot
  · exact .into hloc fun _ _ _ => by simp [followNames, hloc, hdot, hsearch]
  by_cases hup : n = dotDot
  · have hparent := hfs.node_tail hloc
    have hne : dotDot ≠ dot := by decide
    exact .into hparent fun _ _ _ => by simp [followNames, hloc, hup, hne, hsearch]
  cases hnode : fs.node? (n :: loc) with
  | none =>
    exact .absent fun _ _ rest => by
      simp [followNames, hloc, hdot, hup, hlong, hnode, hsearch]
  | some node =>
    rcases hfs.kinds _ _ hnode with rfl | ⟨content, rfl⟩
    · exact .into hnode fun _ _ _ => by
        simp [followNames, hloc, hdot, hup, hlong, hnode, hsearch]
    · have hfile : ∀ onLink slashEnded rest,
          fs.followNames .follow onLink slashEnded loc (n :: rest) =
            if rest = [] ∧ slashEnded = false then .ok (.found (n :: loc) (.file .full content))
            else .error .notDirectory := by
        intro onLink slashEnded rest
        simp [followNames, hloc, hdot, hup, hlong, hnode, hsearch]
      exact .file hfile

/-- Names that are followed lead somewhere or to nothing, or one of them leads to a file where more
is to come. -/
theorem Plain.followNames_cases (hfs : fs.Plain) (hloc : fs.node? loc = some (.directory .full))
    (hlong : ∀ n ∈ names, n.length ≤ maxName) (onLink : Route → Except Errno Reached)
    (slashEnded : Bool) :
    (∃ reached, fs.followNames .follow onLink slashEnded loc names = .ok reached) ∨
      fs.followNames .follow onLink slashEnded loc names = .error .noEntry ∨
      fs.followNames .follow onLink slashEnded loc names = .error .notDirectory ∧
        ∃ before n after fileLoc content, names = before ++ n :: after ∧
          (after ≠ [] ∨ slashEnded = true) ∧
          ∀ onLink, fs.followNames .follow onLink false loc (before ++ [n]) =
            .ok (.found fileLoc (.file .full content)) := by
  -- A name leads the same way whatever comes behind it, so a file that is met further on is met by
  -- the names up to it as well.
  induction names generalizing loc with
  | nil => exact .inl ⟨.found loc (.directory .full), by simp [followNames, hloc]⟩
  | cons n rest ih =>
    obtain ⟨hn, hrest⟩ := List.forall_mem_cons.mp hlong
    cases hfs.step hloc hn with
    | into hnext heq =>
      rw [heq]
      rcases ih hnext hrest with
        hok | hnone | ⟨hfile, before, m, after, fileLoc, content, rfl, hmore, hlead⟩
      · exact .inl hok
      · exact .inr (.inl hnone)
      · refine .inr (.inr ⟨hfile, n :: before, m, after, fileLoc, content, rfl, hmore, ?_⟩)
        intro onLink
        rw [List.cons_append, heq]
        exact hlead onLink
    | @file content heq =>
      rw [heq]
      by_cases hend : rest = [] ∧ slashEnded = false
      · exact .inl ⟨_, if_pos hend⟩
      · refine .inr (.inr ⟨if_neg hend, [], n, rest, n :: loc, content, rfl, ?_, fun onLink => ?_⟩)
        · rw [not_and_or, Bool.not_eq_false] at hend
          exact hend
        · rw [List.nil_append, heq]
          exact if_pos ⟨rfl, rfl⟩
    | absent heq =>
      rw [heq]
      by_cases hend : rest = []
      · exact .inl ⟨_, if_pos hend⟩
      · exact .inr (.inl (if_neg hend))

/-- Nothing is found behind a file. -/
theorem Plain.followNames_through_file (hfs : fs.Plain)
    (hloc : fs.node? loc = some (.directory .full)) {front after : List Name}
    (hlong : ∀ n ∈ front, n.length ≤ maxName) {onLink' : Route → Except Errno Reached}
    {slashEnded' : Bool} {fileLoc : Location} {access : Access} {content : List UInt8}
    (h : fs.followNames .follow onLink' slashEnded' loc front =
      .ok (.found fileLoc (.file access content)))
    {slashEnded : Bool} (hmore : after ≠ [] ∨ slashEnded = true)
    (onLink : Route → Except Errno Reached) :
    fs.followNames .follow onLink slashEnded loc (front ++ after) = .error .notDirectory := by
  induction front generalizing loc with
  | nil => simp [followNames, hloc] at h
  | cons n rest ih =>
    obtain ⟨hn, hrest⟩ := List.forall_mem_cons.mp hlong
    rw [List.cons_append]
    cases hfs.step hloc hn with
    | into hnext heq =>
      rw [heq] at h ⊢
      exact ih hnext hrest h
    | file heq =>
      rw [heq] at h ⊢
      split at h
      case isTrue hend =>
        rw [hend.1, List.nil_append, if_neg]
        rintro ⟨hafter, hslash⟩
        rcases hmore with hmore | hmore
        · exact hmore hafter
        · rw [hslash] at hmore
          cases hmore
      case isFalse => cases h
    | absent heq =>
      rw [heq] at h
      split at h <;> cases h

/-! ## What is joined to a directory -/

/-- A file stands in front of a slash of the path `p`, taken from a directory. -/
def FileInTheWay (fs : FileSystem) (dir p : Path) : Prop :=
  ∃ front back access content, p.bytes = front ++ slash :: back ∧
    fs.stat (dir.join ⟨front⟩) = .ok (.file access content)

/-- A path that can be looked up from a directory, within the limits on names and paths. -/
structure Fits (dir p : Path) : Prop where
  relative : p.isAbsolute = false
  nonempty : p.isEmpty = false
  noNul : 0 ∉ p.bytes
  names : ∀ n ∈ p.names, n.length ≤ maxName
  length : (dir.join p).bytes.length ≤ maxPath

theorem Fits.cut {dir : Path} (h : Fits dir p) {front back : List UInt8}
    (hcut : p.bytes = front ++ slash :: back) : Fits dir ⟨front⟩ := by
  have hrelative := h.relative
  have hfront : front ≠ [] := by
    rintro rfl
    simp [Path.isAbsolute, hcut] at hrelative
  have hrel : Path.isAbsolute ⟨front⟩ = false := by
    obtain ⟨b, rest, rfl⟩ := List.exists_cons_of_ne_nil hfront
    simpa [Path.isAbsolute, hcut] using hrelative
  refine ⟨hrel, by simp [Path.isEmpty, hfront], ?_, ?_, ?_⟩
  · intro hnul
    exact h.noNul (hcut ▸ List.mem_append_left _ hnul)
  · intro n hn
    exact h.names n ((Path.names_of_cut hcut).1 ▸ List.mem_append_left _ hn)
  · have hlength := h.length
    rw [Path.join_bytes dir hrelative, hcut] at hlength
    rw [Path.join_bytes dir hrel]
    simp only [List.length_append, List.length_cons] at hlength ⊢
    omega

/-- What is said of a path that its names are followed for. -/
def statOf : Except Errno Reached → Except IoError Node
  | .ok (.found _ node) => .ok node
  | .ok (.missing _ _) => .error (.os .noEntry)
  | .error e => .error (.os e)

theorem statOf_eq_ok_iff {followed : Except Errno Reached} {node : Node} :
    statOf followed = .ok node ↔ ∃ loc, followed = .ok (.found loc node) := by
  rcases followed with _ | _ | _ <;> simp [statOf]

/-- Where a path leads from a directory is found by following its names, if it can be looked up at
all. -/
theorem stat_join_of_directory {dir : Path} {access : Access} (hrelative : p.isAbsolute = false)
    (hne : p.isEmpty = false) (hdir : fs.locate .follow dir = .ok (loc, .directory access)) :
    ∃ onLink, fs.stat (dir.join p) =
      if (dir.join p).bytes.contains 0 then .error .nulInPath
      else if maxPath < (dir.join p).bytes.length then .error (.os .nameTooLong)
      else statOf (fs.followNames .follow onLink p.endsInSlash loc p.names) := by
  by_cases hnul : (dir.join p).bytes.contains 0 = true
  · refine ⟨fun _ => .error .noEntry, ?_⟩
    rw [if_pos hnul, stat, locate, lookup, if_pos hnul]
    rfl
  by_cases hlong : maxPath < (dir.join p).bytes.length
  · refine ⟨fun _ => .error .noEntry, ?_⟩
    rw [if_neg hnul, if_pos hlong, stat, locate, lookup, if_neg hnul,
      Path.join_ne_empty dir hrelative hne, if_neg Bool.false_ne_true, if_pos hlong]
    rfl
  · obtain ⟨onLink, hlookup⟩ := lookup_join hdir hrelative hne (Bool.not_eq_true _ ▸ hnul)
      (Nat.not_lt.mp hlong) .follow
    refine ⟨onLink, ?_⟩
    rw [if_neg hnul, if_neg hlong, stat, locate, hlookup]
    cases fs.followNames .follow onLink p.endsInSlash loc p.names with
    | error e => rfl
    | ok reached => cases reached <;> rfl

/-- A path that fits can be looked up. -/
theorem Fits.stat_join {dir : Path} {access : Access} (h : Fits dir p)
    (hdir : fs.locate .follow dir = .ok (loc, .directory access)) :
    ∃ onLink, fs.stat (dir.join p) =
      statOf (fs.followNames .follow onLink p.endsInSlash loc p.names) := by
  have hnul : ¬ (dir.join p).bytes.contains 0 = true := by
    rw [List.contains_iff_mem, Path.join_bytes dir h.relative]
    intro hmem
    rcases List.mem_append.mp hmem with hstem | hbytes
    · rcases Path.mem_stem hstem with hbytes | hzero
      · exact (lookup_eq_ok_iff.mp (locate_eq_ok_iff.mp hdir)).1 hbytes
      · revert hzero
        decide
    · exact h.noNul hbytes
  obtain ⟨onLink, hstat⟩ := stat_join_of_directory h.relative h.nonempty hdir
  rw [if_neg hnul, if_neg (Nat.not_lt.mpr h.length)] at hstat
  exact ⟨onLink, hstat⟩

section Joined

variable {dir : Path} {access : Access}

/-- A path that fits leads somewhere from a directory of a plain tree, or to nothing, or it is
refused as one that leads through something else than directories. -/
theorem Plain.stat_join_cases (hfs : fs.Plain) (h : Fits dir p)
    (hdir : fs.locate .follow dir = .ok (loc, .directory access)) :
    (∃ node, fs.stat (dir.join p) = .ok node) ∨
      fs.stat (dir.join p) = .error (.os .noEntry) ∨
      fs.stat (dir.join p) = .error (.os .notDirectory) := by
  obtain ⟨onLink, hstat⟩ := h.stat_join hdir
  rw [hstat]
  rcases hfs.followNames_cases (hfs.node_of_locate hdir) h.names onLink p.endsInSlash with
    ⟨reached, hfollow⟩ | hfollow | ⟨hfollow, -⟩
  · rw [hfollow]
    cases reached with
    | found _ node => exact .inl ⟨node, rfl⟩
    | missing _ _ => exact .inr (.inl rfl)
  · exact .inr (.inl (by rw [hfollow]; rfl))
  · exact .inr (.inr (by rw [hfollow]; rfl))

/-- The last of these is the case if, and only if, there is a file in the way. -/
theorem Plain.stat_join_eq_notDirectory_iff (hfs : fs.Plain) (h : Fits dir p)
    (hdir : fs.locate .follow dir = .ok (loc, .directory access)) :
    fs.stat (dir.join p) = .error (.os .notDirectory) ↔ fs.FileInTheWay dir p := by
  have hloc := hfs.node_of_locate hdir
  obtain ⟨onLink, hstat⟩ := h.stat_join hdir
  constructor
  · intro hrefused
    rw [hstat] at hrefused
    rcases hfs.followNames_cases hloc h.names onLink p.endsInSlash with
      ⟨reached, hfollow⟩ | hfollow | ⟨-, before, n, after, fileLoc, content, hnames, hmore, hlead⟩
    · rw [hfollow] at hrefused
      cases reached <;> simp [statOf] at hrefused
    · rw [hfollow] at hrefused
      simp [statOf] at hrefused
    · obtain ⟨front, back, hcut, hfront, hends⟩ := Path.exists_cut hnames hmore
      obtain ⟨onLink', hstat'⟩ := (h.cut hcut).stat_join hdir
      rw [hfront, hends, hlead] at hstat'
      exact ⟨front, back, .full, content, hcut, hstat'⟩
  · rintro ⟨front, back, access, content, hcut, hfile⟩
    have hfront := h.cut hcut
    obtain ⟨hnames, hmore⟩ := Path.names_of_cut hcut
    obtain ⟨onLink', hstat'⟩ := hfront.stat_join hdir
    obtain ⟨fileLoc, hlead⟩ := statOf_eq_ok_iff.mp (hstat'.symm.trans hfile)
    rw [hstat, hnames, hfs.followNames_through_file hloc hfront.names hlead hmore onLink]
    rfl

end Joined

/-! ## Described trees -/

/-- A name that is missing where names lead is one of them. -/
theorem Plain.missing_name (hfs : fs.Plain) {last : LastLink}
    {onLink : Route → Except Errno Reached} {slashEnded : Bool} {start dir : Location}
    (h : fs.followNames last onLink slashEnded start names = .ok (.missing dir n)) :
    n ∈ names ∧ n.length ≤ maxName := by
  induction names generalizing start with
  | nil =>
    obtain ⟨_, -, hfound⟩ := followNames_nil_eq_ok_iff.mp h
    cases hfound
  | cons m rest ih =>
    have hlater : n ∈ rest ∧ n.length ≤ maxName → n ∈ m :: rest ∧ n.length ≤ maxName :=
      And.imp_left (List.mem_cons_of_mem m)
    obtain ⟨-, -, hfirst⟩ := followNames_cons_eq_ok_iff.mp h
    cases hfirst with
    | stay _ h => exact hlater (ih h)
    | up _ h => exact hlater (ih h)
    | into _ _ h => exact hlater (ih h)
    | absent hname _ _ => exact ⟨List.mem_cons_self, hname.fits⟩
    | through _ hlink _ _ =>
      have hkind := hfs.isLink_eq_false hlink
      cases hkind

/-- A path finds only names missing that can be stored. -/
theorem Plain.storedName_of_missing (hfs : fs.Plain) {last : LastLink} {dir : Location}
    (h : fs.lookup last p = .ok (.missing dir n)) : StoredName n := by
  obtain ⟨hnul, -, -, hroute⟩ := lookup_eq_ok_iff.mp h
  obtain ⟨hname, -, -⟩ : EntryName n ∧ _ := lookup_isPlace h
  have hmem : n ∈ p.names ∧ n.length ≤ maxName := hfs.missing_name hroute
  refine ⟨hname, fun hzero => hnul ?_, hmem.2⟩
  exact subset_of_mem_splitSlashes (List.mem_of_mem_filter hmem.1) hzero

theorem Plain.put (hfs : fs.Plain) {node : Node} (hnode : node.IsPlain)
    (hloc : ∀ n ∈ loc, StoredName n)
    (habove : ∀ n dir, loc = n :: dir → fs.node? dir = some (.directory .full))
    (hbelow : node = .directory .full ∨ fs.node? loc ≠ some (.directory .full)) :
    (fs.put loc node).Plain := by
  constructor
  case kinds =>
    intro l new hnew
    by_cases hl : l = loc
    · rw [hl, node_put_self] at hnew
      exact Option.some.inj hnew ▸ hnode
    · rw [node_put_of_ne hl] at hnew
      exact hfs.kinds l new hnew
  case names =>
    intro l new hnew
    by_cases hl : l = loc
    · exact hl ▸ hloc
    · rw [node_put_of_ne hl] at hnew
      exact hfs.names l new hnew
  case parents =>
    intro n l new hnew
    by_cases hchild : n :: l = loc
    · have hl : l ≠ loc := fun h => List.cons_ne_self n l (hchild.trans h.symm)
      rw [node_put_of_ne hl]
      exact habove n l hchild.symm
    · rw [node_put_of_ne hchild] at hnew
      have hparent := hfs.parents n l new hnew
      by_cases hl : l = loc
      · rcases hbelow with rfl | hbelow
        · rw [hl, node_put_self]
        · exact absurd (hl ▸ hparent) hbelow
      · rw [node_put_of_ne hl, hparent]

/-- A directory or a file may be put where a path found it missing. -/
theorem Plain.putMissing (hfs : fs.Plain) {last : LastLink} {dir : Location} {access : Access}
    (h : fs.lookup last p = .ok (.missing dir n)) (hdir : fs.node? dir = some (.directory access))
    {node : Node} (hnode : node.IsPlain) : (fs.put (n :: dir) node).Plain := by
  obtain ⟨-, hnone, -⟩ := lookup_isPlace h
  refine hfs.put hnode ?_ ?_ (.inr (by simp [hnone]))
  · exact List.forall_mem_cons.mpr ⟨hfs.storedName_of_missing h, hfs.names dir _ hdir⟩
  · intro m above heq
    obtain ⟨-, rfl⟩ := List.cons.inj heq
    exact hfs.directory_full hdir

theorem Plain.write {content : List UInt8} (hfs : fs.Plain)
    (h : fs.write p content = .ok fs') : fs'.Plain := by
  rcases write_eq_ok_iff.mp h with ⟨hl, -⟩ | ⟨hl, hdir, -⟩
  case inr => exact hfs.putMissing hl hdir (.inr ⟨content, rfl⟩)
  case inl loc access old =>
    have hold : fs.node? loc = some (.file access old) := lookup_isPlace hl
    have hfull : Node.IsPlain (.file access content) := by
      rcases hfs.kinds loc _ hold with hdir | ⟨_, hfile⟩
      · cases hdir
      · exact .inr ⟨content, (Node.file.inj hfile).1 ▸ rfl⟩
    refine hfs.put hfull (hfs.names loc _ hold) ?_ (.inr (by simp [hold]))
    rintro n dir rfl
    exact hfs.parents n dir _ hold

theorem Plain.makeDirectory (hfs : fs.Plain) (h : fs.makeDirectory p = .ok fs') : fs'.Plain := by
  obtain ⟨hl, hdir, -⟩ := makeDirectory_eq_ok_iff.mp h
  exact hfs.putMissing hl hdir (.inl rfl)

/-- The directories from the top down to a location make a plain tree. -/
theorem plain_ancestry (hloc : ∀ n ∈ loc, StoredName n) (start : FileSystem)
    (hstart : start.nodes = []) :
    let fs := (ancestry loc).foldl (fun fs loc => fs.put loc (.directory .full)) start
    fs.Plain ∧ fs.node? loc = some (.directory .full) := by
  induction loc with
  | nil =>
    have hnone : ∀ l, start.node? l = none := fun l => by simp [node?, hstart]
    have hempty : start.Plain := by constructor <;> simp [hnone]
    refine ⟨hempty.put (.inl rfl) hloc (by simp) (.inl rfl), node_put_self _ _ _⟩
  | cons n dir ih =>
    obtain ⟨hplain, hdir⟩ := ih fun m hm => hloc m (List.mem_cons_of_mem n hm)
    simp only [ancestry, List.foldl_append, List.foldl_cons, List.foldl_nil]
    refine ⟨hplain.put (.inl rfl) hloc ?_ (.inl rfl), node_put_self _ _ _⟩
    intro m above heq
    obtain ⟨-, rfl⟩ := List.cons.inj heq
    exact hdir

/-- Every file system that is given by directories and files is a plain tree. -/
theorem plain_ofFixtures {here : Location} (hhere : ∀ n ∈ here, StoredName n)
    {things : List Fixture} (hthings : ∀ thing ∈ things, thing.isPlain = true) :
    (ofFixtures here things).Plain := by
  have hplain : (things.foldl FileSystem.add (empty here)).Plain :=
    List.foldlRecOn (motive := Plain) _ _ (plain_ancestry hhere _ rfl).1
      fun _ hfs thing hthing =>
        add_preserves Plain.makeDirectory Plain.write hfs (hthings thing hthing)
  have hnone : ∀ fs : FileSystem, fs.permissionLocations things = [] := by
    intro fs
    refine List.filterMap_eq_nil_iff.mpr fun thing hthing => ?_
    have hkind := hthings thing hthing
    cases thing with
    | permissions p bits => cases hkind
    | _ => rfl
  rw [ofFixtures, hnone]
  exact hplain

end FileSystem
end SyncAudit
