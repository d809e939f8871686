import SyncAudit.Proofs.FileSystem.Following
import SyncAudit.Proofs.FileSystem.Plain

/-!
# What names look up below a directory

Names may lead out of the directory that they start from. As long as nothing is looked up out there,
what they lead to is decided by what stands below that directory. Steps alone look nothing up: from a
directory of a plain tree they always lead to one.
-/
namespace SyncAudit.FileSystem

variable {fs fs' : FileSystem} {loc loc' : Location} {names : List Name} {dir p : Path}

/-- A name that is not looked up. -/
def isStep (n : Name) : Bool :=
  n = dot || n = dotDot

/-- Whether names look nothing up outside of a directory when they start `depth` levels below it.
Steps may lead out of it if nothing but steps comes behind them. -/
def staysWithin : Nat → List Name → Bool
  | _, [] => true
  | depth, n :: rest =>
    if n = dot then staysWithin depth rest
    else if n = dotDot then
      if depth = 0 then rest.all isStep else staysWithin (depth - 1) rest
    else staysWithin (depth + 1) rest

/-- Whether the first name that is looked up or leads elsewhere is looked up. -/
def startsBelow : List Name → Bool
  | [] => false
  | n :: rest => if n = dot then startsBelow rest else n ≠ dotDot

/-- The same things stand at two locations and below them. -/
def SameBelow (fs : FileSystem) (loc : Location) (fs' : FileSystem) (loc' : Location) : Prop :=
  ∀ inner, fs.node? (inner ++ loc) = fs'.node? (inner ++ loc')

/-- A path leads to the same thing in two file systems, with the same things below it. -/
def SameAt (fs fs' : FileSystem) (p : Path) : Prop :=
  ∃ loc loc' node, fs.locate .follow p = .ok (loc, node) ∧ fs'.locate .follow p = .ok (loc', node) ∧
    SameBelow fs loc fs' loc'

/-! ## Names in a plain tree -/

theorem Plain.followNames_cons (hfs : fs.Plain) (hloc : fs.node? loc = some (.directory .full))
    (onLink : Route → Except Errno Reached) (slashEnded : Bool) (n : Name) (rest : List Name) :
    fs.followNames .follow onLink slashEnded loc (n :: rest) =
      if n = dot then fs.followNames .follow onLink slashEnded loc rest
      else if n = dotDot then fs.followNames .follow onLink slashEnded loc.tail rest
      else if maxName < n.length then .error .nameTooLong
      else
        match fs.node? (n :: loc) with
        | none => if rest = [] then .ok (.missing loc n) else .error .noEntry
        | some (.directory _) => fs.followNames .follow onLink slashEnded (n :: loc) rest
        | some node =>
          if rest = [] ∧ slashEnded = false then .ok (.found (n :: loc) node)
          else .error .notDirectory := by
  have hsearch : Access.full.search = true := rfl
  rw [followNames, hloc]
  simp only [hsearch, Bool.not_true, Bool.false_eq_true, if_false, reduceCtorEq, decide_false,
    Bool.and_false]
  cases hnode : fs.node? (n :: loc) with
  | none => simp
  | some node =>
    rcases hfs.kinds _ _ hnode with rfl | ⟨content, rfl⟩
    · rfl
    · simp

theorem Plain.statOf_steps (hfs : fs.Plain) (hloc : fs.node? loc = some (.directory .full))
    (onLink : Route → Except Errno Reached) (slashEnded : Bool)
    (hsteps : names.all isStep = true) :
    statOf (fs.followNames .follow onLink slashEnded loc names) = .ok (.directory .full) := by
  induction names generalizing loc with
  | nil => rw [followNames, hloc, statOf]
  | cons n rest ih =>
    rw [List.all_cons, Bool.and_eq_true] at hsteps
    obtain ⟨hn, hrest⟩ := hsteps
    rw [hfs.followNames_cons hloc]
    by_cases hdot : n = dot
    · rw [if_pos hdot]
      exact ih hloc hrest
    · have hup : n = dotDot := by simpa [isStep, hdot] using hn
      rw [if_neg hdot, if_pos hup]
      exact ih (hfs.node_tail hloc) hrest

/-- Names that look nothing up outside of a directory lead to the same wherever the same things stand
below it. -/
theorem SameBelow.statOf_followNames (h : SameBelow fs loc fs' loc') (hfs : fs.Plain)
    (hfs' : fs'.Plain) (onLink onLink' : Route → Except Errno Reached) (slashEnded : Bool)
    (inner : Location) (hinner : fs.node? (inner ++ loc) = some (.directory .full))
    (hstays : staysWithin inner.length names = true) :
    statOf (fs.followNames .follow onLink slashEnded (inner ++ loc) names) =
      statOf (fs'.followNames .follow onLink' slashEnded (inner ++ loc') names) := by
  -- By induction on the names; `inner` leads from the directory to where they have come.
  induction names generalizing inner with
  | nil =>
    have hinner' := h inner
    rw [hinner] at hinner'
    rw [followNames, followNames, hinner, ← hinner', statOf, statOf]
  | cons n rest ih =>
    have hinner' : fs'.node? (inner ++ loc') = some (.directory .full) := h inner ▸ hinner
    rw [hfs.followNames_cons hinner, hfs'.followNames_cons hinner']
    rw [staysWithin] at hstays
    by_cases hdot : n = dot
    · rw [if_pos hdot] at hstays ⊢
      rw [if_pos hdot]
      exact ih inner hinner hstays
    rw [if_neg hdot] at hstays ⊢
    rw [if_neg hdot]
    by_cases hup : n = dotDot
    · rw [if_pos hup] at hstays ⊢
      rw [if_pos hup]
      have habove := hfs.node_tail hinner
      have habove' := hfs'.node_tail hinner'
      cases inner with
      | nil =>
        rw [hfs.statOf_steps habove _ _ hstays, hfs'.statOf_steps habove' _ _ hstays]
      | cons m inner => exact ih inner habove hstays
    rw [if_neg hup] at hstays ⊢
    rw [if_neg hup]
    by_cases hlong : maxName < n.length
    · rw [if_pos hlong, if_pos hlong]
    rw [if_neg hlong, if_neg hlong]
    have hentry : fs.node? (n :: (inner ++ loc)) = fs'.node? (n :: (inner ++ loc')) := h (n :: inner)
    rw [← hentry]
    cases hnode : fs.node? (n :: (inner ++ loc)) with
    | none => by_cases hend : rest = [] <;> simp [hend, statOf]
    | some node =>
      rcases hfs.kinds _ _ hnode with rfl | ⟨content, rfl⟩
      · exact ih (n :: inner) hnode hstays
      · by_cases hend : rest = [] ∧ slashEnded = false <;> simp [hend, statOf]

/-- From a directory with nothing in it no name that is looked up leads anywhere. -/
theorem Plain.statOf_ne_ok_of_empty (hfs : fs.Plain)
    (hloc : fs.node? loc = some (.directory .full)) (hempty : ∀ n, fs.node? (n :: loc) = none)
    (hstarts : startsBelow names = true) (onLink : Route → Except Errno Reached) (slashEnded : Bool)
    (node : Node) :
    statOf (fs.followNames .follow onLink slashEnded loc names) ≠ .ok node := by
  induction names with
  | nil => cases hstarts
  | cons n rest ih =>
    rw [hfs.followNames_cons hloc]
    rw [startsBelow] at hstarts
    by_cases hdot : n = dot
    · rw [if_pos hdot] at hstarts ⊢
      exact ih hstarts
    · rw [if_neg hdot] at hstarts ⊢
      have hup : n ≠ dotDot := of_decide_eq_true hstarts
      rw [if_neg hup, hempty n]
      by_cases hlong : maxName < n.length
      · simp [hlong, statOf]
      · by_cases hend : rest = [] <;> simp [hlong, hend, statOf]

/-! ## Paths joined to one another -/

/-- A route without links is followed name by name. -/
theorem followRoute_eq_followNames (fs : FileSystem) (last : LastLink) (links : Nat)
    (route : Route) :
    ∃ onLink, fs.followRoute last links route =
      fs.followNames last onLink route.slashEnded route.start route.names := by
  cases links with
  | zero => exact ⟨_, by rw [followRoute]⟩
  | succ links => exact ⟨_, by rw [followRoute]⟩

/-- Names that lead somewhere in a plain tree are not too long. -/
theorem Plain.length_le_of_followNames (hfs : fs.Plain) {last : LastLink}
    {onLink : Route → Except Errno Reached} {slashEnded : Bool} {reached : Reached}
    (h : fs.followNames last onLink slashEnded loc names = .ok reached) :
    ∀ n ∈ names, n.length ≤ maxName := by
  induction names generalizing loc with
  | nil => exact List.forall_mem_nil _
  | cons n rest ih =>
    obtain ⟨-, -, hfirst⟩ := followNames_cons_eq_ok_iff.mp h
    cases hfirst with
    | stay hdot h => exact List.forall_mem_cons.mpr ⟨by rw [hdot]; decide, ih h⟩
    | up hup h => exact List.forall_mem_cons.mpr ⟨by rw [hup]; decide, ih h⟩
    | into hname _ h => exact List.forall_mem_cons.mpr ⟨hname.fits, ih h⟩
    | absent hname _ hend => exact List.forall_mem_cons.mpr ⟨hname.fits, by simp [hend]⟩
    | file hname _ hend _ => exact List.forall_mem_cons.mpr ⟨hname.fits, by simp [hend]⟩
    | keep hname _ hend => exact List.forall_mem_cons.mpr ⟨hname.fits, by simp [hend.1]⟩
    | through _ hlink _ _ =>
      have hkind := hfs.isLink_eq_false hlink
      cases hkind

/-- Nothing is found behind a path that leads to a file. -/
theorem Plain.stat_join_of_file (hfs : fs.Plain) {access : Access} {content : List UInt8}
    (hrelative : p.isAbsolute = false) (hne : p.isEmpty = false)
    (hdir : fs.locate .follow dir = .ok (loc, .file access content)) :
    fs.stat (dir.join p) =
      if (dir.join p).bytes.contains 0 then .error .nulInPath
      else if maxPath < (dir.join p).bytes.length then .error (.os .nameTooLong)
      else .error (.os .notDirectory) := by
  obtain ⟨-, -, -, hroute⟩ := lookup_eq_ok_iff.mp (locate_eq_ok_iff.mp hdir)
  obtain ⟨onLink, hfollow⟩ := followRoute_eq_followNames fs .follow maxLinks
    (Route.ofPath fs.here dir)
  rw [hfollow] at hroute
  have hjoined : Route.ofPath fs.here (dir.join p) = ⟨(Route.ofPath fs.here dir).start,
      (Route.ofPath fs.here dir).names ++ p.names, p.endsInSlash⟩ := by
    simp only [Route.ofPath, Path.join_isAbsolute dir hrelative, Path.join_names dir hrelative,
      Path.join_endsInSlash dir hrelative hne]
  obtain ⟨onLink', hfollow'⟩ := followRoute_eq_followNames fs .follow maxLinks
    (Route.ofPath fs.here (dir.join p))
  have hnames : p.names ≠ [] := Path.names_ne_nil hrelative hne
  have hrefused : fs.followRoute .follow maxLinks (Route.ofPath fs.here (dir.join p)) =
      .error .notDirectory := by
    rw [hfollow', hjoined]
    generalize (Route.ofPath fs.here dir).start = start at hroute ⊢
    generalize hfront : (Route.ofPath fs.here dir).names = front at hroute ⊢
    cases front with
    | nil =>
      obtain ⟨n, rest, hcons⟩ := List.exists_cons_of_ne_nil hnames
      obtain ⟨node, hnode, hfound⟩ := followNames_nil_eq_ok_iff.mp hroute
      obtain ⟨rfl, rfl⟩ := Reached.found.inj hfound
      rw [List.nil_append, hcons, followNames, hnode]
    | cons n rest =>
      obtain ⟨⟨access, hstart, -⟩, -, -⟩ := followNames_cons_eq_ok_iff.mp hroute
      exact hfs.followNames_through_file (hfs.directory_full hstart)
        (hfs.length_le_of_followNames hroute) hroute (.inl hnames) _
  rw [stat, locate, lookup, Path.join_ne_empty dir hrelative hne, if_neg Bool.false_ne_true, hrefused]
  by_cases hnul : (dir.join p).bytes.contains 0 = true
  · rw [if_pos hnul, if_pos hnul]
    rfl
  rw [if_neg hnul, if_neg hnul]
  by_cases hlong : maxPath < (dir.join p).bytes.length
  · rw [if_pos hlong, if_pos hlong]
    rfl
  · rw [if_neg hlong, if_neg hlong]
    rfl

/-- What is joined to a path leads to the same in plain trees that are the same at that path, if it
looks nothing up outside. -/
theorem SameAt.stat_join (h : SameAt fs fs' dir) (hfs : fs.Plain) (hfs' : fs'.Plain)
    (hrelative : p.isAbsolute = false) (hne : p.isEmpty = false)
    (hstays : staysWithin 0 p.names = true) : fs.stat (dir.join p) = fs'.stat (dir.join p) := by
  obtain ⟨loc, loc', node, hdir, hdir', hsame⟩ := h
  cases node with
  | link target =>
    have hkind := hfs.isLink_eq_false (lookup_isPlace (locate_eq_ok_iff.mp hdir))
    cases hkind
  | file access content =>
    rw [hfs.stat_join_of_file hrelative hne hdir, hfs'.stat_join_of_file hrelative hne hdir']
  | directory access =>
    obtain ⟨onLink, hstat⟩ := stat_join_of_directory hrelative hne hdir
    obtain ⟨onLink', hstat'⟩ := stat_join_of_directory hrelative hne hdir'
    have hfollow := hsame.statOf_followNames hfs hfs' onLink onLink' p.endsInSlash []
      (hfs.node_of_locate hdir) hstays
    rw [hstat, hstat', List.nil_append, List.nil_append] at *
    rw [hfollow]

end SyncAudit.FileSystem
