import SyncAudit.Proofs.FileSystem.Listing

/-!
# Looking entries up

A path that leads to a directory can be extended: what follows is looked up from that directory,
with the symbolic links that are left. The path of a directory entry is therefore either refused,
whatever is done with a link at its end, or it leads to the entry itself.
-/
namespace SyncAudit.FileSystem

variable {fs : FileSystem} {dirLoc : Location} {access : Access}

/-- Following names that lead to a directory, and more names behind them, either goes on from that
directory or leaves both to the same link. -/
theorem followNames_append {onLink : Route → Except Errno Reached} {slashEnded : Bool}
    {names : List Name} (last : LastLink) (onLink' : Route → Except Errno Reached)
    (slashEnded' : Bool) {more : List Name}
    (hmore : more ≠ []) {start : Location}
    (h : fs.followNames .follow onLink slashEnded start names =
      .ok (.found dirLoc (.directory access))) :
    fs.followNames last onLink' slashEnded' start (names ++ more) =
        fs.followNames last onLink' slashEnded' dirLoc more ∨
      ∃ route, onLink route = .ok (.found dirLoc (.directory access)) ∧
        fs.followNames last onLink' slashEnded' start (names ++ more) =
          onLink' ⟨route.start, route.names ++ more, slashEnded'⟩ := by
  induction names generalizing start with
  | nil =>
    left
    rw [followNames] at h
    cases hnode : fs.node? start with
    | none => simp [hnode] at h
    | some node =>
      rw [hnode] at h
      obtain ⟨rfl, rfl⟩ : start = dirLoc ∧ node = .directory access := by simpa using h
      rfl
  | cons n rest ih =>
    have hrest : (rest ++ more).isEmpty = false := by simp [hmore]
    rw [List.cons_append]
    rw [followNames] at h ⊢
    cases hnode : fs.node? start with
    | none => simp [hnode] at h
    | some node =>
      cases node with
      | file _ _ => simp [hnode] at h
      | link _ => simp [hnode] at h
      | directory a =>
        simp only [hnode, hrest, Bool.false_and, Bool.false_eq_true, if_false] at h ⊢
        -- The checks of the directory and of the name do not look at what follows.
        by_cases hsearch : a.search = true
        case neg => simp [hsearch] at h
        by_cases hdot : n = dot
        · simpa [hsearch, hdot] using ih (by simpa [hsearch, hdot] using h)
        by_cases hup : n = dotDot
        · have hne : dotDot ≠ dot := by decide
          simpa [hsearch, hup, hne] using ih (by simpa [hsearch, hup, hne] using h)
        by_cases hlong : maxName < n.length
        · simp [hsearch, hdot, hup, hlong] at h
        simp only [hsearch, hdot, hup, hlong, Bool.not_true, Bool.false_eq_true, if_false,
          reduceCtorEq, decide_false, Bool.and_false] at h ⊢
        cases hentry : fs.node? (n :: start) with
        | none => cases rest <;> simp [hentry] at h
        | some entry =>
          cases entry with
          | file _ _ =>
            cases rest <;> cases slashEnded <;> simp [hentry] at h
          | link target =>
            right
            refine ⟨Route.through start target rest slashEnded, by simpa [hentry] using h, ?_⟩
            simp [Route.through, hrest]
          | directory b => simpa [hentry] using ih (by simpa [hentry] using h)

/-- What a path that leads to a directory is extended by is looked up from there. -/
theorem followRoute_append {links : Nat} (last : LastLink) (slashEnded : Bool)
    {more : List Name} (hmore : more ≠ []) {route : Route}
    (h : fs.followRoute .follow links route = .ok (.found dirLoc (.directory access))) :
    ∃ left, fs.followRoute last links ⟨route.start, route.names ++ more, slashEnded⟩ =
      fs.followRoute last left ⟨dirLoc, more, slashEnded⟩ := by
  induction links generalizing route with
  | zero =>
    rw [followRoute] at h
    rcases followNames_append last (fun _ => .error .tooManyLinks) slashEnded hmore h
      with heq | ⟨_, hlink, _⟩
    · exact ⟨0, by rw [followRoute, followRoute]; exact heq⟩
    · simp at hlink
  | succ links ih =>
    rw [followRoute] at h
    rcases followNames_append last (fs.followRoute last links) slashEnded hmore h
      with heq | ⟨next, hlink, heq⟩
    · exact ⟨links + 1, by rw [followRoute, followRoute]; exact heq⟩
    · obtain ⟨left, hleft⟩ := ih hlink
      exact ⟨left, by rw [followRoute]; exact heq.trans hleft⟩

/-- Keeping a link at the end instead of following it changes nothing unless a link is found. -/
theorem followNames_keep {onLink onLink' : Route → Except Errno Reached}
    (hon : ∀ route, onLink route = onLink' route ∨
      ∃ loc target, onLink route = .ok (.found loc (.link target)))
    (slashEnded : Bool) (names : List Name) (start : Location) :
    fs.followNames .keep onLink slashEnded start names =
        fs.followNames .follow onLink' slashEnded start names ∨
      ∃ loc target, fs.followNames .keep onLink slashEnded start names =
        .ok (.found loc (.link target)) := by
  induction names generalizing start with
  | nil => exact .inl (by rw [followNames, followNames])
  | cons n rest ih =>
    rw [followNames, followNames]
    cases hnode : fs.node? start with
    | none => exact .inl rfl
    | some node =>
      cases node with
      | file _ _ => exact .inl rfl
      | link _ => exact .inl rfl
      | directory a =>
        by_cases hsearch : a.search = true
        case neg => simp [hsearch]
        by_cases hdot : n = dot
        · simpa [hsearch, hdot] using ih start
        by_cases hup : n = dotDot
        · have hne : dotDot ≠ dot := by decide
          simpa [hsearch, hup, hne] using ih start.tail
        by_cases hlong : maxName < n.length
        · simp [hsearch, hdot, hup, hlong]
        cases hentry : fs.node? (n :: start) with
        | none => simp [hsearch, hdot, hup, hlong]
        | some entry =>
          cases entry with
          | file _ _ => simp [hsearch, hdot, hup, hlong]
          | directory _ => simpa [hsearch, hdot, hup, hlong, hentry] using ih (n :: start)
          | link target =>
            cases rest with
            | cons m rest => simpa [hsearch, hdot, hup, hlong, hentry] using hon _
            | nil =>
              cases slashEnded with
              | true => simpa [hsearch, hdot, hup, hlong, hentry] using hon _
              | false => simp [hsearch, hdot, hup, hlong]

theorem followRoute_keep (fs : FileSystem) (links : Nat) (route : Route) :
    fs.followRoute .keep links route = fs.followRoute .follow links route ∨
      ∃ loc target, fs.followRoute .keep links route = .ok (.found loc (.link target)) := by
  induction links generalizing route with
  | zero =>
    rw [followRoute, followRoute]
    exact followNames_keep (fun _ => .inl rfl) _ _ _
  | succ links ih =>
    rw [followRoute, followRoute]
    exact followNames_keep ih _ _ _

theorem lookup_keep (fs : FileSystem) (p : Path) :
    fs.lookup .keep p = fs.lookup .follow p ∨
      ∃ loc target, fs.lookup .keep p = .ok (.found loc (.link target)) := by
  unfold lookup
  by_cases hnul : p.bytes.contains 0 = true
  · exact .inl (by rw [if_pos hnul, if_pos hnul])
  by_cases hempty : p.isEmpty = true
  · exact .inl (by rw [if_neg hnul, if_pos hempty, if_neg hnul, if_pos hempty])
  by_cases hlong : maxPath < p.bytes.length
  · exact .inl (by simp only [hnul, hempty, hlong, if_true, if_false, Bool.false_eq_true])
  simp only [if_neg hnul, if_neg hempty, if_neg hlong]
  rcases followRoute_keep fs maxLinks (Route.ofPath fs.here p) with h | ⟨loc, target, h⟩
  · exact .inl (by rw [h])
  · exact .inr ⟨loc, target, by rw [h]; rfl⟩

/-- A path is looked up in the same way with a link at its end kept or followed, unless it is such a
link. -/
theorem locate_keep (fs : FileSystem) (p : Path) :
    fs.locate .keep p = fs.locate .follow p ∨
      ∃ loc target, fs.locate .keep p = .ok (loc, .link target) := by
  unfold locate
  rcases lookup_keep fs p with h | ⟨loc, target, h⟩
  · exact .inl (by rw [h])
  · exact .inr ⟨loc, target, by rw [h]⟩

/-- What is joined to a path that leads to a directory is looked up from there. -/
theorem lookup_join {p q : Path} (hp : fs.locate .follow p = .ok (dirLoc, .directory access))
    (hq : q.isAbsolute = false) (hne : q.isEmpty = false)
    (hnul : (p.join q).bytes.contains 0 = false) (hlong : (p.join q).bytes.length ≤ maxPath)
    (last : LastLink) : ∃ onLink, fs.lookup last (p.join q) =
      (fs.followNames last onLink q.endsInSlash dirLoc q.names).mapError .os := by
  obtain ⟨-, -, -, hroute⟩ := lookup_eq_ok_iff.mp (locate_eq_ok_iff.mp hp)
  have hjoined : Route.ofPath fs.here (p.join q) = ⟨(Route.ofPath fs.here p).start,
      (Route.ofPath fs.here p).names ++ q.names, q.endsInSlash⟩ := by
    simp only [Route.ofPath, Path.join_isAbsolute p hq, Path.join_names p hq,
      Path.join_endsInSlash p hq hne]
  obtain ⟨left, hleft⟩ :=
    followRoute_append last q.endsInSlash (Path.names_ne_nil hq hne) hroute
  rw [lookup, hnul, Path.join_ne_empty p hq hne, if_neg Bool.false_ne_true,
    if_neg Bool.false_ne_true, if_neg (Nat.not_lt.mpr hlong), hjoined, hleft]
  cases left with
  | zero => exact ⟨_, by rw [followRoute]⟩
  | succ left => exact ⟨_, by rw [followRoute]⟩

/-- An entry is either refused by its directory or by its name, or it is there. -/
theorem followNames_entry {n : Name} {node : Node} (hn : EntryName n)
    (hnode : fs.node? (n :: dirLoc) = some node) :
    (∃ e, ∀ last onLink, fs.followNames last onLink false dirLoc [n] = .error e) ∨
      ∀ onLink, fs.followNames .keep onLink false dirLoc [n] = .ok (.found (n :: dirLoc) node) ∧
        (node.isLink = false →
          fs.followNames .follow onLink false dirLoc [n] = .ok (.found (n :: dirLoc) node)) := by
  cases hdir : fs.node? dirLoc with
  | none => exact .inl ⟨.noEntry, fun _ _ => by simp [followNames, hdir]⟩
  | some dir =>
    cases dir with
    | file _ _ => exact .inl ⟨.notDirectory, fun _ _ => by simp [followNames, hdir]⟩
    | link _ => exact .inl ⟨.notDirectory, fun _ _ => by simp [followNames, hdir]⟩
    | directory a =>
      by_cases hsearch : a.search = true
      case neg => exact .inl ⟨.accessDenied, fun _ _ => by simp [followNames, hdir, hsearch]⟩
      by_cases hlong : maxName < n.length
      case pos =>
        exact .inl ⟨.nameTooLong, fun _ _ => by
          simp [followNames, hdir, hsearch, hlong, hn.notDot, hn.notDotDot]⟩
      right
      intro onLink
      cases node <;>
        simp [followNames, hdir, hsearch, hlong, hn.notDot, hn.notDotDot, hnode, Node.isLink]

/-- The path of an entry of a directory that is reached is refused in the same way whatever is done
with a link at its end, or it leads to the entry. -/
theorem locate_child {dir : Path} {n : Name} {node : Node}
    (hdir : fs.locate .follow dir = .ok (dirLoc, .directory access)) (hn : EntryName n)
    (hnode : fs.node? (n :: dirLoc) = some node) :
    (∃ e, ∀ last, fs.locate last (dir.child n) = .error e) ∨
      fs.locate .keep (dir.child n) = .ok (n :: dirLoc, node) ∧
        (node.isLink = false → fs.locate .follow (dir.child n) = .ok (n :: dirLoc, node)) := by
  by_cases hnul : (dir.child n).bytes.contains 0 = true
  · exact .inl ⟨.nulInPath, fun last => by rw [locate, lookup, if_pos hnul]⟩
  by_cases hlong : maxPath < (dir.child n).bytes.length
  · exact .inl ⟨.os .nameTooLong, fun last => by
      rw [locate, lookup, if_neg hnul, Path.child_ne_empty dir hn, if_neg Bool.false_ne_true,
        if_pos hlong]⟩
  have hentry : ∀ last, ∃ onLink, fs.lookup last (dir.child n) =
      (fs.followNames last onLink false dirLoc [n]).mapError .os := by
    intro last
    obtain ⟨onLink, honLink⟩ := lookup_join hdir (Path.isAbsolute_name hn)
      (Path.isEmpty_name hn) (Bool.not_eq_true _ ▸ hnul) (Nat.not_lt.mp hlong) last
    rw [Path.names_name hn, Path.endsInSlash_name hn] at honLink
    exact ⟨onLink, honLink⟩
  rcases followNames_entry hn hnode with ⟨e, he⟩ | hfound
  · left
    refine ⟨.os e, fun last => ?_⟩
    obtain ⟨onLink, honLink⟩ := hentry last
    rw [locate, honLink, he]
    rfl
  · right
    obtain ⟨keeping, hkeep⟩ := hentry .keep
    obtain ⟨following, hfollow⟩ := hentry .follow
    constructor
    · rw [locate_eq_ok_iff, hkeep, (hfound keeping).1]
      rfl
    · intro hlink
      rw [locate_eq_ok_iff, hfollow, (hfound following).2 hlink]
      rfl

theorem isLink_eq_true_iff {p : Path} :
    fs.isLink p = true ↔ ∃ loc target, fs.locate .keep p = .ok (loc, .link target) := by
  unfold isLink linkStat
  cases h : fs.locate .keep p with
  | error e => simp [Except.map]
  | ok found =>
    obtain ⟨loc, node⟩ := found
    cases node <;> simp [Except.map, Node.isLink]

/-- The path of an entry that is no link is no link. -/
theorem isLink_child {dir : Path} {n : Name} {node : Node}
    (hdir : fs.locate .follow dir = .ok (dirLoc, .directory access)) (hn : EntryName n)
    (hnode : fs.node? (n :: dirLoc) = some node) (hlink : node.isLink = false) :
    fs.isLink (dir.child n) = false := by
  rw [← Bool.not_eq_true, isLink_eq_true_iff]
  rintro ⟨loc, target, hl⟩
  rcases locate_child hdir hn hnode with ⟨e, he⟩ | ⟨hkeep, _⟩
  · simp [he .keep] at hl
  · rw [hkeep] at hl
    simp only [Except.ok.injEq, Prod.mk.injEq] at hl
    simp [hl.2, Node.isLink] at hlink

end SyncAudit.FileSystem
