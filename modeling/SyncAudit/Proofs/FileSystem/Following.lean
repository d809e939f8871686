import SyncAudit.Proofs.FileSystem.Listing

/-!
# Following a name

Names are followed with success one at a time: the first of them stays in its directory, goes up,
goes into an entry or ends there, or it is a link through which the others are followed. Whatever
holds of the place that names lead to is shown by these cases.
-/
namespace SyncAudit.FileSystem

/-- A name that is looked up among the entries of a directory. -/
structure LookedUp (n : Name) : Prop where
  notDot : n ≠ dot
  notDotDot : n ≠ dotDot
  fits : n.length ≤ maxName

variable {fs : FileSystem} {last : LastLink} {onLink : Route → Except Errno Reached}
  {slashEnded : Bool} {start : Location} {n : Name} {rest : List Name} {reached : Reached}

/-- A link is the end of the way. -/
def KeepsLink (last : LastLink) (slashEnded : Bool) (rest : List Name) : Prop :=
  rest = [] ∧ (last = .keepToCreate ∨ last = .keep ∧ slashEnded = false)

/-- What the first of some names does where they are followed with success. -/
inductive FirstName (fs : FileSystem) (last : LastLink) (onLink : Route → Except Errno Reached)
    (slashEnded : Bool) (start : Location) (n : Name) (rest : List Name) : Reached → Prop
  | stay {reached : Reached} : n = dot →
      fs.followNames last onLink slashEnded start rest = .ok reached →
      FirstName fs last onLink slashEnded start n rest reached
  | up {reached : Reached} : n = dotDot →
      fs.followNames last onLink slashEnded start.tail rest = .ok reached →
      FirstName fs last onLink slashEnded start n rest reached
  | into {access : Access} {reached : Reached} : LookedUp n →
      fs.node? (n :: start) = some (.directory access) →
      fs.followNames last onLink slashEnded (n :: start) rest = .ok reached →
      FirstName fs last onLink slashEnded start n rest reached
  | absent : LookedUp n → fs.node? (n :: start) = none → rest = [] →
      FirstName fs last onLink slashEnded start n rest (.missing start n)
  | file {access : Access} {content : List UInt8} : LookedUp n →
      fs.node? (n :: start) = some (.file access content) →
      rest = [] → last = .keepToCreate ∨ slashEnded = false →
      FirstName fs last onLink slashEnded start n rest
        (.found (n :: start) (.file access content))
  | keep {target : Path} : LookedUp n → fs.node? (n :: start) = some (.link target) →
      KeepsLink last slashEnded rest →
      FirstName fs last onLink slashEnded start n rest (.found (n :: start) (.link target))
  | through {target : Path} {reached : Reached} : LookedUp n →
      fs.node? (n :: start) = some (.link target) → ¬ KeepsLink last slashEnded rest →
      onLink (Route.through start target rest slashEnded) = .ok reached →
      FirstName fs last onLink slashEnded start n rest reached

theorem followNames_nil_eq_ok_iff : fs.followNames last onLink slashEnded start [] = .ok reached ↔
    ∃ node, fs.node? start = some node ∧ reached = .found start node := by
  rw [followNames]
  cases fs.node? start with
  | none => simp
  | some node => simp [eq_comm]

/-- Names are followed with success from a directory that may be searched, if the first of them is;
and no file is created behind a slash. -/
theorem followNames_cons_eq_ok_iff :
    fs.followNames last onLink slashEnded start (n :: rest) = .ok reached ↔
      (∃ access, fs.node? start = some (.directory access) ∧ access.search = true) ∧
        ¬ (rest = [] ∧ slashEnded = true ∧ last = .followToCreate) ∧
        FirstName fs last onLink slashEnded start n rest reached := by
  have hkeeps : (rest.isEmpty && (decide (last = .keepToCreate) ||
      (decide (last = .keep) && !slashEnded))) = true ↔ KeepsLink last slashEnded rest := by
    simp [KeepsLink]
  constructor
  · intro h
    rw [followNames] at h
    cases hnode : fs.node? start with
    | none => simp [hnode] at h
    | some node =>
      cases node with
      | file _ _ => simp [hnode] at h
      | link _ => simp [hnode] at h
      | directory access =>
        simp only [hnode] at h
        split at h
        · simp at h
        split at h
        · simp at h
        case isFalse hsearch hslash =>
        refine ⟨⟨access, rfl, by simpa using hsearch⟩, by simpa using hslash, ?_⟩
        split at h
        case isTrue hdot => exact .stay hdot h
        case isFalse hdot =>
        split at h
        case isTrue hup => exact .up hup h
        case isFalse hup =>
        split at h
        · simp at h
        case isFalse hlong =>
        have hname : LookedUp n := ⟨hdot, hup, Nat.not_lt.mp hlong⟩
        cases hentry : fs.node? (n :: start) with
        | none =>
          simp only [hentry] at h
          split at h
          case isTrue hend => exact Except.ok.inj h ▸ .absent hname hentry (by simpa using hend)
          case isFalse => simp at h
        | some entry =>
          cases entry with
          | directory _ => exact .into hname hentry (by simpa only [hentry] using h)
          | file _ _ =>
            simp only [hentry] at h
            split at h
            case isTrue hend =>
              have hend : rest = [] ∧ (last = .keepToCreate ∨ slashEnded = false) := by
                simpa using hend
              exact Except.ok.inj h ▸ .file hname hentry hend.1 hend.2
            case isFalse => simp at h
          | link _ =>
            simp only [hentry] at h
            split at h
            case isTrue hend => exact Except.ok.inj h ▸ .keep hname hentry (hkeeps.mp hend)
            case isFalse hend => exact .through hname hentry (mt hkeeps.mpr hend) h
  · rintro ⟨⟨access, hnode, hsearch⟩, hslash, hfirst⟩
    have hslash : ¬ (rest.isEmpty && slashEnded && decide (last = .followToCreate)) = true := by
      simpa using hslash
    have hne : dotDot ≠ dot := by decide
    cases hfirst with
    | stay hdot h => simpa [followNames, hnode, hsearch, hslash, hdot] using h
    | up hup h => simpa [followNames, hnode, hsearch, hslash, hup, hne] using h
    | into hname hentry h =>
      simpa [followNames, hnode, hsearch, hslash, hname.notDot, hname.notDotDot,
        Nat.not_lt.mpr hname.fits, hentry] using h
    | absent hname hentry hend =>
      simpa [followNames, hnode, hsearch, hname.notDot, hname.notDotDot,
        Nat.not_lt.mpr hname.fits, hentry, hend] using hslash
    | file hname hentry hend hopen =>
      have hlast : (rest.isEmpty && (decide (last = .keepToCreate) || !slashEnded)) = true := by
        simpa [hend] using hopen
      simp only [followNames, hnode, hsearch, Bool.not_true, Bool.false_eq_true, if_false, hslash,
        hname.notDot, hname.notDotDot, Nat.not_lt.mpr hname.fits, hentry, if_pos hlast]
    | keep hname hentry hend =>
      simp only [followNames, hnode, hsearch, Bool.not_true, Bool.false_eq_true, if_false, hslash,
        hname.notDot, hname.notDotDot, Nat.not_lt.mpr hname.fits, hentry, if_pos (hkeeps.mpr hend)]
    | through hname hentry hend h =>
      simpa only [followNames, hnode, hsearch, Bool.not_true, Bool.false_eq_true, if_false, hslash,
        hname.notDot, hname.notDotDot, Nat.not_lt.mpr hname.fits, hentry,
        if_neg (mt hkeeps.mp hend)] using h

end SyncAudit.FileSystem
