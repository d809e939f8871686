import SyncAudit.FileSystem.Fixture
import SyncAudit.Proofs.FileSystem.Following
import SyncAudit.Proofs.FileSystem.Putting

/-!
# Described file systems

What is put into a file system through a path stands under a name that entries can have, because a
path has no other names to give. So every file system that is given by the things in it has proper
names.
-/
namespace SyncAudit

/-- Whether a thing is a directory or a file. -/
def Fixture.isPlain : Fixture → Bool
  | .directory _ | .file _ _ => true
  | _ => false

namespace FileSystem

variable {fs fs' : FileSystem} {p : Path}

/-- A place that a path leads to is a node, or an entry yet to be made in a directory. -/
def IsPlace (fs : FileSystem) : Reached → Prop
  | .found loc node => fs.node? loc = some node
  | .missing dir n =>
    EntryName n ∧ fs.node? (n :: dir) = none ∧ ∃ node, fs.node? dir = some node

/-- Names of a path or of a link's target. -/
def PathNames (names : List Name) : Prop :=
  ∀ n ∈ names, n ≠ dot → n ≠ dotDot → EntryName n

theorem pathNames_names (p : Path) : PathNames p.names :=
  fun _ => Path.entryName_of_mem_names

theorem PathNames.through {base : Location} {target : Path} {rest : List Name} {slashEnded : Bool}
    (h : PathNames rest) : PathNames (Route.through base target rest slashEnded).names := by
  intro n hn
  rcases List.mem_append.mp hn with hn | hn
  · exact pathNames_names target n hn
  · exact h n hn

theorem followNames_isPlace {last : LastLink} {onLink : Route → Except Errno Reached}
    (hon : ∀ route reached, PathNames route.names → onLink route = .ok reached → fs.IsPlace reached)
    {slashEnded : Bool} {names : List Name} (hnames : PathNames names) {start : Location}
    {reached : Reached} (h : fs.followNames last onLink slashEnded start names = .ok reached) :
    fs.IsPlace reached := by
  induction names generalizing start with
  | nil =>
    obtain ⟨node, hnode, rfl⟩ := followNames_nil_eq_ok_iff.mp h
    exact hnode
  | cons n rest ih =>
    have hrest : PathNames rest := fun m hm => hnames m (List.mem_cons_of_mem _ hm)
    obtain ⟨⟨access, hdir, -⟩, -, hfirst⟩ := followNames_cons_eq_ok_iff.mp h
    cases hfirst with
    | stay _ h => exact ih hrest h
    | up _ h => exact ih hrest h
    | into _ _ h => exact ih hrest h
    | absent hname hnone _ =>
      exact ⟨hnames n List.mem_cons_self hname.notDot hname.notDotDot, hnone, _, hdir⟩
    | file _ hentry _ _ => exact hentry
    | keep _ hentry _ => exact hentry
    | through _ _ _ h => exact hon _ _ hrest.through h

theorem followRoute_isPlace {last : LastLink} {links : Nat} {route : Route} {reached : Reached}
    (hroute : PathNames route.names) (h : fs.followRoute last links route = .ok reached) :
    fs.IsPlace reached := by
  induction links generalizing route reached with
  | zero => exact followNames_isPlace (fun _ _ _ h => by simp at h) hroute h
  | succ links ih => exact followNames_isPlace (fun _ _ hr h => ih hr h) hroute h

theorem lookup_isPlace {last : LastLink} {reached : Reached} (h : fs.lookup last p = .ok reached) :
    fs.IsPlace reached :=
  followRoute_isPlace (pathNames_names p : PathNames (Route.ofPath fs.here p).names)
    (lookup_eq_ok_iff.mp h).2.2.2

theorem ProperNames.put (hfs : fs.ProperNames) {loc : Location} (hloc : ∀ n ∈ loc, EntryName n)
    (node : Node) : (fs.put loc node).ProperNames := by
  intro l new hnew n hn
  rw [node_eq_some_iff] at hnew
  unfold FileSystem.put at hnew
  split at hnew
  · obtain ⟨row, hrow, heq⟩ := List.mem_map.mp hnew
    split at heq
    · obtain rfl : loc = l := congrArg Prod.fst heq
      exact hloc n hn
    · exact hfs l new (node_eq_some_iff.mpr (heq ▸ hrow)) n hn
  · rcases List.mem_append.mp hnew with hold | hadded
    · exact hfs l new (node_eq_some_iff.mpr hold) n hn
    · obtain rfl : l = loc := congrArg Prod.fst (List.mem_singleton.mp hadded)
      exact hloc n hn

theorem ProperNames.putAt (hfs : fs.ProperNames) {loc : Location} {old : Node}
    (h : fs.node? loc = some old) (node : Node) : (fs.put loc node).ProperNames :=
  hfs.put (hfs loc old h) node

/-- A new entry may be put where a path found it missing. -/
theorem ProperNames.putMissing (hfs : fs.ProperNames) {last : LastLink} {dir : Location} {n : Name}
    (h : fs.lookup last p = .ok (.missing dir n)) (node : Node) :
    (fs.put (n :: dir) node).ProperNames := by
  obtain ⟨hn, -, old, hdir⟩ := lookup_isPlace h
  refine hfs.put (fun m hm => ?_) node
  rcases List.mem_cons.mp hm with rfl | hm
  · exact hn
  · exact hfs dir old hdir m hm

theorem ProperNames.write {content : List UInt8} (hfs : fs.ProperNames)
    (h : fs.write p content = .ok fs') : fs'.ProperNames := by
  rcases write_eq_ok_iff.mp h with ⟨hl, -⟩ | ⟨hl, -, -⟩
  · exact hfs.putAt (lookup_isPlace hl) _
  · exact hfs.putMissing hl _

theorem ProperNames.makeDirectory (hfs : fs.ProperNames) (h : fs.makeDirectory p = .ok fs') :
    fs'.ProperNames := by
  obtain ⟨hl, -, -⟩ := makeDirectory_eq_ok_iff.mp h
  exact hfs.putMissing hl _

section Preserved

/-! What making one directory preserves is preserved by making all those above it as well, and what
writing preserves besides, by the directories and files of a description. -/

variable {P : FileSystem → Prop}

/-- It is enough to look at the paths that stand above the given one. -/
theorem makeDirectoriesWithin_preserves_along {Q : Path → Prop}
    (hparent : ∀ {p parent : Path}, Q p → p.parent? = some parent → Q parent)
    (hmake : ∀ {fs fs' : FileSystem} {p : Path}, Q p → P fs → fs.makeDirectory p = .ok fs' → P fs')
    (hfs : P fs) (fuel : Nat) (hp : Q p) : P (fs.makeDirectoriesWithin fuel p).1 := by
  induction fuel generalizing fs p with
  | zero => exact hfs
  | succ fuel ih =>
    unfold FileSystem.makeDirectoriesWithin
    split
    · exact hfs
    split
    case h_1 hmade => exact hmake hp hfs hmade
    case h_3 => exact hfs
    case h_2 =>
      split
      · exact hfs
      case h_2 parent habove =>
        have hparents := ih hfs (hparent hp habove)
        split
        case h_1 hmade => rwa [hmade] at hparents
        case h_2 hmade =>
          rw [hmade] at hparents
          split
          case h_1 hlast => exact hmake hp hparents hlast
          case h_2 => exact hparents

variable (hmake : ∀ {fs fs' : FileSystem} {p : Path}, P fs → fs.makeDirectory p = .ok fs' → P fs')
include hmake

theorem makeDirectories_preserves (hfs : P fs) (p : Path) : P (fs.makeDirectories p).1 :=
  makeDirectoriesWithin_preserves_along (fun _ _ => trivial) (fun _ => hmake) hfs _
    (trivial : (fun _ => True) p)

theorem withParents_preserves (hfs : P fs) (p : Path) : P (fs.withParents p) := by
  unfold withParents
  split
  · exact makeDirectories_preserves hmake hfs _
  · exact hfs

theorem add_preserves
    (hwrite : ∀ {fs fs' : FileSystem} {p : Path} {content : List UInt8},
      P fs → fs.write p content = .ok fs' → P fs')
    (hfs : P fs) {thing : Fixture} (hthing : thing.isPlain = true) : P (fs.add thing) := by
  cases thing with
  | directory p => exact makeDirectories_preserves hmake hfs p
  | file p content =>
    have hparents := withParents_preserves hmake hfs p
    simp only [FileSystem.add]
    split
    case h_1 h => exact hwrite hparents h
    case h_2 => exact hparents
  | link p target => cases hthing
  | permissions p bits => cases hthing

end Preserved

theorem ProperNames.add (hfs : fs.ProperNames) (thing : Fixture) : (fs.add thing).ProperNames := by
  cases thing with
  | directory p => exact add_preserves ProperNames.makeDirectory ProperNames.write hfs rfl
  | file p content => exact add_preserves ProperNames.makeDirectory ProperNames.write hfs rfl
  | permissions p bits => exact hfs
  | link p target =>
    have hparents := withParents_preserves ProperNames.makeDirectory hfs p
    simp only [FileSystem.add]
    split
    case h_1 h => exact hparents.putMissing h _
    case h_2 => exact hparents

theorem ProperNames.mapNodes (hfs : fs.ProperNames) (f : Location → Node → Node) :
    (fs.mapNodes f).ProperNames := by
  intro loc node hnode n hn
  rw [node_eq_some_iff] at hnode
  obtain ⟨⟨loc', old⟩, hrow, heq⟩ := List.mem_map.mp hnode
  obtain rfl : loc' = loc := congrArg Prod.fst heq
  exact hfs loc' old (node_eq_some_iff.mpr hrow) n hn

theorem mem_of_mem_ancestry {loc here : Location} (h : loc ∈ ancestry here) {n : Name}
    (hn : n ∈ loc) : n ∈ here := by
  induction here with
  | nil =>
    rw [ancestry, List.mem_singleton] at h
    simp [h] at hn
  | cons m parent ih =>
    rcases List.mem_append.mp h with h | h
    · exact List.mem_cons_of_mem m (ih h)
    · exact List.mem_singleton.mp h ▸ hn

theorem properNames_empty {here : Location} (hhere : ∀ n ∈ here, EntryName n) :
    (empty here).ProperNames := by
  have hstart : ProperNames ⟨[], here, by simp⟩ := by
    intro loc node hnode
    simp [node?] at hnode
  refine List.foldlRecOn (motive := ProperNames) _ _ hstart ?_
  intro fs hfs loc hloc
  exact hfs.put (fun n hn => hhere n (mem_of_mem_ancestry hloc hn)) _

/-- What adding a thing and giving permissions preserve holds of every file system that is given by
the things in it. -/
theorem ofFixtures_preserves {P : FileSystem → Prop} {here : Location} (hempty : P (empty here))
    (hadd : ∀ {fs : FileSystem}, P fs → ∀ thing, P (fs.add thing))
    (hrestrict : ∀ {fs : FileSystem}, P fs → ∀ given, P (fs.restrict given))
    (things : List Fixture) : P (ofFixtures here things) := by
  have hthings : P (things.foldl FileSystem.add (empty here)) :=
    List.foldlRecOn (motive := P) _ _ hempty fun _ hfs thing _ => hadd hfs thing
  exact List.foldlRecOn (motive := P) _ _ hthings fun _ hfs given _ => hrestrict hfs given

theorem ProperNames.restrict (hfs : fs.ProperNames) (given : Location × Nat) :
    (fs.restrict given).ProperNames := by
  rw [FileSystem.restrict]
  split
  case h_1 hnode => exact hfs.putAt hnode _
  case h_2 => exact hfs

/-- Every file system that is given by the things in it has proper names. -/
theorem properNames_ofFixtures {here : Location} (hhere : ∀ n ∈ here, EntryName n)
    (things : List Fixture) : (ofFixtures here things).ProperNames :=
  ofFixtures_preserves (properNames_empty hhere) ProperNames.add ProperNames.restrict things

end FileSystem
end SyncAudit
