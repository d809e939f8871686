import SyncAudit.Settings.Conversion

/-!
# Settings that are given

A layer gives values for some of the settings and says nothing of the others. Here is what it
means for a tree of any format to give values: each section is a table or is not there, and holds
for each of its settings the given value or nothing. Whatever else is in the tree does not matter,
so a tree that gives values is read as exactly those settings, with defaults for the rest.
-/
namespace SyncAudit.Settings

/-- The settings that are truth values. -/
inductive Flag where
  | skipBlankLines
  | skipHidden
  | followLinks
  | listStale
  | prettyJson
  deriving DecidableEq, Repr

inductive Setting where
  | marker
  | flag (f : Flag)
  deriving DecidableEq, Repr

namespace Setting

/-- The section that a setting stands in. -/
def part : Setting → String
  | .marker | .flag .skipBlankLines | .flag .skipHidden | .flag .followLinks => "audit"
  | .flag .listStale | .flag .prettyJson => "report"

def name : Setting → String
  | .marker => "config_marker"
  | .flag .skipBlankLines => "skip_blank_lines"
  | .flag .skipHidden => "skip_hidden"
  | .flag .followLinks => "follow_links"
  | .flag .listStale => "list_stale"
  | .flag .prettyJson => "pretty_json"

end Setting

/-- Values of their own type for some of the settings. -/
structure Given where
  marker : Option String
  flag : Flag → Option Bool

namespace Given

def scalar? (given : Given) : Setting → Option Scalar
  | .marker => given.marker.map .text
  | .flag f => (given.flag f).map .bool

/-- The settings with the given values, and with defaults where none is given. -/
def settings (given : Given) : Settings :=
  let d := Settings.default
  ⟨⟨(given.marker.map Path.ofString).getD d.audit.configMarker,
      (given.flag .skipBlankLines).getD d.audit.skipBlankLines,
      (given.flag .skipHidden).getD d.audit.skipHidden,
      (given.flag .followLinks).getD d.audit.followLinks⟩,
    ⟨(given.flag .listStale).getD d.report.listStale,
      (given.flag .prettyJson).getD d.report.prettyJson⟩⟩

end Given

/-! ## Trees that give values -/

/-- How the trees of a format are taken: the members of a table by their names, and the texts and
truth values. -/
structure Reading (ν : Type) where
  table? : ν → Option (String → Option ν)
  scalar? : ν → Option Scalar

namespace Reading

variable {ν ν' : Type} {r : Reading ν} {r' : Reading ν'}

/-- The members of the table under a name. A table that is not there has none. -/
def part? (r : Reading ν) (root : ν) (name : String) : Option (String → Option ν) :=
  match r.table? root with
  | none => none
  | some members =>
    match members name with
    | none => some fun _ => none
    | some v => r.table? v

/-- Each section is a table, if it is there, and has the values of its settings. -/
def Gives (r : Reading ν) (root : ν) (values : Setting → Option Scalar) : Prop :=
  ∀ s : Setting, ∃ members, r.part? root s.part = some members ∧
    (members s.name).map r.scalar? = (values s).map some

/-- A tree with tables and scalars like those of another one gives the same values. -/
theorem Gives.transfer {R : ν → ν' → Prop}
    (htable : ∀ {v v' members}, R v v' → r.table? v = some members →
      ∃ members', r'.table? v' = some members' ∧
        ∀ name, Option.Rel R (members name) (members' name))
    (hscalar : ∀ {v v' x}, R v v' → r.scalar? v = some x → r'.scalar? v' = some x)
    {root : ν} {root' : ν'} {values : Setting → Option Scalar} (hroot : R root root')
    (h : r.Gives root values) : r'.Gives root' values := by
  intro s
  obtain ⟨members, hpart, hvalue⟩ := h s
  -- the section of the other tree, with members that are related one by one
  obtain ⟨members', hpart', hrel⟩ : ∃ members', r'.part? root' s.part = some members' ∧
      ∀ name, Option.Rel R (members name) (members' name) := by
    unfold part? at hpart
    split at hpart
    case h_1 => cases hpart
    case h_2 top htop =>
      obtain ⟨top', htop', hrel⟩ := htable hroot htop
      have hsection := hrel s.part
      rw [part?, htop']
      dsimp only
      split at hpart
      case h_1 hnone =>
        rw [hnone] at hsection
        generalize top' s.part = section' at hsection
        cases hsection
        obtain rfl := Option.some.inj hpart
        exact ⟨_, rfl, fun _ => .none⟩
      case h_2 v hv =>
        rw [hv] at hsection
        generalize top' s.part = section' at hsection
        cases hsection with
        | some hvv => exact htable hvv hpart
  refine ⟨members', hpart', ?_⟩
  have hname := hrel s.name
  generalize members s.name = entry at hname hvalue
  generalize members' s.name = entry' at hname ⊢
  rw [← hvalue]
  cases hname with
  | none => rfl
  | some hvv =>
    obtain ⟨x, -, hx⟩ := Option.map_eq_some_iff.mp hvalue.symm
    exact congrArg some ((hscalar hvv hx.symm).trans hx)

end Reading

/-! ## Values as trees -/

namespace Value

def table? : Value → Option (String → Option Value)
  | .table _ members => some fun name => members.lookup name
  | _ => none

def scalar? : Value → Option Scalar
  | .scalar _ s => some s
  | _ => none

def reading : Reading Value :=
  ⟨table?, scalar?⟩

theorem eq_scalar_of_scalar? {v : Value} {x : Scalar} (h : v.scalar? = some x) :
    v = .scalar v.origin x := by
  cases v with
  | scalar origin s => exact congrArg (Value.scalar origin) (Option.some.inj h)
  | array origin items => cases h
  | table origin members => cases h

/-- What stands under the name of a section is a table or is not there. -/
theorem part?_eq_some_iff {origin : Origin} {members : Members} {part : String}
    {look : String → Option Value} :
    reading.part? (.table origin members) part = some look ↔
      (members.lookup part = none ∧ look = fun _ => none) ∨
        ∃ o inner, members.lookup part = some (.table o inner) ∧
          look = fun name => inner.lookup name := by
  unfold Reading.part?
  dsimp only [reading, table?]
  cases members.lookup part with
  | none => simp [eq_comm]
  | some v =>
    cases v with
    | scalar o x => simp
    | array o items => simp
    | table o inner =>
      constructor
      · intro h
        exact .inr ⟨o, inner, rfl, (Option.some.inj h).symm⟩
      · rintro (⟨h, -⟩ | ⟨_, _, h, rfl⟩)
        · cases h
        · obtain ⟨-, rfl⟩ := Value.table.inj (Option.some.inj h)
          rfl

end Value

/-! ## Reading the settings -/

section

variable {inner : Value.Members}

end

end SyncAudit.Settings
