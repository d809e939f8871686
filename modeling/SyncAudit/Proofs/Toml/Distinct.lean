import SyncAudit.Proofs.Table
import SyncAudit.Toml.Reader

/-!
# No key is given twice

Whatever a document says, no table in it, at any depth, has two members of one name. Members are
only ever put in place of what has their name, so a change at the end of a path leaves the tables
on its way without repetition, and so does one statement after the other.
-/
namespace SyncAudit.Toml

mutual

inductive Node.Distinct : Node → Prop
  | scalar (s : Scalar) : (Node.scalar s).Distinct
  | array {items : List Node} (h : ∀ node ∈ items, node.Distinct) : (Node.array items).Distinct
  | tables {items : List Members} (h : ∀ members ∈ items, Members.Distinct members) :
    (Node.tables items).Distinct
  | table {kind : TableKind} {members : Members} (h : Members.Distinct members) :
    (Node.table kind members).Distinct

/-- No name stands twice in the members or in any table within them. -/
inductive Members.Distinct : Members → Prop
  | intro {members : Members} (names : (members.map Prod.fst).Nodup)
    (nodes : ∀ row ∈ members, row.2.Distinct) : Members.Distinct members

end

namespace Members

variable {members : Members} {name : String} {node : Node}

theorem Distinct.names (h : members.Distinct) : (members.map Prod.fst).Nodup :=
  match h with
  | .intro names _ => names

theorem Distinct.nodes (h : members.Distinct) : ∀ row ∈ members, row.2.Distinct :=
  match h with
  | .intro _ nodes => nodes

theorem Distinct.nil : Members.Distinct [] :=
  .intro List.nodup_nil (by simp)

theorem Distinct.of_lookup (h : members.Distinct) (hnode : members.lookup name = some node) :
    node.Distinct :=
  h.nodes _ (Table.mem_of_lookup hnode)

theorem put_eq (members : Members) (name : String) (node : Node) :
    members.put name node = Table.put name node members := by
  induction members with
  | nil => rfl
  | cons row rest ih => rw [Members.put, Table.put, ih]

theorem Distinct.put (h : members.Distinct) (hnode : node.Distinct) :
    (members.put name node).Distinct := by
  rw [put_eq]
  refine .intro (Table.nodup_put h.names) fun row hrow => ?_
  rcases Table.mem_of_mem_put hrow with rfl | hmem
  · exact hnode
  · exact h.nodes row hmem

end Members

/-! ## Changes -/

/-- What a change leaves has no repetitions if there were none before. -/
def Change.Keeps (change : Change) : Prop :=
  ∀ kind members members', change kind members = some members' → Members.Distinct members →
    Members.Distinct members'

theorem changeLast_distinct {change : Members → Option Members}
    (hchange : ∀ members members', change members = some members' → Members.Distinct members →
      Members.Distinct members')
    {items items' : List Members} (h : changeLast change items = some items')
    (hitems : ∀ members ∈ items, Members.Distinct members) :
    ∀ members ∈ items', Members.Distinct members := by
  induction items generalizing items' with
  | nil => cases h
  | cons first rest ih =>
    obtain ⟨hfirst, hrest⟩ := List.forall_mem_cons.mp hitems
    cases rest with
    | nil =>
      obtain ⟨first', hfirst', rfl⟩ := Option.map_eq_some_iff.mp h
      simpa using hchange first first' hfirst' hfirst
    | cons second rest =>
      obtain ⟨rest', hrest', rfl⟩ := Option.map_eq_some_iff.mp h
      exact List.forall_mem_cons.mpr ⟨hfirst, ih hrest' hrest⟩

theorem Change.Keeps.changeAt {change : Change} (hchange : change.Keeps) (byDots : Bool)
    (path : List String) : Change.Keeps (Toml.changeAt byDots change path) := by
  induction path with
  | nil => exact hchange
  | cons name path ih =>
    intro kind members members' h hmembers
    rw [Toml.changeAt] at h
    split at h
    case h_1 =>
      obtain ⟨inner, hinner, hput⟩ := Option.bind_eq_some_iff.mp h
      obtain rfl := Option.some.inj hput
      exact hmembers.put (.table (ih _ _ _ hinner .nil))
    case h_2 kind' inner hlookup =>
      dsimp only at h
      split at h
      case isTrue => cases h
      case isFalse =>
        obtain ⟨inner', hinner, hput⟩ := Option.bind_eq_some_iff.mp h
        obtain rfl := Option.some.inj hput
        cases hmembers.of_lookup hlookup with
        | table hdistinct => exact hmembers.put (.table (ih _ _ _ hinner hdistinct))
    case h_3 items hlookup =>
      obtain ⟨items', hitems, hput⟩ := Option.bind_eq_some_iff.mp h
      obtain rfl := Option.some.inj hput
      cases hmembers.of_lookup hlookup with
      | tables hdistinct =>
        exact hmembers.put (.tables (changeLast_distinct (ih .declared) hitems hdistinct))
    case h_4 => cases h

theorem addMember_keeps (key : Key) {node : Node} (hnode : node.Distinct) :
    Change.Keeps (addMember key node) := by
  intro kind members members' h hmembers
  rw [addMember] at h
  split at h
  case isTrue => cases h
  case isFalse =>
    split at h
    case isTrue => cases h
    case isFalse =>
      obtain rfl := Option.some.inj h
      exact hmembers.put hnode

theorem addValue_keeps (key : Key) {node : Node} (hnode : node.Distinct) :
    Change.Keeps (addValue key node) :=
  (addMember_keeps key hnode).changeAt true key.path

theorem declare_keeps (name : String) : Change.Keeps (declare name) := by
  intro kind members members' h hmembers
  rw [declare] at h
  split at h
  case h_1 =>
    obtain rfl := Option.some.inj h
    exact hmembers.put (.table .nil)
  case h_2 inner hlookup =>
    obtain rfl := Option.some.inj h
    cases hmembers.of_lookup hlookup with
    | table hdistinct => exact hmembers.put (.table hdistinct)
  case h_3 => cases h

theorem declareItem_keeps (name : String) : Change.Keeps (declareItem name) := by
  intro kind members members' h hmembers
  rw [declareItem] at h
  split at h
  case h_1 =>
    obtain rfl := Option.some.inj h
    exact hmembers.put (.tables (by simpa using Members.Distinct.nil))
  case h_2 items hlookup =>
    obtain rfl := Option.some.inj h
    cases hmembers.of_lookup hlookup with
    | tables hdistinct =>
      refine hmembers.put (.tables fun item hitem => ?_)
      rcases List.mem_append.mp hitem with hold | hnew
      · exact hdistinct item hold
      · exact List.mem_singleton.mp hnew ▸ .nil
  case h_3 => cases h

/-- A run of steps keeps what each step keeps. -/
theorem foldlM_keeps {σ ι : Type} {P : σ → Prop} {step : σ → ι → Option σ} {items : List ι}
    (hstep : ∀ item ∈ items, ∀ s s', step s item = some s' → P s → P s') {s s' : σ}
    (h : items.foldlM step s = some s') (hs : P s) : P s' := by
  induction items generalizing s with
  | nil => exact Option.some.inj h ▸ hs
  | cons item rest ih =>
    obtain ⟨hitem, hrest⟩ := List.forall_mem_cons.mp hstep
    rw [List.foldlM_cons] at h
    obtain ⟨next, hnext, h⟩ := Option.bind_eq_some_iff.mp h
    exact ih hrest h (hitem s next hnext hs)

theorem inlineTable_distinct {values : List (Key × Node)} {node : Node}
    (h : inlineTable values = some node) (hvalues : ∀ value ∈ values, value.2.Distinct) :
    node.Distinct := by
  obtain ⟨members, hmembers, hnode⟩ := Option.bind_eq_some_iff.mp h
  obtain rfl := Option.some.inj hnode
  refine .table (foldlM_keeps (fun value hvalue s s' hstep hs => ?_) hmembers .nil)
  exact addValue_keeps value.1 (hvalues value hvalue) _ s s' hstep hs

/-! ## Documents -/

/-- The node of a statement names no key twice. -/
def Statement.Distinct : Statement → Prop
  | .value _ node => node.Distinct
  | .header _ | .itemHeader _ => True

theorem Draft.add_distinct {draft draft' : Draft} {statement : Statement}
    (h : draft.add statement = some draft') (hstatement : statement.Distinct)
    (hdraft : draft.members.Distinct) : draft'.members.Distinct := by
  cases statement with
  | header key =>
    obtain ⟨members, hmembers, hdraft'⟩ := Option.bind_eq_some_iff.mp h
    obtain rfl := Option.some.inj hdraft'
    exact (declare_keeps key.name).changeAt false key.path _ _ _ hmembers hdraft
  | itemHeader key =>
    obtain ⟨members, hmembers, hdraft'⟩ := Option.bind_eq_some_iff.mp h
    obtain rfl := Option.some.inj hdraft'
    exact (declareItem_keeps key.name).changeAt false key.path _ _ _ hmembers hdraft
  | value key node =>
    obtain ⟨members, hmembers, hdraft'⟩ := Option.bind_eq_some_iff.mp h
    obtain rfl := Option.some.inj hdraft'
    exact (addValue_keeps key hstatement).changeAt false draft.current _ _ _ hmembers hdraft

theorem ofStatements_distinct {statements : List Statement} {members : Members}
    (h : ofStatements statements = some members)
    (hstatements : ∀ statement ∈ statements, statement.Distinct) : members.Distinct := by
  obtain ⟨draft, hdraft, hmembers⟩ := Option.bind_eq_some_iff.mp h
  obtain rfl := Option.some.inj hmembers
  exact foldlM_keeps (P := fun draft : Draft => draft.members.Distinct)
    (fun statement hstatement _ _ hstep hs =>
      Draft.add_distinct hstep (hstatements statement hstatement) hs) hdraft .nil

/-! ## Reading -/

/-- What the readers of values, of items and of the values in braces yield with some fuel. -/
structure ReadersDistinct (fuel : Nat) : Prop where
  value : ∀ depth cs node rest, readValue fuel depth cs = some (node, rest) → node.Distinct
  items : ∀ depth cs items rest, readItems fuel depth cs = some (items, rest) →
    ∀ node ∈ items, node.Distinct
  values : ∀ depth cs values rest, readValues fuel depth cs = some (values, rest) →
    ∀ value ∈ values, value.2.Distinct

theorem readValue_distinct {fuel : Nat} (ih : ReadersDistinct fuel) {depth : Nat}
    {cs rest : List Char} {node : Node}
    (h : readValue (fuel + 1) depth cs = some (node, rest)) : node.Distinct := by
  have hscalar : ∀ {α : Type} (scalar : α → Scalar) (read : Option (α × List Char)),
      read.map (fun p => (Node.scalar (scalar p.1), p.2)) = some (node, rest) →
        node.Distinct := by
    intro α scalar read hread
    obtain ⟨p, -, hp⟩ := Option.map_eq_some_iff.mp hread
    obtain ⟨rfl, -⟩ := Prod.mk.inj hp
    exact .scalar _
  rw [readValue.eq_def] at h
  dsimp only at h
  split at h
  case h_1 => exact hscalar .string _ h
  case h_2 => exact hscalar .string _ h
  case h_3 => exact hscalar .string _ h
  case h_4 => exact hscalar .string _ h
  case h_5 =>
    split at h
    case isTrue => cases h
    case isFalse =>
      obtain ⟨p, hp, hnode⟩ := Option.map_eq_some_iff.mp h
      obtain ⟨rfl, -⟩ := Prod.mk.inj hnode
      exact .array (ih.items _ _ _ _ hp)
  case h_6 =>
    split at h
    case isTrue => cases h
    case isFalse =>
      obtain ⟨p, hp, h⟩ := Option.bind_eq_some_iff.mp h
      obtain ⟨node', hnode', h⟩ := Option.bind_eq_some_iff.mp h
      obtain ⟨rfl, -⟩ := Prod.mk.inj (Option.some.inj h)
      exact inlineTable_distinct hnode' (ih.values _ _ _ _ hp)
  case h_7 => exact hscalar id _ h

theorem readItems_distinct {fuel : Nat} (ih : ReadersDistinct fuel) {depth : Nat}
    {cs rest : List Char} {items : List Node}
    (h : readItems (fuel + 1) depth cs = some (items, rest)) :
    ∀ node ∈ items, node.Distinct := by
  rw [readItems] at h
  split at h
  case h_1 => cases h
  case h_2 =>
    obtain ⟨rfl, -⟩ := Prod.mk.inj (Option.some.inj h)
    simp
  case h_3 =>
    split at h
    case h_1 => cases h
    case h_2 first _ hfirst =>
      have hdistinct := ih.value _ _ _ _ hfirst
      split at h
      case h_1 =>
        obtain ⟨rfl, -⟩ := Prod.mk.inj (Option.some.inj h)
        simpa using hdistinct
      case h_2 =>
        obtain ⟨later, hlater, h⟩ := Option.map_eq_some_iff.mp h
        obtain ⟨rfl, -⟩ := Prod.mk.inj h
        exact List.forall_mem_cons.mpr ⟨hdistinct, ih.items _ _ _ _ hlater⟩
      case h_3 => cases h

theorem readValues_distinct {fuel : Nat} (ih : ReadersDistinct fuel) {depth : Nat}
    {cs rest : List Char} {values : List (Key × Node)}
    (h : readValues (fuel + 1) depth cs = some (values, rest)) :
    ∀ value ∈ values, value.2.Distinct := by
  rw [readValues] at h
  split at h
  case h_1 => cases h
  case h_2 =>
    obtain ⟨rfl, -⟩ := Prod.mk.inj (Option.some.inj h)
    simp
  case h_3 =>
    split at h
    case h_1 =>
      split at h
      case h_1 => cases h
      case h_2 first _ hfirst =>
        have hdistinct := ih.value _ _ _ _ hfirst
        split at h
        case h_1 =>
          obtain ⟨rfl, -⟩ := Prod.mk.inj (Option.some.inj h)
          simpa using hdistinct
        case h_2 =>
          obtain ⟨later, hlater, h⟩ := Option.map_eq_some_iff.mp h
          obtain ⟨rfl, -⟩ := Prod.mk.inj h
          exact List.forall_mem_cons.mpr ⟨hdistinct, ih.values _ _ _ _ hlater⟩
        case h_3 => cases h
    case h_2 => cases h

theorem readersDistinct (fuel : Nat) : ReadersDistinct fuel := by
  induction fuel with
  | zero =>
    constructor <;> intro depth cs result rest h
    · rw [readValue] at h
      cases h
    · rw [readItems] at h
      cases h
    · rw [readValues] at h
      cases h
  | succ fuel ih =>
    exact ⟨fun _ _ _ _ => readValue_distinct ih, fun _ _ _ _ => readItems_distinct ih,
      fun _ _ _ _ => readValues_distinct ih⟩

theorem readStatement_distinct {cs rest : List Char} {statement : Statement}
    (h : readStatement cs = some (statement, rest)) : statement.Distinct := by
  rw [readStatement.eq_def] at h
  split at h
  case h_1 =>
    split at h
    case h_1 =>
      obtain ⟨rfl, -⟩ := Prod.mk.inj (Option.some.inj h)
      trivial
    case h_2 => cases h
  case h_2 =>
    split at h
    case h_1 =>
      obtain ⟨rfl, -⟩ := Prod.mk.inj (Option.some.inj h)
      trivial
    case h_2 => cases h
  case h_3 =>
    split at h
    case h_1 =>
      obtain ⟨p, hp, h⟩ := Option.map_eq_some_iff.mp h
      obtain ⟨rfl, -⟩ := Prod.mk.inj h
      exact (readersDistinct _).value _ _ _ _ hp
    case h_2 => cases h

theorem readStatements_distinct {fuel : Nat} {cs : List Char} {statements : List Statement}
    (h : readStatements fuel cs = some statements) :
    ∀ statement ∈ statements, statement.Distinct := by
  induction fuel generalizing cs statements with
  | zero => cases h
  | succ fuel ih =>
    rw [readStatements] at h
    obtain ⟨idle, -, h⟩ := Option.bind_eq_some_iff.mp h
    split at h
    case h_1 =>
      obtain rfl := Option.some.inj h
      simp
    case h_2 =>
      obtain ⟨p, hp, h⟩ := Option.bind_eq_some_iff.mp h
      obtain ⟨rest, -, h⟩ := Option.bind_eq_some_iff.mp h
      obtain ⟨later, hlater, h⟩ := Option.bind_eq_some_iff.mp h
      obtain rfl := Option.some.inj h
      exact List.forall_mem_cons.mpr ⟨readStatement_distinct hp, ih hlater⟩

/-- A document that is read names no key twice. -/
theorem parse_distinct {text : String} {members : Members} (h : parse text = some members) :
    members.Distinct := by
  obtain ⟨statements, hstatements, h⟩ := Option.bind_eq_some_iff.mp h
  exact ofStatements_distinct h (readStatements_distinct hstatements)

end SyncAudit.Toml
