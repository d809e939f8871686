import SyncAudit.Proofs.Settings.Layers
import SyncAudit.Proofs.Toml.Distinct
import SyncAudit.Settings.File

/-!
# Documents that give settings

A file gives settings when it holds a document of its format whose sections have values for them.
What else the document holds is free, as long as the keys at its top are names. Numbers of TOML are
those that the format asks its readers to take; others make a file that is not read at all. Such a
document is always read, and as a layer that gives the same values: TOML names no key twice, and of
the members of a JSON object the last one with a name counts.
-/
namespace SyncAudit

open Settings (Reading Given Value)

namespace Toml

/-- Whole numbers within a signed word of 64 bits, and floating point numbers that are finite
unless they are meant not to be. -/
def Scalar.InRange : Scalar → Prop
  | .integer n => -0x8000000000000000 ≤ n ∧ n < 0x8000000000000000
  | .oversized => False
  | _ => True

/-- All numbers in a node are in range. -/
inductive Node.InRange : Node → Prop
  | scalar {s : Scalar} (h : s.InRange) : (Node.scalar s).InRange
  | array {items : List Node} (h : ∀ node ∈ items, node.InRange) : (Node.array items).InRange
  | tables {items : List Members} (h : ∀ members ∈ items, ∀ row ∈ members, row.2.InRange) :
    (Node.tables items).InRange
  | table {kind : TableKind} {members : Members} (h : ∀ row ∈ members, row.2.InRange) :
    (Node.table kind members).InRange

def Node.table? : Node → Option (String → Option Node)
  | .table _ members => some fun name => members.lookup name
  | _ => none

def Node.scalar? : Node → Option Settings.Scalar
  | .scalar (.string s) => some (.text s)
  | .scalar (.bool b) => some (.bool b)
  | _ => none

def reading : Reading Node :=
  ⟨Node.table?, Node.scalar?⟩

end Toml

namespace Json

def table? : Json → Option (String → Option Json)
  | .object members => some (lookup? members)
  | _ => none

def scalar? : Json → Option Settings.Scalar
  | .string s => some (.text s)
  | .bool b => some (.bool b)
  | _ => none

def reading : Reading Json :=
  ⟨table?, scalar?⟩

end Json

namespace Settings

/-! ## TOML -/

theorem ofTomlMembers_eq_map (origin : String) (members : Toml.Members) :
    ofTomlMembers origin members = members.map fun row => (row.1, ofToml origin row.2) := by
  induction members with
  | nil => rw [ofTomlMembers, List.map_nil]
  | cons row rest ih => rw [ofTomlMembers, ih, List.map_cons]

theorem settle_eq_ok {rows : List (String × Except SettingsError Value)}
    {members : Value.Members} (h : settle rows = .ok members) :
    rows = members.map fun row => (row.1, .ok row.2) := by
  induction rows generalizing members with
  | nil =>
    obtain rfl := Except.ok.inj h
    rfl
  | cons row rest ih =>
    obtain ⟨name, result⟩ := row
    cases result with
    | error e => cases h
    | ok v =>
      rw [settle] at h
      cases hrest : settle rest with
      | error e =>
        rw [hrest] at h
        cases h
      | ok later =>
        rw [hrest] at h
        obtain rfl := Except.ok.inj h
        rw [List.map_cons, ← ih hrest]

theorem exists_settle {rows : List (String × Except SettingsError Value)}
    (h : ∀ row ∈ rows, ∃ v, row.2 = .ok v) : ∃ members, settle rows = .ok members := by
  induction rows with
  | nil => exact ⟨[], rfl⟩
  | cons row rest ih =>
    obtain ⟨name, result⟩ := row
    obtain ⟨⟨v, rfl⟩, hrest⟩ := List.forall_mem_cons.mp h
    obtain ⟨members, hmembers⟩ := ih hrest
    refine ⟨(name, v) :: members, ?_⟩
    rw [settle, hmembers]
    rfl

theorem exists_settle_ofTomlMembers (origin : String) {members : Toml.Members}
    (h : ∀ row ∈ members, ∃ v, ofToml origin row.2 = .ok v) :
    ∃ values, settle (Value.sortMembers (ofTomlMembers origin members)) = .ok values := by
  refine exists_settle fun row hrow => ?_
  rw [(Value.sortMembers_perm _).mem_iff, ofTomlMembers_eq_map] at hrow
  obtain ⟨source, hsource, rfl⟩ := List.mem_map.mp hrow
  exact h source hsource

theorem exists_ofTomlScalar {s : Toml.Scalar} (h : s.InRange) (origin : String) :
    ∃ v, ofTomlScalar origin s = .ok v := by
  cases s with
  | integer n =>
    rw [ofTomlScalar, ofTomlInteger, if_neg (by simpa using h.2), if_neg (by simpa using h.1)]
    exact ⟨_, rfl⟩
  | oversized => exact h.elim
  | _ => exact ⟨_, rfl⟩

theorem exists_ofTomlItems {origin : String} {items : List Toml.Node}
    (h : ∀ node ∈ items, ∃ v, ofToml origin node = .ok v) :
    ∃ values, ofTomlItems origin items = .ok values := by
  induction items with
  | nil => exact ⟨[], by rw [ofTomlItems]⟩
  | cons node rest ih =>
    obtain ⟨⟨v, hv⟩, hrest⟩ := List.forall_mem_cons.mp h
    obtain ⟨values, hvalues⟩ := ih hrest
    refine ⟨v :: values, ?_⟩
    rw [ofTomlItems, hv, hvalues]
    rfl

theorem exists_ofTomlTables {origin : String} {items : List Toml.Members}
    (h : ∀ members ∈ items, ∀ row ∈ members, ∃ v, ofToml origin row.2 = .ok v) :
    ∃ values, ofTomlTables origin items = .ok values := by
  induction items with
  | nil => exact ⟨[], by rw [ofTomlTables]⟩
  | cons members rest ih =>
    obtain ⟨hmembers, hrest⟩ := List.forall_mem_cons.mp h
    obtain ⟨settled, hsettled⟩ := exists_settle_ofTomlMembers origin hmembers
    obtain ⟨values, hvalues⟩ := ih hrest
    refine ⟨.table origin settled :: values, ?_⟩
    rw [ofTomlTables, hsettled, hvalues]
    rfl

/-- A node whose numbers are in range is read. -/
theorem exists_ofToml {node : Toml.Node} (h : node.InRange) (origin : String) :
    ∃ v, ofToml origin node = .ok v := by
  induction h with
  | scalar hs =>
    rw [ofToml]
    exact exists_ofTomlScalar hs origin
  | array _ ih =>
    obtain ⟨values, hvalues⟩ := exists_ofTomlItems ih
    rw [ofToml, hvalues]
    exact ⟨_, rfl⟩
  | tables _ ih =>
    obtain ⟨values, hvalues⟩ := exists_ofTomlTables ih
    rw [ofToml, hvalues]
    exact ⟨_, rfl⟩
  | table _ ih =>
    obtain ⟨values, hvalues⟩ := exists_settle_ofTomlMembers origin ih
    rw [ofToml, hvalues]
    exact ⟨_, rfl⟩

/-- What the members of a TOML table are as values. -/
structure OfToml (origin : String) (members : Toml.Members) (values : Value.Members) : Prop where
  distinct : (values.map Prod.fst).Nodup
  rows : ∀ row ∈ values, ∃ node, (row.1, node) ∈ members ∧ ofToml origin node = .ok row.2
  lookup : ∀ name, (members.lookup name).map (ofToml origin) = (values.lookup name).map .ok

theorem ofToml_of_settle {origin : String} {members : Toml.Members} {values : Value.Members}
    (hdistinct : (members.map Prod.fst).Nodup)
    (h : settle (Value.sortMembers (ofTomlMembers origin members)) = .ok values) :
    OfToml origin members values := by
  have hsettled := settle_eq_ok h
  have hsorted : (Value.sortMembers (ofTomlMembers origin members)).Perm
      (members.map fun row => (row.1, ofToml origin row.2)) :=
    ofTomlMembers_eq_map origin members ▸ Value.sortMembers_perm _
  rw [hsettled] at hsorted
  have hnames : (members.map fun row => (row.1, ofToml origin row.2)).map Prod.fst =
      members.map Prod.fst := by
    rw [List.map_map]
    rfl
  have hnames' : (values.map fun row => (row.1, (Except.ok row.2 : Except SettingsError Value))).map
      Prod.fst = values.map Prod.fst := by
    rw [List.map_map]
    rfl
  have hvalues : (values.map Prod.fst).Nodup := by
    rw [← hnames', (hsorted.map Prod.fst).nodup_iff, hnames]
    exact hdistinct
  refine ⟨hvalues, fun row hrow => ?_, fun name => ?_⟩
  · have hmem := hsorted.mem_iff.mp (List.mem_map.mpr ⟨row, hrow, rfl⟩)
    obtain ⟨source, hsource, heq⟩ := List.mem_map.mp hmem
    obtain ⟨hname, hvalue⟩ := Prod.mk.inj heq
    exact ⟨source.2, hname ▸ hsource, hvalue⟩
  · rw [← Table.lookup_map, ← Table.lookup_map]
    exact (Table.lookup_of_perm hsorted (by rw [hnames']; exact hvalues)).symm

theorem members_eq_nil_of_ofTomlScalar {origin : String} {s : Toml.Scalar} {v : Value}
    (h : ofTomlScalar origin s = .ok v) : v.members = [] := by
  cases s with
  | integer n =>
    rw [ofTomlScalar, ofTomlInteger] at h
    split at h
    case isTrue => cases h
    case isFalse =>
      split at h
      case isTrue => cases h
      case isFalse =>
        obtain rfl := Except.ok.inj h
        rfl
  | oversized => cases h
  | _ =>
    obtain rfl := Except.ok.inj h
    rfl

theorem ofToml_table {origin : String} {kind : Toml.TableKind} {members : Toml.Members}
    {v : Value} (hdistinct : members.Distinct)
    (h : ofToml origin (.table kind members) = .ok v) :
    ∃ values, v = .table origin values ∧ OfToml origin members values := by
  rw [ofToml] at h
  cases hsettle : settle (Value.sortMembers (ofTomlMembers origin members)) with
  | error e =>
    rw [hsettle] at h
    cases h
  | ok values =>
    rw [hsettle] at h
    exact ⟨values, (Except.ok.inj h).symm, ofToml_of_settle hdistinct.names hsettle⟩

theorem eq_of_map_eq_ok {ε α β : Type} {f : α → β} {result : Except ε α} {b : β}
    (h : result.map f = .ok b) : ∃ a, b = f a := by
  cases result with
  | error e => cases h
  | ok a => exact ⟨a, (Except.ok.inj h).symm⟩

/-- What is read of a node has no member twice. -/
theorem nodup_members_ofToml {origin : String} {node : Toml.Node} {v : Value}
    (hdistinct : node.Distinct) (h : ofToml origin node = .ok v) :
    (v.members.map Prod.fst).Nodup := by
  cases node with
  | scalar s =>
    rw [ofToml] at h
    rw [members_eq_nil_of_ofTomlScalar h]
    exact List.nodup_nil
  | array items =>
    rw [ofToml] at h
    obtain ⟨values, rfl⟩ := eq_of_map_eq_ok h
    exact List.nodup_nil
  | tables items =>
    rw [ofToml] at h
    obtain ⟨values, rfl⟩ := eq_of_map_eq_ok h
    exact List.nodup_nil
  | table kind members =>
    cases hdistinct with
    | table hmembers =>
      obtain ⟨values, rfl, hvalues⟩ := ofToml_table hmembers h
      exact hvalues.distinct

/-- A node that names no key twice, and what it is read as. -/
def ReadsAs (origin : String) (node : Toml.Node) (v : Value) : Prop :=
  node.Distinct ∧ ofToml origin node = .ok v

/-- The members of a table are read one by one. -/
theorem ReadsAs.table {origin : String} {node : Toml.Node} {v : Value}
    {look : String → Option Toml.Node} (h : ReadsAs origin node v)
    (hlook : Toml.reading.table? node = some look) :
    ∃ look', Value.reading.table? v = some look' ∧
      ∀ name, Option.Rel (ReadsAs origin) (look name) (look' name) := by
  obtain ⟨hdistinct, hv⟩ := h
  cases node with
  | table kind members =>
    obtain rfl := Option.some.inj hlook
    cases hdistinct with
    | table hmembers =>
      obtain ⟨values, rfl, hvalues⟩ := ofToml_table hmembers hv
      refine ⟨_, rfl, fun name => ?_⟩
      have hname := hvalues.lookup name
      change Option.Rel (ReadsAs origin) (members.lookup name) (values.lookup name)
      cases hnode : members.lookup name with
      | none =>
        rw [hnode] at hname
        rw [Option.map_eq_none_iff.mp hname.symm]
        exact .none
      | some inner =>
        rw [hnode] at hname
        obtain ⟨w, hw, hinner⟩ := Option.map_eq_some_iff.mp hname.symm
        rw [hw]
        exact .some ⟨hmembers.of_lookup hnode, hinner.symm⟩
  | _ => cases hlook

theorem ReadsAs.scalar {origin : String} {node : Toml.Node} {v : Value} {x : Scalar}
    (h : ReadsAs origin node v) (hx : Toml.reading.scalar? node = some x) :
    Value.reading.scalar? v = some x := by
  obtain ⟨-, hv⟩ := h
  cases node with
  | scalar s =>
    rw [ofToml] at hv
    cases s with
    | string s =>
      obtain rfl := Except.ok.inj hv
      exact hx
    | bool b =>
      obtain rfl := Except.ok.inj hv
      exact hx
    | _ => cases hx
  | _ => cases hx

theorem ReadsAs.gives {origin : String} {node : Toml.Node} {v : Value}
    {values : Setting → Option Scalar} (h : ReadsAs origin node v)
    (hgives : Toml.reading.Gives node values) : Value.reading.Gives v values :=
  hgives.transfer ReadsAs.table ReadsAs.scalar h

/-- A document whose numbers are in range is read as a layer that gives the same settings. -/
theorem exists_layer_of_toml (origin : String) {document : Toml.Members} {given : Given}
    (hdistinct : document.Distinct) (hkeys : ∀ row ∈ document, KeyStep.IsName row.1)
    (hrange : ∀ row ∈ document, row.2.InRange)
    (hgives : Toml.reading.Gives (.table .declared document) given.scalar?) :
    ∃ layer, settle (Value.sortMembers (ofTomlMembers origin document)) = .ok layer ∧
      Value.IsFileLayer layer ∧ Value.reading.Gives (.table origin layer) given.scalar? := by
  obtain ⟨layer, hlayer⟩ := exists_settle_ofTomlMembers origin
    fun row hrow => exists_ofToml (hrange row hrow) origin
  have hread := ofToml_of_settle hdistinct.names hlayer
  have hroot : ReadsAs origin (.table .declared document) (.table origin layer) := by
    refine ⟨.table hdistinct, ?_⟩
    rw [ofToml, hlayer]
    rfl
  refine ⟨layer, hlayer, ⟨fun row hrow => ?_, hread.distinct, fun row hrow => ?_⟩,
    hroot.gives hgives⟩
  · obtain ⟨node, hnode, -⟩ := hread.rows row hrow
    exact hkeys _ hnode
  · obtain ⟨node, hnode, hvalue⟩ := hread.rows row hrow
    exact nodup_members_ofToml (hdistinct.nodes _ hnode) hvalue

/-! ## JSON -/

namespace Value

theorem lookup_ofJsonMembers (origin : Origin) (name : String)
    (members : List (String × Json)) {soFar : Members} (found : Option Json)
    (h : soFar.lookup name = found.map (ofJson origin)) :
    (ofJsonMembers origin soFar members).lookup name =
      (members.foldl (fun found m => if m.1 = name then some m.2 else found) found).map
        (ofJson origin) := by
  induction members generalizing soFar found with
  | nil =>
    rw [ofJsonMembers]
    exact h
  | cons row rest ih =>
    obtain ⟨other, v⟩ := row
    rw [ofJsonMembers, List.foldl_cons]
    refine ih _ ?_
    rw [put_eq, Table.lookup_put, h]
    by_cases hname : name = other
    · rw [if_pos hname, if_pos hname.symm]
      rfl
    · rw [if_neg hname, if_neg (Ne.symm hname)]

theorem nodup_ofJsonMembers (origin : Origin) (members : List (String × Json))
    (soFar : Members) (h : (soFar.map Prod.fst).Nodup) :
    ((ofJsonMembers origin soFar members).map Prod.fst).Nodup := by
  induction members generalizing soFar with
  | nil =>
    rw [ofJsonMembers]
    exact h
  | cons row rest ih =>
    rw [ofJsonMembers, put_eq]
    exact ih _ (Table.nodup_put h)

theorem mem_of_mem_ofJsonMembers {origin : Origin} {members : List (String × Json)}
    {soFar : Members} {row : String × Value} (h : row ∈ ofJsonMembers origin soFar members) :
    row ∈ soFar ∨ ∃ v, (row.1, v) ∈ members ∧ row.2 = ofJson origin v := by
  induction members generalizing soFar with
  | nil =>
    rw [ofJsonMembers] at h
    exact .inl h
  | cons first rest ih =>
    obtain ⟨name, v⟩ := first
    rw [ofJsonMembers, put_eq] at h
    rcases ih h with hput | ⟨w, hw, hrow⟩
    · rcases Table.mem_of_mem_put hput with rfl | hold
      · exact .inr ⟨v, List.mem_cons_self, rfl⟩
      · exact .inl hold
    · exact .inr ⟨w, List.mem_cons_of_mem _ hw, hrow⟩

theorem nodup_members_ofJson (origin : Origin) (v : Json) :
    ((ofJson origin v).members.map Prod.fst).Nodup := by
  cases v with
  | object members =>
    rw [ofJson]
    exact nodup_ofJsonMembers origin members [] List.nodup_nil
  | array items =>
    rw [ofJson]
    exact List.nodup_nil
  | _ => exact List.nodup_nil

theorem gives_ofJson {origin : Origin} {v : Json} {values : Setting → Option Scalar}
    (hgives : Json.reading.Gives v values) : reading.Gives (ofJson origin v) values := by
  refine hgives.transfer (R := fun v w => w = ofJson origin v) ?htable ?hscalar rfl
  case htable =>
    rintro v _ look rfl hlook
    cases v with
    | object members =>
      obtain rfl := Option.some.inj hlook
      rw [ofJson]
      refine ⟨_, rfl, fun name => ?_⟩
      rw [lookup_ofJsonMembers origin name members none rfl]
      change Option.Rel _ (Json.lookup? members name) (Option.map _ (Json.lookup? members name))
      cases Json.lookup? members name with
      | none => exact .none
      | some w => exact .some rfl
    | _ => cases hlook
  case hscalar =>
    rintro v _ x rfl hx
    cases v with
    | bool b => exact hx
    | string s => exact hx
    | _ => cases hx

/-- An object is read as a layer that gives the same settings. -/
theorem exists_layer_of_json (origin : Origin) {document : List (String × Json)} {given : Given}
    (hkeys : ∀ row ∈ document, KeyStep.IsName row.1)
    (hgives : Json.reading.Gives (.object document) given.scalar?) :
    ∃ layer, ofJson origin (.object document) = .table origin layer ∧ IsFileLayer layer ∧
      reading.Gives (.table origin layer) given.scalar? := by
  have hread : ofJson origin (.object document) =
      .table origin (ofJsonMembers origin [] document) := by
    rw [ofJson]
  have hdistinct := nodup_ofJsonMembers origin document [] List.nodup_nil
  refine ⟨_, hread, ⟨fun row hrow => ?_, hdistinct, fun row hrow => ?_⟩,
    hread ▸ gives_ofJson hgives⟩
  · rcases mem_of_mem_ofJsonMembers hrow with hnil | ⟨v, hv, -⟩
    · cases hnil
    · exact hkeys _ hv
  · rcases mem_of_mem_ofJsonMembers hrow with hnil | ⟨v, -, hvalue⟩
    · cases hnil
    · rw [hvalue]
      exact nodup_members_ofJson origin v

end Value

/-! ## Files -/

section

variable [ForeignReaders]

/-- A file holds a document of its format that gives settings, and whose keys at the top are
names. What a file of a format that is not read here holds is what its reader makes of it. -/
inductive Source.Gives (source : Source) (given : Given) : Prop
  | toml {document : Toml.Members} (format : source.format = .toml)
    (parse : Toml.parse source.text = some document)
    (keys : ∀ row ∈ document, KeyStep.IsName row.1)
    (inRange : ∀ row ∈ document, row.2.InRange)
    (gives : Toml.reading.Gives (.table .declared document) given.scalar?)
  | json {document : List (String × Json)} (format : source.format = .json)
    (parse : Json.parse source.text = some (.object document))
    (keys : ∀ row ∈ document, KeyStep.IsName row.1)
    (gives : Json.reading.Gives (.object document) given.scalar?)
  | foreign {format : ForeignFormat} {layer : Value.Members}
    (isForeign : source.format = .foreign format)
    (read : ForeignReaders.read format source.origin source.text = .ok layer)
    (isLayer : Value.IsFileLayer layer)
    (gives : Value.reading.Gives (.table source.origin layer) given.scalar?)

/-- A file that gives settings is read, as a layer that gives the same ones. -/
theorem Source.Gives.members {source : Source} {given : Given} (h : source.Gives given) :
    ∃ layer, source.members = .ok layer ∧ Value.IsFileLayer layer ∧
      Value.reading.Gives (.table source.origin layer) given.scalar? := by
  cases h with
  | @toml document format parse keys inRange gives =>
    obtain ⟨layer, hlayer, hgives⟩ := exists_layer_of_toml source.origin
      (Toml.parse_distinct parse) keys inRange gives
    refine ⟨layer, ?_, hgives⟩
    rw [Source.members, format]
    dsimp only
    rw [parse]
    exact hlayer
  | @json document format parse keys gives =>
    obtain ⟨layer, hlayer, hgives⟩ := Value.exists_layer_of_json source.origin keys gives
    refine ⟨layer, ?_, hgives⟩
    rw [Source.members, format]
    dsimp only
    rw [parse]
    dsimp only
    rw [hlayer]
  | @foreign format layer isForeign read isLayer gives =>
    refine ⟨layer, ?_, isLayer, gives⟩
    rw [Source.members, isForeign]
    dsimp only
    rw [read]
    rfl

end

end Settings
end SyncAudit
