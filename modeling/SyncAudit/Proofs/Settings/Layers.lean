import Mathlib.Logic.Function.Basic
import SyncAudit.Proofs.Settings.Given
import SyncAudit.Proofs.Settings.KeyPath
import SyncAudit.Proofs.Settings.Members

/-!
# Layers of settings

Two kinds of layers are laid over a tree. One of a file has sections whose tables are merged into
those that are there; one of the environment has a key with a dot for each of its settings. Either
way a setting of the layer takes the place of what was there before, and its neighbours in the
section stay.
-/
namespace SyncAudit.Settings

namespace Setting

/-- The key of a setting in a layer without tables. -/
def key (s : Setting) : String :=
  s.part ++ "." ++ s.name

theorem eq_of_part_name {s t : Setting} (hpart : s.part = t.part) (hname : s.name = t.name) :
    s = t := by
  obtain _ | f := s <;> obtain _ | g := t
  · rfl
  · cases g <;> simp [name] at hname
  · cases f <;> simp [name] at hname
  · cases f <;> cases g <;> first | rfl | simp [name] at hname

theorem ofKey_key (s : Setting) : KeyStep.ofKey s.key = [.name s.part, .name s.name] := by
  have hpart : KeyStep.IsName s.part := by
    obtain _ | f := s
    · decide
    · cases f <;> decide
  have hname : KeyStep.IsName s.name := by
    obtain _ | f := s
    · decide
    · cases f <;> decide
  exact KeyStep.ofKey_dotted hpart hname

theorem key_injective {s t : Setting} (h : s.key = t.key) : s = t := by
  have hsteps := (ofKey_key s).symm.trans (h ▸ ofKey_key t)
  simp only [List.cons.injEq, KeyStep.name.injEq, and_true] at hsteps
  exact eq_of_part_name hsteps.1 hsteps.2

end Setting

namespace Value

theorem overlay_of_scalar? {v : Value} {x : Scalar} (h : v.scalar? = some x) (target : Value) :
    overlay v target = v := by
  rw [eq_scalar_of_scalar? h, overlay]

theorem exists_table_of_gives {root : Value} {values : Setting → Option Scalar}
    (h : reading.Gives root values) : ∃ origin members, root = .table origin members := by
  obtain ⟨look, hlook, -⟩ := h .marker
  cases root with
  | scalar o s => cases hlook
  | array o items => cases hlook
  | table origin members => exact ⟨origin, members, rfl⟩

/-! ## The layer of a file -/

/-- The members of a file: keys that are names, none of them given twice, neither at the top nor
in a section. -/
structure IsFileLayer (layer : Members) : Prop where
  keys : ∀ row ∈ layer, KeyStep.IsName row.1
  distinct : (layer.map Prod.fst).Nodup
  inner : ∀ row ∈ layer, (row.2.members.map Prod.fst).Nodup

theorem foldl_set_names {layer : Members} (h : ∀ row ∈ layer, KeyStep.IsName row.1)
    (origin : Origin) (members : Members) :
    layer.foldl (fun root (key, v) => set key v root) (.table origin members) =
      .table origin (overlayMembers layer members) := by
  induction layer generalizing members with
  | nil => rw [List.foldl_nil, overlayMembers]
  | cons row rest ih =>
    obtain ⟨hkey, hrest⟩ := List.forall_mem_cons.mp h
    obtain ⟨key, v⟩ := row
    have hset : set key v (.table origin members) =
        .table origin (changeMember (overlay v) key members) := by
      rw [set, KeyStep.ofKey_name hkey]
      rfl
    rw [List.foldl_cons]
    dsimp only
    rw [hset, ih hrest, overlayMembers]

/-- Members laid over an empty table keep their scalars. -/
theorem scalar?_lookup_overlayMembers {layer : Members} (h : (layer.map Prod.fst).Nodup)
    {name : String} {given : Option Scalar}
    (hgiven : (layer.lookup name).map scalar? = given.map some) :
    ((overlayMembers layer []).lookup name).map scalar? = given.map some := by
  rw [lookup_overlayMembers h, ← hgiven]
  cases hname : layer.lookup name with
  | none => rfl
  | some v =>
    rw [hname] at hgiven
    obtain ⟨x, -, hx⟩ := Option.map_eq_some_iff.mp hgiven.symm
    dsimp only
    rw [overlay_of_scalar? hx.symm]

/-- A file gives its values to settings that are empty so far. -/
theorem IsFileLayer.gives {layer : Members} (hlayer : IsFileLayer layer) {origin : Origin}
    {values : Setting → Option Scalar} (h : reading.Gives (.table origin layer) values) :
    reading.Gives (setAll layer (.table none [])) values := by
  have hkeys : ∀ row ∈ sortMembers layer, KeyStep.IsName row.1 :=
    fun row hrow => hlayer.keys row ((sortMembers_perm layer).mem_iff.mp hrow)
  rw [setAll, foldl_set_names hkeys]
  intro s
  obtain ⟨look, hpart, hvalue⟩ := h s
  have hlookup := lookup_overlayMembers (nodup_sortMembers hlayer.distinct) [] s.part
  rw [lookup_sortMembers hlayer.distinct, List.lookup_nil, Option.getD_none] at hlookup
  rcases part?_eq_some_iff.mp hpart with ⟨hnone, rfl⟩ | ⟨o, inner, htable, rfl⟩
  · rw [hnone] at hlookup
    exact ⟨_, part?_eq_some_iff.mpr (.inl ⟨hlookup, rfl⟩), hvalue⟩
  · rw [htable] at hlookup
    dsimp only at hlookup
    rw [overlay] at hlookup
    exact ⟨_, part?_eq_some_iff.mpr (.inr ⟨_, _, hlookup, rfl⟩),
      scalar?_lookup_overlayMembers (hlayer.inner _ (Table.mem_of_lookup htable)) hvalue⟩

/-! ## The layer of the environment -/

/-- A value under the key of a setting takes the place of that setting only. -/
theorem gives_set {root : Value} {values : Setting → Option Scalar}
    (h : reading.Gives root values) (s : Setting) (origin : Origin) (x : Scalar) :
    reading.Gives (set s.key (.scalar origin x) root) (Function.update values s (some x)) := by
  obtain ⟨rootOrigin, members, rfl⟩ := exists_table_of_gives h
  have hset : set s.key (.scalar origin x) (.table rootOrigin members) =
      .table rootOrigin (changeMember (changeAt (overlay (.scalar origin x)) [.name s.name])
        s.part members) := by
    rw [set, Setting.ofKey_key]
    rfl
  rw [hset]
  intro t
  obtain ⟨look, hpart, hvalue⟩ := h t
  have hlookup := lookup_changeMember
    (changeAt (overlay (.scalar origin x)) [.name s.name]) s.part t.part members
  by_cases hsame : t.part = s.part
  · rw [if_pos hsame] at hlookup
    refine ⟨_, part?_eq_some_iff.mpr (.inr ⟨_, _, hlookup, rfl⟩), ?_⟩
    rw [lookup_changeMember]
    by_cases hts : t = s
    · subst hts
      rw [if_pos rfl, Function.update_self]
      rfl
    · have hname : t.name ≠ s.name := fun hname => hts (Setting.eq_of_part_name hsame hname)
      rw [if_neg hname, Function.update_of_ne hts, ← hvalue]
      rcases part?_eq_some_iff.mp hpart with ⟨hnone, rfl⟩ | ⟨o, inner, htable, rfl⟩
      · rw [← hsame, hnone]
        rfl
      · rw [← hsame, htable]
        rfl
  · rw [if_neg hsame] at hlookup
    have hts : t ≠ s := fun hts => hsame (hts ▸ rfl)
    rw [Function.update_of_ne hts]
    refine ⟨look, part?_eq_some_iff.mpr ?_, hvalue⟩
    rw [hlookup]
    exact part?_eq_some_iff.mp hpart

/-- The members of an environment: scalars under the keys of settings, none of them given twice. -/
structure IsVariableLayer (layer : Members) : Prop where
  rows : ∀ row ∈ layer, ∃ (s : Setting) (origin : Origin) (x : Scalar),
    row = (s.key, .scalar origin x)
  distinct : (layer.map Prod.fst).Nodup

theorem gives_foldl_set {layer : Members} (hlayer : IsVariableLayer layer) {root : Value}
    {values : Setting → Option Scalar} (h : reading.Gives root values) :
    reading.Gives (layer.foldl (fun root (key, v) => set key v root) root)
      fun s => ((layer.lookup s.key).bind scalar?).or (values s) := by
  induction layer generalizing root values with
  | nil => exact h
  | cons row rest ih =>
    obtain ⟨⟨s, origin, x, rfl⟩, hrows⟩ := List.forall_mem_cons.mp hlayer.rows
    obtain ⟨hfirst, hdistinct⟩ := List.nodup_cons.mp hlayer.distinct
    have hrest := ih ⟨hrows, hdistinct⟩ (gives_set h s origin x)
    rw [List.foldl_cons]
    convert hrest using 2 with t
    rw [Table.lookup_cons]
    by_cases hts : t = s
    · subst hts
      rw [if_pos rfl, Table.lookup_eq_none_of_not_mem hfirst, Function.update_self]
      rfl
    · rw [if_neg (fun hkey => hts (Setting.key_injective hkey)), Function.update_of_ne hts]

/-- The environment gives its values, and leaves the others to what it is laid over. -/
theorem IsVariableLayer.gives {layer : Members} (hlayer : IsVariableLayer layer) {root : Value}
    {values : Setting → Option Scalar} (h : reading.Gives root values) :
    reading.Gives (setAll layer root)
      fun s => ((layer.lookup s.key).bind scalar?).or (values s) := by
  have hsorted : IsVariableLayer (sortMembers layer) :=
    ⟨fun row hrow => hlayer.rows row ((sortMembers_perm layer).mem_iff.mp hrow),
      nodup_sortMembers hlayer.distinct⟩
  have hgives := gives_foldl_set hsorted h
  simp only [lookup_sortMembers hlayer.distinct] at hgives
  exact hgives

end Value
end SyncAudit.Settings
