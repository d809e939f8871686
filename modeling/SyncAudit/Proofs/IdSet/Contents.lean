import SyncAudit.Proofs.IdSet.Loading
import SyncAudit.Proofs.Text.Layout

/-!
# What a set of ids holds

A stream is read as a whole or not at all, although it is taken line by line. The set that it
leaves holds the trimmed lines of its text, so it does not depend on how that text is laid out.
-/
namespace SyncAudit.IdSet

/-- A set holds the trimmed lines of a text and nothing else; the empty text counts only where blank
lines do. -/
structure HoldsLines (skipBlank : Bool) (text : String) (set : IdSet) : Prop where
  mem_iff : ∀ id, id ∈ set.ids ↔ (skipBlank = true → id ≠ "") ∧
    ∃ line ∈ Text.textLines text.toList, String.ofList (Text.trimChars line) = id
  contains_iff : ∀ id : RepoId, set.contains id = true ↔
    ∃ line ∈ Text.textLines text.toList,
      String.ofList (Text.trimChars line) = id.ns ++ "/" ++ id.name
  size_eq : set.size = (keptLines skipBlank text).toFinset.card

/-- No key is a blank line, so it does not matter whether these are kept. -/
theorem holdsLines_ofList (skipBlank : Bool) (text : String) :
    (ofList (keptLines skipBlank text)).HoldsLines skipBlank text := by
  constructor
  case mem_iff =>
    intro id
    rw [mem_ofList, mem_keptLines]
  case contains_iff =>
    intro id
    rw [contains_ofList, mem_keptLines]
    exact and_iff_right fun _ => id.key_ne_empty
  case size_eq => exact size_ofList _

/-- Texts that are laid out differently have the same kept lines, as a set. -/
theorem mem_keptLines_of_relaid {text text' : String} (h : Text.Relaid text.toList text'.toList)
    (skipBlank : Bool) (id : String) :
    id ∈ keptLines skipBlank text ↔ id ∈ keptLines skipBlank text' := by
  have hlines (t : String) : id ∈ keptLines skipBlank t ↔
      (skipBlank = true → id ≠ "") ∧ id.toList ∈ (Text.textLines t.toList).map Text.trimChars := by
    simp only [mem_keptLines, List.mem_map, ← String.toList_inj, String.toList_ofList]
  rw [hlines, hlines, h.mem_trimmed]

/-- Reading fails on just those streams that are not text. Any other leaves the set of its lines,
and one that is laid out differently leaves the same set. -/
theorem read_contents (skipBlank : Bool) (bytes : List UInt8) :
    ((∃ e, (read skipBlank bytes).result = .error e) ↔ Text.ofBytes? bytes = none) ∧
    ∀ text, Text.ofBytes? bytes = some text →
      ∃ set, (read skipBlank bytes).result = .ok set ∧ set.HoldsLines skipBlank text ∧
        ∀ bytes' text', Text.ofBytes? bytes' = some text' →
          Text.Relaid text.toList text'.toList →
          ∃ set', (read skipBlank bytes').result = .ok set' ∧ set'.ids.Perm set.ids := by
  have hread (bytes : List UInt8) (text : String) (h : Text.ofBytes? bytes = some text) :
      (read skipBlank bytes).result = .ok (ofList (keptLines skipBlank text)) :=
    read_result.mpr ⟨text, h, rfl⟩
  constructor
  · cases htext : Text.ofBytes? bytes with
    | some text => simp [hread bytes text htext]
    | none =>
      cases hres : (read skipBlank bytes).result with
      | error e => simp
      | ok set =>
        obtain ⟨text, h, -⟩ := read_result.mp hres
        simp [htext] at h
  · intro text htext
    refine ⟨_, hread bytes text htext, holdsLines_ofList skipBlank text, ?_⟩
    intro bytes' text' htext' hrelaid
    refine ⟨_, hread bytes' text' htext', ?_⟩
    rw [List.perm_ext_iff_of_nodup (ofList _).nodup (ofList _).nodup]
    intro id
    rw [mem_ofList, mem_ofList, mem_keptLines_of_relaid hrelaid]

/-- A list of ids with white space around an id, a blank line and a last line that is not ended. -/
def untidyIds : String :=
  " acme/widgets\r\n\nacme/widgets"

def tidyIds : String :=
  "\nacme/widgets\n"

theorem untidyIds_relaid : Text.Relaid untidyIds.toList tidyIds.toList := by
  let ended := " acme/widgets\r\n\nacme/widgets\n".toList
  let lines := ["acme/widgets".toList, [], "acme/widgets".toList]
  have hended : Text.LayoutStep untidyIds.toList ended := by
    have hfront : untidyIds.toList = " acme/widgets\r\n\nacme/widget".toList ++ ['s'] := by decide
    have hback : ended = " acme/widgets\r\n\nacme/widget".toList ++ ['s', '\n'] := by decide
    rw [hfront, hback]
    exact .finalLineFeed (by decide)
  have hpadded : Text.LayoutStep (Text.ofLines lines) ended := by
    have hplain : Text.ofLines lines =
        [] ++ ("acme/widgets".toList ++ "\n\nacme/widgets\n".toList) := by decide
    have hpad : ended = [] ++ ([' '] ++ "acme/widgets".toList ++ ['\r'] ++
        "\n\nacme/widgets\n".toList) := by decide
    rw [hplain, hpad]
    refine .pad (.inl rfl) (by decide) (.inr ⟨"\nacme/widgets\n".toList, by decide⟩) ?_ ?_
    · exact List.forall_mem_singleton.mpr (by decide)
    · exact List.forall_mem_singleton.mpr (by decide)
  have hrearranged : Text.LayoutStep (Text.ofLines lines) tidyIds.toList := by
    have htidy : tidyIds.toList = Text.ofLines [[], "acme/widgets".toList] := by decide
    rw [htidy]
    refine .rearrange (by decide) fun line => ?_
    simp only [lines, List.mem_cons, List.not_mem_nil, or_false]
    tauto
  exact .trans _ _ _ (.rel _ _ hended)
    (.trans _ _ _ (.symm _ _ (.rel _ _ hpadded)) (.rel _ _ hrearranged))

theorem untidyIds_contents :
    Text.ofBytes? (Text.toBytes untidyIds) = some untidyIds ∧
      Text.ofBytes? (Text.toBytes tidyIds) = some tidyIds ∧
      ∃ set set', (read false (Text.toBytes untidyIds)).result = .ok set ∧
        (read false (Text.toBytes tidyIds)).result = .ok set' ∧
        set.HoldsLines false untidyIds ∧ set'.ids.Perm set.ids := by
  have huntidy : Text.ofBytes? (Text.toBytes untidyIds) = some untidyIds := by decide
  have htidy : Text.ofBytes? (Text.toBytes tidyIds) = some tidyIds := by decide
  obtain ⟨set, hset, hholds, hsame⟩ :=
    (read_contents false (Text.toBytes untidyIds)).2 untidyIds huntidy
  obtain ⟨set', hset', hperm⟩ := hsame (Text.toBytes tidyIds) tidyIds htidy untidyIds_relaid
  exact ⟨huntidy, htidy, set, set', hset, hset', hholds, hperm⟩

end SyncAudit.IdSet
