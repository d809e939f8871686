import SyncAudit.Proofs.IdSet.Loading
import SyncAudit.Proofs.RepoId

/-!
# Lines that are no ids

A line that is kept and spells no id is warned of under its number, counted from one over all lines
of the text. Lines are looked at one after the other, so no line is warned of twice.
-/
namespace SyncAudit.IdSet

variable {skipBlank : Bool} {bytes : List UInt8} {text : String} {number : Nat} {id : String}

/-- A line is kept and spells no id. -/
def isMalformed (skipBlank : Bool) (line : List Char) : Bool :=
  keeps skipBlank (String.ofList (Text.trimChars line)) &&
    (RepoId.parse? (String.ofList line)).isNone

theorem isMalformed_iff {line : List Char} :
    isMalformed skipBlank line = true ↔
      keeps skipBlank (String.ofList (Text.trimChars line)) = true ∧
        RepoId.parse? (String.ofList line) = none := by
  rw [isMalformed, Bool.and_eq_true, Option.isNone_iff_eq_none]

/-- What is logged of a trimmed line with its number. -/
def lineEvent? (skipBlank : Bool) (line : List Char × Nat) : Option Event :=
  if keeps skipBlank (String.ofList line.1) = true then
    if RepoId.parse? (String.ofList line.1) = none then
      some (.malformedLine line.2 (String.ofList line.1))
    else none
  else some (.skippingBlankLine line.2)

theorem addLines_cons_events {line : List UInt8} {cs : List Char}
    (hline : Text.trimmedLine? line = some cs) (number : Nat) (set : IdSet)
    (rest : List (List UInt8)) :
    ∃ set', (addLines skipBlank number set (line :: rest)).events =
      (lineEvent? skipBlank (cs, number)).toList ++
        (addLines skipBlank (number + 1) set' rest).events := by
  obtain ⟨text, htext, rfl⟩ := Option.map_eq_some_iff.mp hline
  have hread : Text.ofBytes? line = some (String.ofList text) := by
    rw [Text.ofBytes?, htext, Option.map_some]
  rw [addLines, hread]
  simp only [Text.trim, String.toList_ofList, lineEvent?]
  generalize String.ofList (Text.trimChars text) = id
  by_cases hblank : id = "" ∧ skipBlank = true
  · obtain ⟨rfl, rfl⟩ := hblank
    exact ⟨set, rfl⟩
  · have hkept : keeps skipBlank id = true := by simpa [keeps, imp_iff_not_or] using hblank
    refine ⟨set.insert id, ?_⟩
    rw [if_neg hblank, if_pos hkept]
    split
    · rw [Run.log_bind_events]
      rfl
    · rfl

/-- Every line is looked at on its own, with its number. -/
theorem addLines_events {lines : List (List UInt8)} {trimmed : List (List Char)}
    (h : lines.mapM Text.trimmedLine? = some trimmed) (number : Nat) (set : IdSet) :
    (addLines skipBlank number set lines).events =
      (trimmed.zipIdx number).filterMap (lineEvent? skipBlank) := by
  induction lines generalizing trimmed number set with
  | nil =>
    obtain rfl : [] = trimmed := Option.some.inj h
    rfl
  | cons line rest ih =>
    rw [List.mapM_cons] at h
    obtain ⟨cs, hline, h⟩ := Option.bind_eq_some_iff.mp h
    obtain ⟨later, hrest, hcons⟩ := Option.bind_eq_some_iff.mp h
    obtain rfl : cs :: later = trimmed := Option.some.inj hcons
    obtain ⟨set', hevents⟩ := addLines_cons_events hline number set rest
    rw [hevents, ih hrest, List.zipIdx_cons, List.filterMap_cons]
    cases lineEvent? skipBlank (cs, number) <;> rfl

theorem read_events (skipBlank : Bool) (htext : Text.ofBytes? bytes = some text) :
    (read skipBlank bytes).events =
      ((Text.textLines text.toList).zipIdx 1).filterMap
        fun line => lineEvent? skipBlank (Text.trimChars line.1, line.2) := by
  have htrimmed : (Text.lines bytes).mapM Text.trimmedLine? =
      some ((Text.textLines text.toList).map Text.trimChars) := by
    rw [Text.lines_trimmed, Text.trimmedLines?, Text.ofBytes_eq_some_iff.mp htext, Option.map_some]
  rw [read, addLines_events htrimmed, List.zipIdx_map, List.filterMap_map]
  rfl

theorem lineEvent_eq_malformed_iff {line : List Char} {n : Nat} :
    lineEvent? skipBlank (Text.trimChars line, n) = some (.malformedLine number id) ↔
      n = number ∧ String.ofList (Text.trimChars line) = id ∧
        isMalformed skipBlank line = true := by
  have hparse : RepoId.parse? (String.ofList (Text.trimChars line)) =
      RepoId.parse? (String.ofList line) := by
    rw [← RepoId.parse_trim (String.ofList line), Text.trim, String.toList_ofList]
  rw [lineEvent?, isMalformed_iff, hparse]
  split
  case isFalse hskipped => simp [hskipped]
  case isTrue hkept =>
    split
    case isTrue hnone => simp [hkept, hnone]
    case isFalse hsome => simp [hsome]

/-- The warnings are about the lines of a text that are kept and spell no id, each under its number
and once. -/
structure WarnsOfMalformed (skipBlank : Bool) (text : String) (events : List Event) : Prop where
  mem_iff : ∀ number id, .malformedLine number id ∈ events ↔ ∃ i line, number = i + 1 ∧
    (Text.textLines text.toList)[i]? = some line ∧ id = String.ofList (Text.trimChars line) ∧
    isMalformed skipBlank line = true
  increasing : events.Pairwise fun e e' => ∀ number id number' id',
    e = .malformedLine number id → e' = .malformedLine number' id' → number < number'

theorem read_warnsOfMalformed (skipBlank : Bool) (htext : Text.ofBytes? bytes = some text) :
    WarnsOfMalformed skipBlank text (read skipBlank bytes).events := by
  rw [read_events skipBlank htext]
  constructor
  case mem_iff =>
    intro number id
    rw [List.mem_filterMap]
    constructor
    · rintro ⟨⟨line, n⟩, hmem, hevent⟩
      obtain ⟨hn, hline⟩ := List.mk_mem_zipIdx_iff_le_and_getElem?_sub.mp hmem
      obtain ⟨rfl, hid, hmalformed⟩ := lineEvent_eq_malformed_iff.mp hevent
      exact ⟨n - 1, line, by omega, hline, hid.symm, hmalformed⟩
    · rintro ⟨i, line, rfl, hline, hid, hmalformed⟩
      have hmem : (line, i + 1) ∈ (Text.textLines text.toList).zipIdx 1 :=
        List.mk_mem_zipIdx_iff_le_and_getElem?_sub.mpr ⟨Nat.le_add_left 1 i, hline⟩
      exact ⟨_, hmem, lineEvent_eq_malformed_iff.mpr ⟨rfl, hid.symm, hmalformed⟩⟩
  case increasing =>
    have hnumbers : ((Text.textLines text.toList).zipIdx 1).Pairwise
        fun line line' => line.2 < line'.2 := by
      rw [← List.pairwise_map, List.zipIdx_map_snd]
      exact List.pairwise_lt_range'
    rw [List.pairwise_filterMap]
    refine hnumbers.imp fun hlt e he e' he' => ?_
    rintro number id number' id' rfl rfl
    rw [← (lineEvent_eq_malformed_iff.mp he).1, ← (lineEvent_eq_malformed_iff.mp he').1]
    exact hlt

/-- No line that is warned of reads like the key of an id whose parts are proper. -/
theorem WarnsOfMalformed.key_not_mem {events : List Event} {repo : RepoId}
    (h : WarnsOfMalformed skipBlank text events) (hrepo : repo.Proper) (number : Nat) :
    .malformedLine number repo.key ∉ events := by
  intro hmem
  obtain ⟨-, line, -, -, hkey, hmalformed⟩ := (h.mem_iff _ _).mp hmem
  have htrim : Text.trim (String.ofList line) = repo.key := by
    rw [Text.trim, String.toList_ofList, hkey]
  have hparse := hrepo.parse_of_key htrim
  simp [(isMalformed_iff.mp hmalformed).2] at hparse

/-- The second text has the lines of the first one that are not malformed. -/
def WithoutMalformed (skipBlank : Bool) (text text' : String) : Prop :=
  Text.textLines text'.toList =
    (Text.textLines text.toList).filter fun line => !isMalformed skipBlank line

theorem exists_withoutMalformed (skipBlank : Bool) (text : String) :
    ∃ text', WithoutMalformed skipBlank text text' := by
  let lines := (Text.textLines text.toList).filter fun line => !isMalformed skipBlank line
  have hlines : ∀ line ∈ lines, '\n' ∉ line :=
    fun line hline => Text.lineFeed_not_mem_textLines (List.mem_of_mem_filter hline)
  refine ⟨String.ofList (Text.ofLines lines), ?_⟩
  rw [WithoutMalformed, String.toList_ofList, Text.textLines_ofLines hlines]

/-- Whether malformed lines are left out makes no difference to the keys of proper ids. -/
theorem WithoutMalformed.contains_eq {text' : String} {repo : RepoId}
    (h : WithoutMalformed skipBlank text text') (hrepo : repo.Proper) :
    (ofList (keptLines skipBlank text')).contains repo =
      (ofList (keptLines skipBlank text)).contains repo := by
  rw [Bool.eq_iff_iff, contains_ofList, contains_ofList, mem_keptLines, mem_keptLines, h]
  refine and_congr_right fun _ => ?_
  constructor
  · rintro ⟨line, hline, hkey⟩
    exact ⟨line, List.mem_of_mem_filter hline, hkey⟩
  · rintro ⟨line, hline, hkey⟩
    have htrim : Text.trim (String.ofList line) = repo.key := by
      rw [Text.trim, String.toList_ofList, hkey, RepoId.key]
    refine ⟨line, List.mem_filter.mpr ⟨hline, ?_⟩, hkey⟩
    simp [isMalformed, hrepo.parse_of_key htrim]

end SyncAudit.IdSet
