import Mathlib.Data.Finset.Card
import SyncAudit.IdSet
import SyncAudit.Proofs.Run
import SyncAudit.Proofs.Text.Lines

/-!
# The ids of a file

A file that is loaded leaves the set of its trimmed lines, blank ones among them only where they
are not passed over. A file that is not valid UTF-8 leaves nothing.
-/
namespace SyncAudit

/-- A key holds a slash, so it is not what a blank line leaves. -/
theorem RepoId.key_ne_empty (id : RepoId) : id.key ≠ "" := by
  intro h
  have hslash : '/' ∈ id.key.toList := by simp [key]
  rw [h] at hslash
  cases hslash

namespace IdSet

theorem mem_insert {set : IdSet} {id other : String} :
    other ∈ (set.insert id).ids ↔ other = id ∨ other ∈ set.ids := by
  rw [insert]
  split
  case isTrue hmem =>
    constructor
    · exact .inr
    · rintro (rfl | hother)
      · exact hmem
      · exact hother
  case isFalse => exact List.mem_cons

theorem mem_foldl_insert {ids : List String} {set : IdSet} {id : String} :
    id ∈ (ids.foldl insert set).ids ↔ id ∈ ids ∨ id ∈ set.ids := by
  induction ids generalizing set with
  | nil => simp
  | cons first rest ih =>
    rw [List.foldl_cons, ih, mem_insert, List.mem_cons]
    tauto

@[simp] theorem mem_ofList {ids : List String} {id : String} :
    id ∈ (ofList ids).ids ↔ id ∈ ids := by
  rw [ofList, mem_foldl_insert]
  simp [empty]

theorem size_ofList (ids : List String) : (ofList ids).size = ids.toFinset.card := by
  rw [size, ← List.toFinset_card_of_nodup (ofList ids).nodup]
  congr 1
  ext id
  simp

theorem contains_ofList {ids : List String} {id : RepoId} :
    (ofList ids).contains id = true ↔ id.ns ++ "/" ++ id.name ∈ ids := by
  rw [contains, decide_eq_true_iff, mem_ofList, RepoId.key]

/-- Whether a trimmed line is kept. -/
def keeps (skipBlank : Bool) (id : String) : Bool :=
  !(decide (id = "") && skipBlank)

/-- The trimmed lines of a text that are kept, in order. -/
def keptLines (skipBlank : Bool) (text : String) : List String :=
  ((Text.textLines text.toList).map fun line => String.ofList (Text.trimChars line)).filter
    (keeps skipBlank)

theorem keeps_eq_true_iff {skipBlank : Bool} {id : String} :
    keeps skipBlank id = true ↔ (skipBlank = true → id ≠ "") := by
  cases skipBlank <;> simp [keeps]

theorem mem_keptLines {skipBlank : Bool} {text id : String} :
    id ∈ keptLines skipBlank text ↔ (skipBlank = true → id ≠ "") ∧
      ∃ line ∈ Text.textLines text.toList, String.ofList (Text.trimChars line) = id := by
  rw [keptLines, List.mem_filter, keeps_eq_true_iff, List.mem_map]
  exact and_comm

/-- One line is inserted trimmed, passed over, or not text. -/
theorem addLines_cons_result (skipBlank : Bool) (number : Nat) (set : IdSet) (line : List UInt8)
    (rest : List (List UInt8)) :
    (addLines skipBlank number set (line :: rest)).result =
      match Text.trimmedLine? line with
      | none => .error (.io .invalidUtf8)
      | some cs =>
        (addLines skipBlank (number + 1)
          (if keeps skipBlank (String.ofList cs) then set.insert (String.ofList cs) else set)
          rest).result := by
  rw [addLines, Text.ofBytes?, Text.trimmedLine?]
  cases Text.Utf8.decode? line with
  | none => rfl
  | some cs =>
    simp only [Option.map_some, Text.trim, String.toList_ofList]
    generalize String.ofList (Text.trimChars cs) = id
    by_cases hblank : id = "" ∧ skipBlank = true
    · obtain ⟨rfl, rfl⟩ := hblank
      simp [keeps]
    · have hkept : keeps skipBlank id = true := by simpa [keeps, imp_iff_not_or] using hblank
      rw [if_neg hblank, if_pos hkept]
      split
      · rw [Run.log_bind_result]
      · rfl

theorem addLines_result {skipBlank : Bool} {number : Nat} {set out : IdSet}
    {lines : List (List UInt8)} :
    (addLines skipBlank number set lines).result = .ok out ↔
      ∃ trimmed, lines.mapM Text.trimmedLine? = some trimmed ∧
        out = ((trimmed.map String.ofList).filter (keeps skipBlank)).foldl insert set := by
  induction lines generalizing number set with
  | nil => simp [addLines, eq_comm]
  | cons line rest ih =>
    rw [addLines_cons_result, List.mapM_cons]
    cases Text.trimmedLine? line with
    | none => simp
    | some cs =>
      simp only [ih, Option.pure_def, Option.bind_eq_bind, Option.bind_some,
        Option.bind_eq_some_iff, Option.some.injEq]
      constructor
      · rintro ⟨later, hlater, rfl⟩
        refine ⟨cs :: later, ⟨later, hlater, rfl⟩, ?_⟩
        rw [List.map_cons, List.filter_cons]
        split <;> rfl
      · rintro ⟨_, ⟨later, hlater, rfl⟩, rfl⟩
        refine ⟨later, hlater, ?_⟩
        rw [List.map_cons, List.filter_cons]
        split <;> rfl

theorem read_result {skipBlank : Bool} {bytes : List UInt8} {set : IdSet} :
    (read skipBlank bytes).result = .ok set ↔
      ∃ text, Text.ofBytes? bytes = some text ∧ set = ofList (keptLines skipBlank text) := by
  rw [read, addLines_result, Text.lines_trimmed, Text.trimmedLines?, Text.ofBytes?]
  cases Text.Utf8.decode? bytes with
  | none => simp
  | some cs =>
    simp only [Option.map_some, Option.some.injEq, exists_eq_left', keptLines, ofList,
      String.toList_ofList, List.map_map]
    rfl

/-- A file is loaded if it can be read and is text, and leaves the set of its kept lines. -/
theorem load_result {fs : FileSystem} {skipBlank : Bool} {path : Path} {set : IdSet} :
    (load fs skipBlank path).result = .ok set ↔
      ∃ bytes text, fs.read path = .ok bytes ∧ Text.ofBytes? bytes = some text ∧
        set = ofList (keptLines skipBlank text) := by
  rw [load]
  cases hread : fs.read path with
  | error e => simp
  | ok bytes =>
    simp only [Except.ok.injEq, exists_and_left, exists_eq_left', ← read_result]
    cases (read skipBlank bytes).result <;> simp

end IdSet
end SyncAudit
