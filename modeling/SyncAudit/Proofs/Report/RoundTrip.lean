import SyncAudit.Proofs.Json.Printing
import SyncAudit.Proofs.Text.Encoding
import SyncAudit.Proofs.Timestamp.Text
import SyncAudit.Report.Decode

/-!
# Exported reports read back

A report whose paths are all text is exported as JSON from which it is read back whole, in either
form. The reader is not told what the writer put in front of the report, and passes over it.
-/
namespace SyncAudit

open Json

variable {d : Nat}

/-! ## Members and counters -/

theorem Json.field_of_lookup {α : Type} {item : Decoder α} {members : List (String × Json)}
    {name : String} {v : Json} {a : α} (hv : lookup? members name = some v)
    (ha : item v = .ok a) : field? members name item = .ok (some a) := by
  rw [field?, hv]
  simp only [ha]
  rfl

theorem Json.asCount_ofNat {n : Nat} (hn : n < 2 ^ 64) : asCount (.ofNat n) = .ok n := by
  have hfits : (0 : Int) ≤ n ∧ (n : Int) < 0x10000000000000000 := by omega
  rw [Json.ofNat, asCount, if_pos hfits, Int.toNat_natCast]

theorem Json.spellable_count {n : Nat} (hn : n < 2 ^ 64) : Spellable d (.ofNat n) :=
  spellable_ofNat (Nat.le_of_lt_succ hn)

/-! ## Parts of a report -/

theorem RepoId.ofJson_toJson (id : RepoId) : RepoId.ofJson id.toJson = .ok id := by
  rfl

theorem RepoId.spellable_toJson (id : RepoId) : Spellable (d + 1) id.toJson :=
  spellable_object (by simp [spellable_string])

theorem RepoStatus.ofJson_label (status : RepoStatus) :
    RepoStatus.ofJson (.string status.label) = .ok status := by
  cases status <;> rfl

/-- An entry with a path that is text is written, and read back from what was written. -/
theorem RepoEntry.toJson_spec {entry : RepoEntry} {path : String}
    (hpath : Text.ofBytes? entry.path.bytes = some path) :
    ∃ json, entry.toJson = .ok json ∧ RepoEntry.ofJson json = .ok entry ∧
      Spellable (d + 2) json := by
  refine ⟨_, by rw [RepoEntry.toJson, hpath], ?_, spellable_object ?_⟩
  · have hread : asPath (.string path) = .ok entry.path := by
      rw [asPath, Path.ofString, Text.toBytes_of_ofBytes hpath]
    simp only [RepoEntry.ofJson, asStruct]
    rw [field_of_lookup rfl entry.id.ofJson_toJson, field_of_lookup rfl entry.status.ofJson_label,
      field_of_lookup rfl hread]
    rfl
  · simp [spellable_string, RepoId.spellable_toJson]

theorem Report.entriesToJson_spec {entries : List RepoEntry}
    (hpaths : ∀ entry ∈ entries, ∃ path, Text.ofBytes? entry.path.bytes = some path) :
    ∃ items, entriesToJson entries = .ok items ∧
      decodeAll RepoEntry.ofJson items = .ok entries ∧ ∀ item ∈ items, Spellable (d + 2) item := by
  induction entries with
  | nil => exact ⟨[], rfl, rfl, by simp⟩
  | cons entry rest ih =>
    obtain ⟨⟨path, hpath⟩, hrest⟩ := List.forall_mem_cons.mp hpaths
    obtain ⟨item, hitem, hentry, hspell⟩ := RepoEntry.toJson_spec (d := d) hpath
    obtain ⟨items, hitems, hentries, hspells⟩ := ih hrest
    refine ⟨item :: items, ?_, ?_, List.forall_mem_cons.mpr ⟨hspell, hspells⟩⟩
    · rw [entriesToJson, hitem, hitems]
      rfl
    · rw [decodeAll, hentry, hentries]
      rfl

/-- One path that is not text is enough for the entries not to be written. -/
theorem Report.entriesToJson_of_undecodable {entries : List RepoEntry} {entry : RepoEntry}
    (hentry : entry ∈ entries) (hpath : Text.ofBytes? entry.path.bytes = none) :
    entriesToJson entries = .error .undecodablePath := by
  induction entries with
  | nil => simp at hentry
  | cons first rest ih =>
    rw [entriesToJson]
    cases hfirst : first.toJson with
    | error e =>
      cases e
      rfl
    | ok item =>
      rcases List.mem_cons.mp hentry with rfl | hrest
      · rw [RepoEntry.toJson, hpath] at hfirst
        cases hfirst
      · rw [ih hrest]
        rfl

/-- The counters fit 64 bits. -/
structure Summary.Fits (s : Summary) : Prop where
  valid : s.valid < 2 ^ 64
  validWithConfig : s.validWithConfig < 2 ^ 64
  invalid : s.invalid < 2 ^ 64

theorem Summary.ofJson_toJson {s : Summary} (hfits : s.Fits) :
    Summary.ofJson s.toJson = .ok s := by
  simp only [Summary.ofJson, Summary.toJson, asStruct]
  rw [field_of_lookup rfl (asCount_ofNat hfits.invalid),
    field_of_lookup rfl (asCount_ofNat hfits.valid),
    field_of_lookup rfl (asCount_ofNat hfits.validWithConfig)]
  rfl

theorem Summary.spellable_toJson {s : Summary} (hfits : s.Fits) : Spellable (d + 1) s.toJson := by
  refine spellable_object ?_
  simpa using ⟨spellable_count hfits.valid, spellable_count hfits.validWithConfig,
    spellable_count hfits.invalid⟩

/-! ## Whole reports -/

namespace Report

variable {r : Report}

/-- The counters of a report fit 64 bits, whatever they say about its entries. -/
structure CountsFit (r : Report) : Prop where
  summary : r.summary.Fits
  validIdsLoaded : r.validIdsLoaded < 2 ^ 64
  entries : r.entries.length < 2 ^ 64

/-- So do they, and the year of the report has four digits. -/
structure Fits (r : Report) : Prop extends r.CountsFit where
  year_nonneg : 0 ≤ r.generatedAt.date.year
  year_le : r.generatedAt.date.year ≤ 9999

/-- Every path of the report is text. -/
def TextPaths (r : Report) : Prop :=
  ∀ entry ∈ r.entries, ∃ path, Text.ofBytes? entry.path.bytes = some path

/-- The value that a report is written as, with what it holds in front of the report itself. -/
structure Holds (r : Report) (json : Json) : Prop where
  report : ofJson json = .ok r
  total_repos : json.member? "total_repos" = some (.ofNat r.entries.length)
  stale_repos : json.member? "stale_repos" =
    some (.strings ((r.entries.filter fun entry => entry.status = .invalid).map (·.id.key)))

/-- The value that a report is written as, with the given values for its entries. -/
def exported (r : Report) (items : List Json) : Json :=
  .object [("total_repos", .ofNat r.total), ("stale_repos", .strings (r.stale.map (·.id.key))),
    ("summary", r.summary.toJson), ("valid_ids_loaded", .ofNat r.validIdsLoaded),
    ("entries", .array items), ("generated_at", .string r.generatedAt.toString)]

theorem toJson_of_entries {items : List Json} (hitems : entriesToJson r.entries = .ok items) :
    r.toJson = .ok (r.exported items) := by
  rw [toJson, members, hitems]
  rfl

theorem toJson_of_undecodable {entry : RepoEntry} (hentry : entry ∈ r.entries)
    (hpath : Text.ofBytes? entry.path.bytes = none) : r.toJson = .error .undecodablePath := by
  rw [toJson, members, entriesToJson_of_undecodable hentry hpath]
  rfl

/-- Whether a report can be exported is up to its paths alone. -/
theorem render_eq_error_iff {pretty : Bool} : (∃ e, r.render pretty = .error e) ↔
    ∃ entry ∈ r.entries, Text.ofBytes? entry.path.bytes = none := by
  constructor
  · rintro ⟨e, he⟩
    refine Classical.byContradiction fun hnone => ?_
    have hpaths : r.TextPaths := fun entry hentry =>
      Option.ne_none_iff_exists'.mp fun hpath => hnone ⟨entry, hentry, hpath⟩
    obtain ⟨items, hitems, -⟩ := entriesToJson_spec (d := 0) hpaths
    rw [render, toJson_of_entries hitems] at he
    cases he
  · rintro ⟨entry, hentry, hpath⟩
    exact ⟨_, by rw [render, toJson_of_undecodable hentry hpath]⟩

theorem textPaths_of_render {pretty : Bool} {text : String} (h : r.render pretty = .ok text) :
    r.TextPaths := by
  intro entry hentry
  refine Option.ne_none_iff_exists'.mp fun hnone => ?_
  obtain ⟨e, he⟩ := render_eq_error_iff.mpr ⟨entry, hentry, hnone⟩
  rw [he] at h
  cases h

theorem holds_exported (hfits : r.Fits) {items : List Json}
    (hentries : decodeAll RepoEntry.ofJson items = .ok r.entries) : r.Holds (r.exported items) := by
  have hlist : asList RepoEntry.ofJson (.array items) = .ok r.entries := hentries
  have hmoment : asTimestamp (.string r.generatedAt.toString) = .ok r.generatedAt := by
    rw [asTimestamp, r.generatedAt.parse_toString hfits.year_nonneg hfits.year_le]
    rfl
  refine ⟨?_, rfl, rfl⟩
  simp only [ofJson, exported, asStruct]
  rw [field_of_lookup rfl hlist, field_of_lookup rfl hmoment,
    field_of_lookup rfl (Summary.ofJson_toJson hfits.summary),
    field_of_lookup rfl (asCount_ofNat hfits.validIdsLoaded)]
  rfl

theorem spellable_exported (hfits : r.CountsFit) {items : List Json}
    (hspells : ∀ item ∈ items, Spellable (d + 2) item) : Spellable (d + 4) (r.exported items) := by
  refine spellable_object ?_
  simpa [spellable_string, spellable_strings] using ⟨spellable_count hfits.entries,
    Summary.spellable_toJson hfits.summary, spellable_count hfits.validIdsLoaded,
    spellable_array hspells⟩

/-- A report with text paths is written as a value that can be spelled and holds its entries. -/
theorem toJson_spec (hfits : r.CountsFit) (hpaths : r.TextPaths) :
    ∃ items, decodeAll RepoEntry.ofJson items = .ok r.entries ∧
      r.toJson = .ok (r.exported items) ∧ Spellable maxDepth (r.exported items) := by
  obtain ⟨items, hitems, hentries, hspells⟩ := entriesToJson_spec (d := 123) hpaths
  exact ⟨items, hentries, toJson_of_entries hitems, spellable_exported hfits hspells⟩

theorem render_of_toJson {json : Json} (h : r.toJson = .ok json) (pretty : Bool) :
    r.render pretty = .ok (if pretty then json.pretty else json.compact) := by
  rw [render, h]

/-- A text that a report was exported as is that of its value, and is read back as that value where
the counters fit. -/
theorem parse_of_render {pretty : Bool} {text : String} (h : r.render pretty = .ok text) :
    ∃ items, entriesToJson r.entries = .ok items ∧
      text = (if pretty then (r.exported items).pretty else (r.exported items).compact) ∧
      (r.CountsFit → parse text = some (r.exported items)) := by
  obtain ⟨items, hitems, -, hspells⟩ := entriesToJson_spec (d := 123) (textPaths_of_render h)
  rw [render_of_toJson (toJson_of_entries hitems)] at h
  obtain rfl := Except.ok.inj h
  refine ⟨items, hitems, rfl, fun hfits => ?_⟩
  obtain ⟨cs, hcs⟩ : Spellable maxDepth (r.exported items) := spellable_exported hfits hspells
  cases pretty
  · exact hcs.parse_compact
  · exact hcs.parse_pretty

/-- Both texts of a report with text paths hold the report, the number of its entries and the keys
of its stale ones, and nothing but a path that is not text makes the export of a report fail. The
compact text has no control characters, and so no line breaks. -/
theorem render_reads_back (r : Report) :
    (∀ pretty, (∃ e, r.render pretty = .error e) ↔
      ∃ entry ∈ r.entries, Text.ofBytes? entry.path.bytes = none) ∧
    (r.Fits → r.TextPaths → ∃ json compact pretty,
      r.render false = .ok compact ∧ r.render true = .ok pretty ∧
      parse compact = some json ∧ parse pretty = some json ∧ r.Holds json ∧
      ∀ c ∈ compact.toList, 0x20 ≤ c.toNat) := by
  refine ⟨fun _ => render_eq_error_iff, fun hfits hpaths => ?_⟩
  obtain ⟨items, hentries, hjson, cs, hcs⟩ := toJson_spec hfits.toCountsFit hpaths
  have hline : Printable (r.exported items).compact.toList := by
    rw [Json.compact, String.toList_ofList]
    exact hcs.printable_compact
  exact ⟨r.exported items, _, _, render_of_toJson hjson false, render_of_toJson hjson true,
    hcs.parse_compact, hcs.parse_pretty, holds_exported hfits hentries, hline⟩

/-- A report whose counters do not go with its entry, whose texts need escapes, and which was made
in a leap second. -/
def oddReport : Report where
  summary := ⟨7, 0, 0⟩
  validIdsLoaded := 3
  entries := [⟨⟨"acme", "ro\"ck\n"⟩, .ofString "sync/acme/ro\"ck\n", .invalid⟩]
  generatedAt := ⟨⟨9999, 12, 31⟩, ⟨23, 59, 60, 120000000⟩, by decide, by decide⟩

theorem oddReport_reads_back : oddReport.Fits ∧ oddReport.TextPaths ∧ ∃ json compact pretty,
    oddReport.render false = .ok compact ∧ oddReport.render true = .ok pretty ∧
      parse compact = some json ∧ parse pretty = some json ∧ oddReport.Holds json ∧
      ∀ c ∈ compact.toList, 0x20 ≤ c.toNat := by
  have hfits : oddReport.Fits := by
    refine ⟨⟨⟨?_, ?_, ?_⟩, ?_, ?_⟩, ?_, ?_⟩ <;> decide
  have hpaths : oddReport.TextPaths := by
    intro entry hentry
    obtain rfl := List.mem_singleton.mp hentry
    exact ⟨"sync/acme/ro\"ck\n", by rfl⟩
  exact ⟨hfits, hpaths, (render_reads_back oddReport).2 hfits hpaths⟩

end Report

end SyncAudit
