import SyncAudit.Proofs.Audit.Classification

/-!
# Audits under other settings

Two settings steer the walk. The others leave it as it is: they decide whether blank lines of the id
list are kept, which never equal a key, where the marker of a valid repository is looked for, and
what is shown and written. So two audits that agree on the walk find the same repositories and call
the same ones invalid.
-/
namespace SyncAudit

variable {fs : FileSystem} {options options' : AuditOptions} {root : Path}

/-- Options under which the walk takes the same way. -/
structure AuditOptions.SameWalk (options options' : AuditOptions) : Prop where
  skipHidden : options.skipHidden = options'.skipHidden
  followLinks : options.followLinks = options'.followLinks

namespace Scan

theorem sift_congr (h : options.SameWalk options') (path : Path) (n : Name) :
    sift options path n = sift options' path n := by
  rw [sift, sift, h.skipHidden]

theorem follow_congr (h : options.SameWalk options') (above : List Ancestor) (path : Path)
    (n : Name) : follow fs options above path n = follow fs options' above path n := by
  simp only [follow, sift_congr h]

theorem visit_congr (h : options.SameWalk options') (above : List Ancestor) (dir : Path)
    (dirLoc : Location) (n : Name) :
    visit fs options above dir dirLoc n = visit fs options' above dir dirLoc n := by
  simp only [visit, sift_congr h, follow_congr h, h.followLinks]

theorem scanNamespace_congr (h : options.SameWalk options') (top : Ancestor) (path : Path) :
    scanNamespace fs options top path = scanNamespace fs options' top path := by
  simp only [scanNamespace, visit_congr h]

theorem scanDirectory_congr (h : options.SameWalk options') (root : Path) :
    scanDirectory fs options root = scanDirectory fs options' root := by
  simp only [scanDirectory, visit_congr h, scanNamespace_congr h]

/-- A scan depends on the two options of the walk only. -/
theorem scan_congr (h : options.SameWalk options') (root : Path) :
    scan fs options root = scan fs options' root := by
  simp only [scan, scanRoot, scanDirectory_congr h, h.followLinks]

end Scan

namespace IdSet

/-- Where blank lines are not kept, the other lines are the same. -/
theorem mem_keptLines_iff {skipBlank : Bool} {text id : String} :
    id ∈ keptLines skipBlank text ↔
      id ∈ keptLines false text ∧ (id = "" → skipBlank = false) := by
  rw [mem_keptLines, mem_keptLines]
  cases skipBlank <;> simp [and_comm]

theorem toFinset_keptLines_true (text : String) :
    (keptLines true text).toFinset = (keptLines false text).toFinset.erase "" := by
  ext id
  rw [List.mem_toFinset, mem_keptLines_iff, Finset.mem_erase, List.mem_toFinset]
  simp [and_comm]

/-- Blank lines count for one id at most. -/
theorem card_keptLines_le (skipBlank skipBlank' : Bool) (text : String) :
    (keptLines skipBlank text).toFinset.card ≤ (keptLines skipBlank' text).toFinset.card + 1 := by
  have herase := toFinset_keptLines_true text
  have hle : ((keptLines false text).toFinset.erase "").card ≤
      (keptLines false text).toFinset.card := Finset.card_erase_le
  have hge : (keptLines false text).toFinset.card - 1 ≤
      ((keptLines false text).toFinset.erase "").card := Finset.pred_card_le_card_erase
  cases skipBlank <;> cases skipBlank' <;> rw [herase] at * <;> omega

end IdSet

theorem IdSet.contains_keptLines (skipBlank skipBlank' : Bool) (text : String) (id : RepoId) :
    (ofList (keptLines skipBlank text)).contains id =
      (ofList (keptLines skipBlank' text)).contains id := by
  rw [contains, contains, decide_eq_decide, mem_ofList, mem_ofList, @mem_keptLines_iff skipBlank,
    @mem_keptLines_iff skipBlank']
  simp [id.key_ne_empty]

theorem classify_congr {valid valid' : IdSet} {marker : Path} {repo : FoundRepo}
    (h : valid.contains repo.id = valid'.contains repo.id) :
    classify fs valid marker repo = classify fs valid' marker repo := by
  rw [classify, classify, h]

/-- Two reports about the same repositories, the same of them invalid. -/
structure Report.SameRepos (r r' : Report) : Prop where
  places : r.entries.map (fun entry => (entry.id, entry.path)) =
    r'.entries.map fun entry => (entry.id, entry.path)
  invalid_iff : r.entries.Forall₂
    (fun entry entry' => entry.status = .invalid ↔ entry'.status = .invalid) r'.entries
  stale : r.stale = r'.stale
  valid : r.summary.valid = r'.summary.valid
  invalid : r.summary.invalid = r'.summary.invalid

/-- The stale entries can be told from the verdicts. -/
theorem Report.stale_eq_of_verdicts (r : Report) :
    r.stale = ((r.entries.map RepoEntry.verdict).filter Prod.snd).map
      fun v => ⟨v.1.id, v.1.path, .invalid⟩ := by
  rw [List.filter_map, List.map_map, stale]
  have hback : ∀ entry ∈ r.entries.filter fun entry => entry.status = .invalid,
      (⟨entry.id, entry.path, .invalid⟩ : RepoEntry) = entry := by
    intro entry hentry
    rw [← of_decide_eq_true (List.mem_filter.mp hentry).2]
  exact ((List.map_congr_left hback).trans (List.map_id _)).symm

theorem Report.sameRepos_of_verdicts {r r' : Report} (hr : r.Counted) (hr' : r'.Counted)
    (h : r.entries.map RepoEntry.verdict = r'.entries.map RepoEntry.verdict) : r.SameRepos r' := by
  constructor
  case places =>
    have hplaces := congrArg (List.map fun v => (v.1.id, v.1.path)) h
    rwa [List.map_map, List.map_map] at hplaces
  case invalid_iff =>
    rw [← List.forall₂_eq_eq_eq, List.forall₂_map_left_iff, List.forall₂_map_right_iff] at h
    exact h.imp fun entry entry' hsame => decide_eq_decide.mp (Prod.mk.inj hsame).2
  case stale => rw [stale_eq_of_verdicts, stale_eq_of_verdicts, h]
  case valid => rw [hr.valid_of_verdicts, hr'.valid_of_verdicts, h]
  case invalid => rw [hr.invalid_of_verdicts, hr'.invalid_of_verdicts, h]

theorem Report.Counted.summary_eq {r r' : Report} (hr : r.Counted) (hr' : r'.Counted)
    (h : r.entries = r'.entries) : r.summary = r'.summary := by
  have hvalid : r.summary.valid = r'.summary.valid := by rw [hr.valid, hr'.valid, h]
  have hconfigured : r.summary.validWithConfig = r'.summary.validWithConfig := by
    rw [hr.configured, hr'.configured, h]
  have hinvalid : r.summary.invalid = r'.summary.invalid := by rw [hr.invalid, hr'.invalid, h]
  calc r.summary
      = ⟨r.summary.valid, r.summary.validWithConfig, r.summary.invalid⟩ := rfl
    _ = r'.summary := by rw [hvalid, hconfigured, hinvalid]

variable {style style' : ProgressStyle} {now now' : Timestamp}

/-- Two audits against sets that agree on keys, and whose walks take the same way. -/
theorem auditAgainst_sameRepos {valid valid' : IdSet} (hwalk : options.SameWalk options')
    (hkeys : ∀ id, valid.contains id = valid'.contains id) {out out' : Audited}
    (h : (auditAgainst fs options style now valid root).result = .ok out)
    (h' : (auditAgainst fs options' style' now' valid' root).result = .ok out') :
    out.report.SameRepos out'.report ∧
      (options.configMarker = options'.configMarker →
        out.report.entries = out'.report.entries ∧ out.report.summary = out'.report.summary) := by
  obtain ⟨repos, hrepos, hentries, hcounted, -⟩ := auditAgainst_result h
  obtain ⟨repos', hrepos', hentries', hcounted', -⟩ := auditAgainst_result h'
  rw [Scan.scan_congr hwalk, hrepos'] at hrepos
  obtain rfl := Except.ok.inj hrepos
  constructor
  · apply Report.sameRepos_of_verdicts hcounted hcounted'
    rw [classify_verdicts hentries, classify_verdicts hentries']
    simp only [hkeys]
  · intro hmarker
    have hsame : out.report.entries = out'.report.entries := by
      simp only [hmarker, classify_congr (hkeys _)] at hentries
      refine List.right_unique_forall₂' ?_ hentries hentries'
      intro repo entry entry' hentry hentry'
      exact Except.ok.inj (hentry.symm.trans hentry')
    exact ⟨hsame, hcounted.summary_eq hcounted' hsame⟩

/-- Two audits that agree on the settings of the walk find the same repositories and the same of
them invalid. Only the marker can make a difference among those that are valid, and only the setting
for blank lines a difference, of one, in the number of ids. -/
theorem reports_of_other_settings {settings settings' : Settings} {ids : Path}
    (hwalk : settings.audit.SameWalk settings'.audit) {out out' : Audited}
    (h : (audit fs settings.audit style now ids root).result = .ok out)
    (h' : (audit fs settings'.audit style' now' ids root).result = .ok out') :
    out.report.SameRepos out'.report ∧
      (settings.audit.configMarker = settings'.audit.configMarker →
        out.report.entries = out'.report.entries ∧ out.report.summary = out'.report.summary) ∧
      out.report.validIdsLoaded ≤ out'.report.validIdsLoaded + 1 ∧
      out'.report.validIdsLoaded ≤ out.report.validIdsLoaded + 1 ∧
      (settings.audit.skipBlankLines = settings'.audit.skipBlankLines →
        out.report.validIdsLoaded = out'.report.validIdsLoaded) := by
  obtain ⟨-, -, valid, hvalid, hagainst⟩ := audit_result.mp h
  obtain ⟨-, -, valid', hvalid', hagainst'⟩ := audit_result.mp h'
  obtain ⟨bytes, text, hbytes, htext, rfl⟩ := IdSet.load_result.mp hvalid
  obtain ⟨bytes', text', hbytes', htext', rfl⟩ := IdSet.load_result.mp hvalid'
  obtain rfl : bytes = bytes' := Except.ok.inj (hbytes.symm.trans hbytes')
  obtain rfl : text = text' := Option.some.inj (htext.symm.trans htext')
  obtain ⟨hsame, hentries⟩ := auditAgainst_sameRepos hwalk
    (IdSet.contains_keptLines settings.audit.skipBlankLines settings'.audit.skipBlankLines text)
    hagainst hagainst'
  obtain ⟨-, -, -, -, hloaded⟩ := auditAgainst_result hagainst
  obtain ⟨-, -, -, -, hloaded'⟩ := auditAgainst_result hagainst'
  rw [IdSet.size_ofList] at hloaded hloaded'
  rw [hloaded, hloaded']
  refine ⟨hsame, hentries, IdSet.card_keptLines_le .., IdSet.card_keptLines_le .., ?_⟩
  intro hskip
  rw [hskip]

def markedSettings : Settings :=
  ⟨⟨.ofString "on", true, false, true⟩, .default⟩

/-- Settings with another marker, under which blank lines of the id list are kept. -/
def plainSettings : Settings :=
  ⟨⟨.ofString "off", false, false, true⟩, ⟨false, false⟩⟩

def plainReport : Report where
  summary := ⟨1, 0, 1⟩
  validIdsLoaded := 2
  entries :=
    [⟨⟨"acme", "old"⟩, .ofString "sync/acme/old", .invalid⟩,
      ⟨⟨"acme", "widgets"⟩, .ofString "sync/acme/widgets", .valid⟩]
  generatedAt := .epoch

theorem markedShelf_plain :
    (audit markedShelf plainSettings.audit .colored .epoch (.ofString "ids")
      (.ofString "sync")).result = .ok ⟨plainReport, ⟨.hidden, 2, ⟨1, 0, 1⟩⟩⟩ := by
  decide +kernel

theorem markedShelf_sameRepos :
    markedSettings.audit.SameWalk plainSettings.audit ∧
      markedShelfReport.SameRepos plainReport ∧
      plainReport.validIdsLoaded ≤ markedShelfReport.validIdsLoaded + 1 := by
  have hwalk : markedSettings.audit.SameWalk plainSettings.audit := ⟨rfl, rfl⟩
  obtain ⟨hsame, -, -, hloaded, -⟩ :=
    reports_of_other_settings hwalk markedShelf_audited markedShelf_plain
  exact ⟨hwalk, hsame, hloaded⟩

end SyncAudit
