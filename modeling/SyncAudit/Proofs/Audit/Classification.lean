import SyncAudit.Audit
import SyncAudit.FileSystem.Fixture
import SyncAudit.Proofs.IdSet.Loading

/-!
# What a report says

The entries of an audit that succeeds are the found repositories, classified one by one, and its
counts are those of its entries.
-/
namespace SyncAudit

/-- The status of an entry follows from the ids that count as valid and from whether the marker
stands below the entry's path. -/
structure RepoEntry.Justified (fs : FileSystem) (ids : List String) (marker : Path)
    (entry : RepoEntry) : Prop where
  invalid : entry.status = .invalid ↔ entry.id.ns ++ "/" ++ entry.id.name ∉ ids
  configured : entry.status = .validWithConfig ↔
    entry.id.ns ++ "/" ++ entry.id.name ∈ ids ∧
      ∃ node, fs.stat (entry.path.join marker) = .ok node
  unconfigured : entry.status = .valid ↔
    entry.id.ns ++ "/" ++ entry.id.name ∈ ids ∧
      fs.stat (entry.path.join marker) = .error (.os .noEntry)

/-- What is pushed comes behind the entries that are there. -/
theorem Report.entries_foldl_push (entries : List RepoEntry) (r : Report) :
    (entries.foldl Report.push r).entries = r.entries ++ entries := by
  induction entries generalizing r with
  | nil => exact (List.append_nil r.entries).symm
  | cons entry rest ih =>
    rw [List.foldl_cons, ih, push, List.append_assoc, List.singleton_append]

theorem Report.validIdsLoaded_foldl_push (entries : List RepoEntry) (r : Report) :
    (entries.foldl Report.push r).validIdsLoaded = r.validIdsLoaded := by
  induction entries generalizing r with
  | nil => rfl
  | cons entry rest ih => exact ih (r.push entry)

/-- The counts of a report are those of its entries. -/
structure Report.Counted (r : Report) : Prop where
  valid : r.summary.valid = r.entries.countP fun entry => entry.status ≠ .invalid
  configured : r.summary.validWithConfig =
    r.entries.countP fun entry => entry.status = .validWithConfig
  invalid : r.summary.invalid = r.entries.countP fun entry => entry.status = .invalid

theorem Report.counted_start (validIdsLoaded : Nat) (now : Timestamp) :
    (Report.start validIdsLoaded now).Counted :=
  ⟨rfl, rfl, rfl⟩

theorem Report.Counted.push {r : Report} (h : r.Counted) (entry : RepoEntry) :
    (r.push entry).Counted := by
  constructor
  all_goals
    simp only [Report.push, List.countP_append, List.countP_singleton]
    cases hstatus : entry.status <;> simp [Summary.record, h.valid, h.configured, h.invalid]

theorem Report.Counted.foldl_push {r : Report} (h : r.Counted) (entries : List RepoEntry) :
    (entries.foldl Report.push r).Counted := by
  induction entries generalizing r with
  | nil => exact h
  | cons entry rest ih => exact ih (h.push entry)

theorem Report.Counted.valid_add_invalid {r : Report} (h : r.Counted) :
    r.summary.valid + r.summary.invalid = r.entries.length := by
  rw [h.valid, h.invalid, List.length_eq_countP_add_countP fun entry => entry.status ≠ .invalid]
  simp

theorem Report.Counted.invalid_eq_length_stale {r : Report} (h : r.Counted) :
    r.summary.invalid = r.stale.length := by
  rw [h.invalid, stale, List.countP_eq_length_filter]

/-- Plain absence is a no, and any other failure to look is a failure. -/
theorem FileSystem.exists_eq_ok_iff {fs : FileSystem} {p : Path} {found : Bool} :
    fs.exists? p = .ok found ↔
      found = true ∧ (∃ node, fs.stat p = .ok node) ∨
        found = false ∧ fs.stat p = .error (.os .noEntry) := by
  rw [FileSystem.exists?]
  cases hstat : fs.stat p with
  | ok node => simp [eq_comm]
  | error e =>
    by_cases he : e = .os .noEntry
    · simp [he, eq_comm]
    · split <;> simp_all

theorem hasMarker_eq_ok_iff {fs : FileSystem} {marker repo : Path} {found : Bool} :
    hasMarker fs marker repo = .ok found ↔
      found = true ∧ (∃ node, fs.stat (repo.join marker) = .ok node) ∨
        found = false ∧ fs.stat (repo.join marker) = .error (.os .noEntry) := by
  rw [← FileSystem.exists_eq_ok_iff, hasMarker]
  cases fs.exists? (repo.join marker) <;> simp [Except.mapError]

theorem FileSystem.exists_eq_error_iff {fs : FileSystem} {p : Path} {e : IoError} :
    fs.exists? p = .error e ↔ e ≠ .os .noEntry ∧ fs.stat p = .error e := by
  rw [FileSystem.exists?]
  cases hstat : fs.stat p with
  | ok node => simp
  | error err =>
    split
    case h_1 heq => cases heq
    case h_2 heq =>
      obtain rfl := Except.error.inj heq
      simpa using fun hpresent heq => hpresent heq.symm
    case h_3 hpresent heq =>
      obtain rfl := Except.error.inj heq
      constructor
      · intro hsame
        obtain rfl := Except.error.inj hsame
        exact ⟨hpresent, rfl⟩
      · rintro ⟨-, hsame⟩
        rw [Except.error.inj hsame]

theorem hasMarker_eq_error_iff {fs : FileSystem} {marker repo : Path} {e : AuditError} :
    hasMarker fs marker repo = .error e ↔ ∃ err, err ≠ .os .noEntry ∧
      fs.stat (repo.join marker) = .error err ∧ e = .fileOperation (repo.join marker) err := by
  simp only [← and_assoc, ← FileSystem.exists_eq_error_iff, hasMarker]
  cases fs.exists? (repo.join marker) <;> simp [Except.mapError, eq_comm]

/-- A repository is looked up by its key, and its marker is looked for only if it is found. -/
theorem classify_eq_ok_iff {fs : FileSystem} {valid : IdSet} {marker : Path} {repo : FoundRepo}
    {entry : RepoEntry} :
    (classify fs valid marker repo).result = .ok entry ↔
      (⟨entry.id, entry.path⟩ : FoundRepo) = repo ∧
        if valid.contains repo.id = true then
          ∃ configured, hasMarker fs marker repo.path = .ok configured ∧
            entry.status = if configured then .validWithConfig else .valid
        else entry.status = .invalid := by
  obtain ⟨id, path, status⟩ := entry
  obtain ⟨id', path'⟩ := repo
  rw [classify, Run.log_bind_result]
  by_cases hkey : valid.contains id' = true
  · simp only [if_pos hkey, Run.log_bind_result, Run.bind_result_eq_ok, Run.result_ofExcept,
      Run.result_pure, Except.ok.injEq, RepoEntry.mk.injEq, FoundRepo.mk.injEq]
    constructor
    · rintro ⟨configured, hmarker, rfl, rfl, rfl⟩
      exact ⟨⟨rfl, rfl⟩, configured, hmarker, rfl⟩
    · rintro ⟨⟨rfl, rfl⟩, configured, hmarker, rfl⟩
      exact ⟨configured, hmarker, rfl, rfl, rfl⟩
  · simp only [if_neg hkey, Run.log_bind_result, Run.result_pure, Except.ok.injEq,
      RepoEntry.mk.injEq, FoundRepo.mk.injEq]
    constructor
    · rintro ⟨rfl, rfl, rfl⟩
      exact ⟨⟨rfl, rfl⟩, rfl⟩
    · rintro ⟨⟨rfl, rfl⟩, rfl⟩
      exact ⟨rfl, rfl, rfl⟩

/-- Nothing but the look for the marker of a valid repository can fail. -/
theorem classify_eq_error_iff {fs : FileSystem} {valid : IdSet} {marker : Path} {repo : FoundRepo}
    {e : AuditError} :
    (classify fs valid marker repo).result = .error e ↔
      valid.contains repo.id = true ∧ hasMarker fs marker repo.path = .error e := by
  rw [classify, Run.log_bind_result]
  split
  case isFalse hkey => simp [hkey]
  case isTrue hkey =>
    rw [Run.log_bind_result]
    cases hmarker : hasMarker fs marker repo.path with
    | ok found => simp [Run.bind_of_ok (Run.result_ofExcept _)]
    | error e' => simp [hkey, Run.bind_of_error (Run.result_ofExcept _)]

theorem classify_result {fs : FileSystem} {ids : List String} {marker : Path} {repo : FoundRepo}
    {entry : RepoEntry} (h : (classify fs (.ofList ids) marker repo).result = .ok entry) :
    (⟨entry.id, entry.path⟩ : FoundRepo) = repo ∧ entry.Justified fs ids marker := by
  obtain ⟨hplace, hstatus⟩ := classify_eq_ok_iff.mp h
  subst hplace
  refine ⟨rfl, ?_⟩
  by_cases hkey : (IdSet.ofList ids).contains entry.id = true
  · have hmem := IdSet.contains_ofList.mp hkey
    rw [if_pos hkey] at hstatus
    obtain ⟨configured, hmarker, hstatus⟩ := hstatus
    rcases hasMarker_eq_ok_iff.mp hmarker with ⟨rfl, hstat⟩ | ⟨rfl, hstat⟩
    · constructor <;> simp [hstatus, hmem, hstat]
      obtain ⟨node, hnode⟩ := hstat
      simp [hnode]
    · constructor <;> simp [hstatus, hmem, hstat]
  · have hmem := IdSet.contains_ofList.not.mp hkey
    rw [if_neg hkey] at hstatus
    constructor <;> simp [hstatus, hmem]

/-- What is said of a repository whatever its marker: where it is, and whether it is invalid. -/
def RepoEntry.verdict (entry : RepoEntry) : FoundRepo × Bool :=
  (⟨entry.id, entry.path⟩, decide (entry.status = .invalid))

theorem classify_verdict {fs : FileSystem} {valid : IdSet} {marker : Path} {repo : FoundRepo}
    {entry : RepoEntry} (h : (classify fs valid marker repo).result = .ok entry) :
    entry.verdict = (repo, !valid.contains repo.id) := by
  obtain ⟨rfl, hstatus⟩ := classify_eq_ok_iff.mp h
  cases hkey : valid.contains entry.id with
  | false =>
    rw [hkey, if_neg Bool.false_ne_true] at hstatus
    simp [RepoEntry.verdict, hstatus]
  | true =>
    rw [hkey, if_pos rfl] at hstatus
    obtain ⟨configured, -, hstatus⟩ := hstatus
    cases configured <;> simp [RepoEntry.verdict, hstatus]

theorem classify_verdicts {fs : FileSystem} {valid : IdSet} {marker : Path}
    {repos : List FoundRepo} {entries : List RepoEntry}
    (h : repos.Forall₂ (fun repo entry => (classify fs valid marker repo).result = .ok entry)
      entries) :
    entries.map RepoEntry.verdict = repos.map fun repo => (repo, !valid.contains repo.id) := by
  induction h with
  | nil => rfl
  | cons hentry _ ih => rw [List.map_cons, List.map_cons, classify_verdict hentry, ih]

theorem Report.Counted.valid_of_verdicts {r : Report} (h : r.Counted) :
    r.summary.valid = (r.entries.map RepoEntry.verdict).countP fun v => !v.2 := by
  rw [h.valid, List.countP_map]
  simp [Function.comp_def, RepoEntry.verdict]

theorem Report.Counted.invalid_of_verdicts {r : Report} (h : r.Counted) :
    r.summary.invalid = (r.entries.map RepoEntry.verdict).countP Prod.snd := by
  rw [h.invalid, List.countP_map]
  rfl

theorem classify_forall₂ {fs : FileSystem} {ids : List String} {marker : Path}
    {repos : List FoundRepo} {entries : List RepoEntry}
    (h : repos.Forall₂
      (fun repo entry => (classify fs (.ofList ids) marker repo).result = .ok entry) entries) :
    entries.map (fun entry => ⟨entry.id, entry.path⟩) = repos ∧
      ∀ entry ∈ entries, entry.Justified fs ids marker := by
  induction h with
  | nil => simp
  | cons hentry _ ih =>
    obtain ⟨hrepo, hjustified⟩ := classify_result hentry
    rw [List.map_cons, hrepo, ih.1, List.forall_mem_cons]
    exact ⟨rfl, hjustified, ih.2⟩

/-- The loop classifies each repository and takes the entries up in order. -/
theorem classifyAll_result {fs : FileSystem} {valid : IdSet} {marker : Path}
    {repos : List FoundRepo} {start out : Audited} :
    (classifyAll fs valid marker start repos).result = .ok out ↔
      ∃ entries, repos.Forall₂
          (fun repo entry => (classify fs valid marker repo).result = .ok entry) entries ∧
        out = entries.foldl Audited.push start := by
  induction repos generalizing start with
  | nil => simp [classifyAll, eq_comm]
  | cons repo rest ih =>
    rw [classifyAll, Run.bind_result_eq_ok]
    constructor
    · rintro ⟨entry, hentry, hrest⟩
      obtain ⟨entries, hentries, rfl⟩ := ih.mp hrest
      exact ⟨entry :: entries, .cons hentry hentries, rfl⟩
    · rintro ⟨_, _ | ⟨hentry, hentries⟩, rfl⟩
      exact ⟨_, hentry, ih.mpr ⟨_, hentries, rfl⟩⟩

/-- An audit that has taken up the given entries. -/
def Audited.ofEntries (validIdsLoaded : Nat) (now : Timestamp) (style : ProgressStyle)
    (entries : List RepoEntry) : Audited :=
  entries.foldl Audited.push ⟨.start validIdsLoaded now, .start style entries.length⟩

theorem Audited.report_ofEntries (validIdsLoaded : Nat) (now : Timestamp) (style : ProgressStyle)
    (entries : List RepoEntry) :
    (ofEntries validIdsLoaded now style entries).report =
      entries.foldl Report.push (.start validIdsLoaded now) :=
  (List.foldl_hom Audited.report fun _ _ => rfl).symm

theorem Audited.entries_ofEntries (validIdsLoaded : Nat) (now : Timestamp) (style : ProgressStyle)
    (entries : List RepoEntry) :
    (Audited.ofEntries validIdsLoaded now style entries).report.entries = entries := by
  rw [report_ofEntries, Report.entries_foldl_push]
  rfl

theorem Audited.validIdsLoaded_ofEntries (validIdsLoaded : Nat) (now : Timestamp)
    (style : ProgressStyle) (entries : List RepoEntry) :
    (ofEntries validIdsLoaded now style entries).report.validIdsLoaded = validIdsLoaded := by
  rw [report_ofEntries, Report.validIdsLoaded_foldl_push]
  rfl

theorem Audited.counted_ofEntries (validIdsLoaded : Nat) (now : Timestamp) (style : ProgressStyle)
    (entries : List RepoEntry) :
    (Audited.ofEntries validIdsLoaded now style entries).report.Counted := by
  rw [report_ofEntries]
  exact (Report.counted_start validIdsLoaded now).foldl_push entries

/-- An audit against a set of ids succeeds if the scan does and every repository found by it can be
classified. -/
theorem auditAgainst_eq_ok_iff {fs : FileSystem} {options : AuditOptions} {style : ProgressStyle}
    {now : Timestamp} {valid : IdSet} {root : Path} {out : Audited} :
    (auditAgainst fs options style now valid root).result = .ok out ↔
      ∃ repos entries, (Scan.scan fs options root).result = .ok repos ∧
        repos.Forall₂ (fun repo entry =>
          (classify fs valid options.configMarker repo).result = .ok entry) entries ∧
        out = ⟨(Audited.ofEntries valid.size now style entries).report,
          (Audited.ofEntries valid.size now style entries).progress.finish⟩ := by
  rw [auditAgainst, Run.bind_result_eq_ok]
  constructor
  · rintro ⟨repos, hrepos, h⟩
    obtain ⟨audited, haudited, h⟩ := Run.bind_result_eq_ok.mp h
    obtain ⟨entries, hentries, rfl⟩ := classifyAll_result.mp haudited
    rw [Run.log_bind_result, hentries.length_eq] at h
    exact ⟨repos, entries, hrepos, hentries, (Except.ok.inj h).symm⟩
  · rintro ⟨repos, entries, hrepos, hentries, rfl⟩
    refine ⟨repos, hrepos, Run.bind_result_eq_ok.mpr
      ⟨_, classifyAll_result.mpr ⟨entries, hentries, rfl⟩, ?_⟩⟩
    rw [Run.log_bind_result, hentries.length_eq]
    rfl

theorem auditAgainst_result {fs : FileSystem} {options : AuditOptions} {style : ProgressStyle}
    {now : Timestamp} {valid : IdSet} {root : Path} {out : Audited}
    (h : (auditAgainst fs options style now valid root).result = .ok out) :
    ∃ repos, (Scan.scan fs options root).result = .ok repos ∧
      repos.Forall₂ (fun repo entry =>
        (classify fs valid options.configMarker repo).result = .ok entry) out.report.entries ∧
      out.report.Counted ∧ out.report.validIdsLoaded = valid.size := by
  obtain ⟨repos, entries, hrepos, hentries, rfl⟩ := auditAgainst_eq_ok_iff.mp h
  refine ⟨repos, hrepos, ?_, Audited.counted_ofEntries .., Audited.validIdsLoaded_ofEntries ..⟩
  rw [Audited.entries_ofEntries]
  exact hentries

/-- An audit succeeds only after both checks and the loading of the ids. -/
theorem audit_result {fs : FileSystem} {options : AuditOptions} {style : ProgressStyle}
    {now : Timestamp} {ids root : Path} {out : Audited} :
    (audit fs options style now ids root).result = .ok out ↔
      checkIdsFile fs ids = .ok () ∧ checkRoot fs root = .ok () ∧
        ∃ valid, (IdSet.load fs options.skipBlankLines ids).result = .ok valid ∧
          (auditAgainst fs options style now valid root).result = .ok out := by
  simp only [audit, Run.bind_result_eq_ok, Run.result_ofExcept]
  constructor
  · rintro ⟨⟨⟩, hids, ⟨⟩, hroot, hrest⟩
    exact ⟨hids, hroot, hrest⟩
  · rintro ⟨hids, hroot, hrest⟩
    exact ⟨(), hids, (), hroot, hrest⟩

theorem counted_of_audit {fs : FileSystem} {options : AuditOptions} {style : ProgressStyle}
    {now : Timestamp} {ids root : Path} {out : Audited}
    (h : (audit fs options style now ids root).result = .ok out) : out.report.Counted := by
  obtain ⟨-, -, _, -, hagainst⟩ := audit_result.mp h
  obtain ⟨_, -, -, hcounted, -⟩ := auditAgainst_result hagainst
  exact hcounted

/-- The report of an audit that succeeds holds the repositories that the scan finds, in order and
each once, with the status that the id list and the marker give it. It counts its entries, and
among the kept lines of the id list each text once. -/
theorem report_of_audit {fs : FileSystem} {options : AuditOptions} {style : ProgressStyle}
    {now : Timestamp} {ids root : Path} {out : Audited}
    (h : (audit fs options style now ids root).result = .ok out) :
    ∃ bytes text, fs.read ids = .ok bytes ∧ Text.ofBytes? bytes = some text ∧
      (Scan.scan fs options root).result =
        .ok (out.report.entries.map fun entry => ⟨entry.id, entry.path⟩) ∧
      (∀ entry ∈ out.report.entries, entry.Justified fs
        (IdSet.keptLines options.skipBlankLines text) options.configMarker) ∧
      out.report.Counted ∧
      out.report.validIdsLoaded = (IdSet.keptLines options.skipBlankLines text).toFinset.card := by
  obtain ⟨-, -, valid, hvalid, hagainst⟩ := audit_result.mp h
  obtain ⟨bytes, text, hbytes, htext, rfl⟩ := IdSet.load_result.mp hvalid
  obtain ⟨repos, hrepos, hentries, hcounted, hloaded⟩ := auditAgainst_result hagainst
  obtain ⟨hsame, hjustified⟩ := classify_forall₂ hentries
  refine ⟨bytes, text, hbytes, htext, ?_, hjustified, hcounted, ?_⟩
  · rw [hrepos, hsame]
  · rw [hloaded, IdSet.size_ofList]

/-- A root with one repository that is listed, twice and with white space, and one that is not. -/
def markedShelf : FileSystem :=
  .ofFixtures []
    [.file (.ofString "ids") (Text.toBytes " acme/widgets\r\n\nacme/widgets"),
      .file (.ofString "sync/acme/widgets/on") [], .directory (.ofString "sync/acme/old")]

def markedShelfReport : Report where
  summary := ⟨1, 1, 1⟩
  validIdsLoaded := 1
  entries :=
    [⟨⟨"acme", "old"⟩, .ofString "sync/acme/old", .invalid⟩,
      ⟨⟨"acme", "widgets"⟩, .ofString "sync/acme/widgets", .validWithConfig⟩]
  generatedAt := .epoch

theorem markedShelf_audited :
    (audit markedShelf ⟨.ofString "on", true, false, true⟩ .hidden .epoch (.ofString "ids")
      (.ofString "sync")).result = .ok ⟨markedShelfReport, ⟨.hidden, 2, ⟨1, 1, 1⟩⟩⟩ := by
  decide +kernel

theorem markedShelf_report :
    ∃ bytes text, markedShelf.read (.ofString "ids") = .ok bytes ∧
      Text.ofBytes? bytes = some text ∧
      (Scan.scan markedShelf ⟨.ofString "on", true, false, true⟩ (.ofString "sync")).result =
        .ok (markedShelfReport.entries.map fun entry => ⟨entry.id, entry.path⟩) ∧
      (∀ entry ∈ markedShelfReport.entries,
        entry.Justified markedShelf (IdSet.keptLines true text) (.ofString "on")) ∧
      markedShelfReport.Counted ∧
      markedShelfReport.validIdsLoaded = (IdSet.keptLines true text).toFinset.card :=
  report_of_audit markedShelf_audited

end SyncAudit
