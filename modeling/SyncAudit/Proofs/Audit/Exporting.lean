import SyncAudit.Proofs.Audit.UndecodableNames
import SyncAudit.Proofs.Report.RoundTrip

/-!
# Exporting the report of an audit

The scan finds directories whatever the bytes of their names, and the export writes paths as text.
So the report of an audit that succeeds can be exported unless a directory was found by a path that
is not text: the root is not, or the name of the namespace or of the repository is not.
-/
namespace SyncAudit

/-- The path of an entry of an entry is text if its three parts are. -/
theorem Path.ofBytes_child_child_eq_none_iff (p : Path) {n r : Name} (hn : EntryName n)
    (hr : EntryName r) : Text.ofBytes? ((p.child n).child r).bytes = none ↔
      Text.ofBytes? p.bytes = none ∨ Text.ofBytes? n = none ∨ Text.ofBytes? r = none := by
  have hslash : slash.toNat < 0x80 := by decide
  have hnames := Text.Utf8.decode_append_small_eq_none_iff hslash n r
  simp only [Text.ofBytes_eq_none_iff, child_child_eq p hn hr]
  rcases p.stem_cases with ⟨hbytes, hstem⟩ | ⟨front, hstem, hbytes⟩
  · have hempty : Text.Utf8.decode? [] ≠ none := by decide
    rw [hbytes, hstem, List.nil_append, hnames]
    simp [hempty]
  · have hfront : Text.Utf8.decode? p.bytes = none ↔ Text.Utf8.decode? front = none := by
      rcases hbytes with hbytes | hbytes
      · rw [hbytes]
      · rw [hbytes, Text.Utf8.decode_append_small_eq_none_iff hslash]
        simp [show Text.Utf8.decode? [] ≠ none by decide]
    rw [hfront, hstem, List.append_assoc, List.append_assoc, List.singleton_append,
      Text.Utf8.decode_append_small_eq_none_iff hslash, hnames]

/-- The counts in an exported value are those of the report. -/
structure Report.ShowsCounts (r : Report) (json : Json) : Prop where
  total_repos : json.member? "total_repos" = some (.ofNat r.entries.length)
  valid_ids_loaded : json.member? "valid_ids_loaded" = some (.ofNat r.validIdsLoaded)
  summary : ∃ counts, json.member? "summary" = some counts ∧
    counts.member? "valid" = some (.ofNat r.summary.valid) ∧
    counts.member? "valid_with_config" = some (.ofNat r.summary.validWithConfig) ∧
    counts.member? "invalid" = some (.ofNat r.summary.invalid)

theorem Report.showsCounts_exported (r : Report) (items : List Json) :
    r.ShowsCounts (r.exported items) :=
  ⟨rfl, rfl, _, rfl, rfl, rfl, rfl⟩

theorem Report.Counted.fits {r : Report} (h : r.Counted) (hentries : r.entries.length < 2 ^ 64)
    (hids : r.validIdsLoaded < 2 ^ 64) : r.CountsFit := by
  have hle : ∀ p : RepoEntry → Bool, r.entries.countP p < 2 ^ 64 := fun p =>
    Nat.lt_of_le_of_lt List.countP_le_length hentries
  refine ⟨⟨?_, ?_, ?_⟩, hids, hentries⟩
  · rw [h.valid]
    exact hle _
  · rw [h.configured]
    exact hle _
  · rw [h.invalid]
    exact hle _

variable {fs : FileSystem} {options : AuditOptions} {style : ProgressStyle} {now : Timestamp}
  {ids root : Path} {out : Audited}

/-- The export of the report of an audit fails if, and only if, a directory was found by a path that
is not text. Otherwise both texts show the counts of the report. -/
theorem export_of_audit (hfs : fs.ProperNames)
    (h : (audit fs options style now ids root).result = .ok out) :
    (∀ pretty, (∃ e, out.report.render pretty = .error e) ↔
      ∃ entry ∈ out.report.entries, ∃ ns r, EntryName ns ∧ EntryName r ∧
        entry.path = (root.child ns).child r ∧
        (Text.ofBytes? root.bytes = none ∨ Text.ofBytes? ns = none ∨ Text.ofBytes? r = none)) ∧
    (out.report.entries.length < 2 ^ 64 → out.report.validIdsLoaded < 2 ^ 64 →
      ∀ pretty text, out.report.render pretty = .ok text →
        ∃ json, Json.parse text = some json ∧ out.report.ShowsCounts json) := by
  constructor
  · intro pretty
    rw [Report.render_eq_error_iff]
    constructor
    · rintro ⟨entry, hentry, hpath⟩
      obtain ⟨_, _, -, -, hentries⟩ := entries_of_audit hfs h
      obtain ⟨-, ns, r, hns, hr, hrepo⟩ := hentries entry hentry
      have hplace : entry.path = (root.child ns).child r := (FoundRepo.mk.inj hrepo).2
      rw [hplace, root.ofBytes_child_child_eq_none_iff hns hr] at hpath
      exact ⟨entry, hentry, ns, r, hns, hr, hplace, hpath⟩
    · rintro ⟨entry, hentry, ns, r, hns, hr, hplace, hpath⟩
      rw [← root.ofBytes_child_child_eq_none_iff hns hr, ← hplace] at hpath
      exact ⟨entry, hentry, hpath⟩
  · intro hentries hids pretty text htext
    have hcounted := counted_of_audit h
    obtain ⟨items, -, -, hparse⟩ := Report.parse_of_render htext
    exact ⟨_, hparse (hcounted.fits hentries hids), out.report.showsCounts_exported items⟩

theorem markedShelf_export :
    markedShelf.ProperNames ∧ ∀ pretty, ∃ text json,
      markedShelfReport.render pretty = .ok text ∧ Json.parse text = some json ∧
        markedShelfReport.ShowsCounts json := by
  have hproper : markedShelf.ProperNames := FileSystem.properNames_ofFixtures (by decide) _
  obtain ⟨hfails, hcounts⟩ := export_of_audit hproper markedShelf_audited
  have hpaths : ∀ entry ∈ markedShelfReport.entries, Text.ofBytes? entry.path.bytes ≠ none := by
    decide
  refine ⟨hproper, fun pretty => ?_⟩
  cases hrender : markedShelfReport.render pretty with
  | error e =>
    obtain ⟨entry, hentry, ns, r, hns, hr, hplace, hbad⟩ := (hfails pretty).mp ⟨e, hrender⟩
    rw [← Path.ofBytes_child_child_eq_none_iff _ hns hr, ← hplace] at hbad
    exact absurd hbad (hpaths entry hentry)
  | ok text =>
    obtain ⟨json, hparse, hshows⟩ := hcounts (by decide) (by decide) pretty text hrender
    exact ⟨text, json, rfl, hparse, hshows⟩

/-- An audit succeeds and its report is exported in neither form. -/
theorem strayShelf_not_exported :
    ∃ out, (audit strayShelf .default .hidden .epoch (.ofString "ids")
        (.ofString "sync")).result = .ok out ∧
      ∀ pretty, out.report.render pretty = .error (.serialization .undecodablePath) := by
  refine ⟨_, strayShelf_audited, fun pretty => ?_⟩
  have hpath : Text.ofBytes? (Text.toBytes "sync/acme/" ++ garbledName) = none := by decide +kernel
  rw [Report.render, Report.toJson_of_undecodable (List.mem_singleton_self _) hpath]

end SyncAudit
