import SyncAudit.Proofs.Audit.Log
import SyncAudit.Proofs.Audit.UndecodableNames
import SyncAudit.Proofs.Audit.UnlistableRoot
import SyncAudit.Proofs.Scan.PlainTree
import SyncAudit.Settings.Validate

/-!
# Markers that are missing

A marker is missing where its path leads to nothing, and the repository is then valid without being
configured. It is missing as well where a file stands in the way of its path, but that is taken for
a failure to look, and the audit ends there. In a plain tree, with paths within the limits, nothing
else makes an audit fail.
-/
namespace SyncAudit

open FileSystem Scan

variable {fs : FileSystem} {options : AuditOptions} {style : ProgressStyle} {now : Timestamp}
  {ids root : Path} {text : String}

/-- An audit of a plain tree with an id list that is text, a root that is a directory, valid
settings, and paths within the limits of the file system. -/
structure PlainAudit (fs : FileSystem) (options : AuditOptions) (ids root : Path) (text : String) :
    Prop where
  plain : fs.Plain
  idsText : ∃ bytes, fs.read ids = .ok bytes ∧ Text.ofBytes? bytes = some text
  rootDirectory : ∃ access, fs.stat root = .ok (.directory access)
  valid : options.Valid
  markerNul : 0 ∉ options.configMarker.bytes
  markerNames : ∀ n ∈ options.configMarker.names, n.length ≤ maxName
  namespacePaths : ∀ loc names, fs.list root = .ok (loc, names) →
    ∀ ns ∈ names, (root.child ns).bytes.length ≤ maxPath
  markerPaths : ∀ ns r, Discovers fs options root ns r →
    (((root.child ns).child r).join options.configMarker).bytes.length ≤ maxPath

/-- A walk discovers a repository whose key is among the kept lines of an id list. -/
def DiscoversListed (fs : FileSystem) (options : AuditOptions) (root : Path) (text : String)
    (repo : FoundRepo) : Prop :=
  ∃ ns r, Discovers fs options root ns r ∧ repo = repoAt root (ns, r) ∧
    repo.id.key ∈ IdSet.keptLines options.skipBlankLines text

/-- How an audit of a plain tree goes is up to the files in the way of markers. -/
structure MarkersDecide (fs : FileSystem) (options : AuditOptions) (root : Path) (text : String)
    (run : Run Audited) : Prop where
  succeeds : (∃ out, run.result = .ok out) ↔ ∀ repo, DiscoversListed fs options root text repo →
    ¬ fs.FileInTheWay repo.path options.configMarker
  failed : ∀ e, run.result = .error e → ∃ repo, DiscoversListed fs options root text repo ∧
    fs.FileInTheWay repo.path options.configMarker ∧
    e = .fileOperation (repo.path.join options.configMarker) (.os .notDirectory)
  /-- A listed repository whose marker leads to no entry is valid and not configured. -/
  unconfigured : ∀ out, run.result = .ok out → ∀ repo, DiscoversListed fs options root text repo →
    (∀ node, fs.stat (repo.path.join options.configMarker) ≠ .ok node) →
    ⟨repo.id, repo.path, .valid⟩ ∈ out.report.entries
  counted : ∀ out, run.result = .ok out → out.report.Counted

namespace PlainAudit

/-- The limits on paths are kept if the root and the marker leave room for two names. -/
theorem of_short (hplain : fs.Plain)
    (hids : ∃ bytes, fs.read ids = .ok bytes ∧ Text.ofBytes? bytes = some text)
    (hroot : ∃ access, fs.stat root = .ok (.directory access)) (hvalid : options.Valid)
    (hnul : 0 ∉ options.configMarker.bytes)
    (hnames : ∀ n ∈ options.configMarker.names, n.length ≤ maxName)
    (hshort : root.bytes.length + options.configMarker.bytes.length + 2 * maxName + 3 ≤ maxPath) :
    PlainAudit fs options ids root text := by
  have hstem := root.stem_length_le
  refine ⟨hplain, hids, hroot, hvalid, hnul, hnames, ?_, ?_⟩
  · intro loc names hlist ns hmem
    obtain ⟨node, hnode⟩ := (mem_of_list hlist).mp hmem
    have hns := hplain.names _ _ hnode ns List.mem_cons_self
    have hfits := hns.fits
    rw [Path.child_bytes root hns.toEntryName, List.length_append]
    omega
  · intro ns r hdiscovers
    obtain ⟨⟨_, _, hnsNode⟩, _, _, hrNode⟩ := hdiscovers.nodes
    have hns := hplain.names _ _ hnsNode ns List.mem_cons_self
    have hr := hplain.names _ _ hrNode r List.mem_cons_self
    have hnsFits := hns.fits
    have hrFits := hr.fits
    have hrepoStem := ((root.child ns).child r).stem_length_le
    rw [Path.child_child_eq root hns.toEntryName hr.toEntryName] at hrepoStem ⊢
    rw [Path.join_bytes _ hvalid.2]
    simp only [List.length_append, List.length_cons] at hrepoStem ⊢
    omega

theorem loaded (h : PlainAudit fs options ids root text) :
    (IdSet.load fs options.skipBlankLines ids).result =
      .ok (.ofList (IdSet.keptLines options.skipBlankLines text)) := by
  obtain ⟨bytes, hbytes, htext⟩ := h.idsText
  exact IdSet.load_result.mpr ⟨bytes, text, hbytes, htext, rfl⟩

theorem listed (h : PlainAudit fs options ids root text) :
    ∃ loc names, fs.list root = .ok (loc, names) := by
  obtain ⟨access, hstat⟩ := h.rootDirectory
  obtain ⟨loc, hlocate⟩ := stat_eq_ok_iff.mp hstat
  exact ⟨loc, _, h.plain.list_of_locate hlocate⟩

/-- The scan succeeds, and finds what the walk discovers. -/
theorem scanned (h : PlainAudit fs options ids root text) :
    ∃ repos, (scan fs options root).result = .ok repos ∧
      ∀ repo, repo ∈ repos ↔
        ∃ ns r, Discovers fs options root ns r ∧ repo = repoAt root (ns, r) := by
  obtain ⟨loc, names, hlist⟩ := h.listed
  obtain ⟨repos, hscan⟩ := exists_scan_result h.plain options hlist
    (h.namespacePaths loc names hlist)
  have hpairs := @mem_admittedPairs_iff_discovers fs options root loc names repos
    h.plain.properNames hlist hscan
  refine ⟨repos, hscan, fun repo => ?_⟩
  rw [scan_repos h.plain.properNames hlist hscan, List.mem_map]
  constructor
  · rintro ⟨⟨ns, r⟩, hpair, rfl⟩
    exact ⟨ns, r, hpairs.mp hpair, rfl⟩
  · rintro ⟨ns, r, hdiscovers, rfl⟩
    exact ⟨(ns, r), hpairs.mpr hdiscovers, rfl⟩

theorem fits (h : PlainAudit fs options ids root text) {ns r : Name}
    (hdiscovers : Discovers fs options root ns r) :
    Fits ((root.child ns).child r) options.configMarker :=
  ⟨h.valid.2, h.valid.1, h.markerNul, h.markerNames, h.markerPaths ns r hdiscovers⟩

/-- Where the marker of a repository that is discovered leads. -/
theorem stat_marker (h : PlainAudit fs options ids root text) {ns r : Name}
    (hdiscovers : Discovers fs options root ns r) :
    let marker := (repoAt root (ns, r)).path.join options.configMarker
    ((∃ node, fs.stat marker = .ok node) ∨ fs.stat marker = .error (.os .noEntry) ∨
        fs.stat marker = .error (.os .notDirectory)) ∧
      (fs.stat marker = .error (.os .notDirectory) ↔
        fs.FileInTheWay (repoAt root (ns, r)).path options.configMarker) := by
  have hfits := h.fits hdiscovers
  have hlong : ((root.child ns).child r).bytes.length ≤ maxPath := by
    have hlength := hfits.length
    rw [Path.join_bytes _ hfits.relative, List.length_append] at hlength
    have hstem := Path.length_le_stem ((root.child ns).child r)
    omega
  obtain ⟨loc, hlocate⟩ := hdiscovers.locate_of_plain h.plain hlong
  exact ⟨h.plain.stat_join_cases hfits hlocate, h.plain.stat_join_eq_notDirectory_iff hfits hlocate⟩

/-- An audit that fails does so at a marker with a file in its way. -/
theorem failed (h : PlainAudit fs options ids root text) {e : AuditError}
    (hfails : (audit fs options style now ids root).result = .error e) :
    ∃ repo, DiscoversListed fs options root text repo ∧
      fs.FileInTheWay repo.path options.configMarker ∧
      e = .fileOperation (repo.path.join options.configMarker) (.os .notDirectory) := by
  obtain ⟨bytes, hbytes, -⟩ := h.idsText
  obtain ⟨access, hstat⟩ := h.rootDirectory
  obtain ⟨repos, hscan, hrepos⟩ := h.scanned
  have hgoes := audit_goes fs options style now ids root
  rw [hfails] at hgoes
  generalize (audit fs options style now ids root).events = events at hgoes
  cases hgoes with
  | idsRefused hids => simp [checkIdsFile_of_read hbytes] at hids
  | rootRefused _ hroot => simp [checkRoot, hstat, Node.isDirectory] at hroot
  | unread hunread => simp [h.loaded] at hunread
  | unscanned _ hunscanned => simp [hscan] at hunscanned
  | @interrupted valid found done repo _ hvalid hfound hseen hkey hmarker =>
    obtain rfl := Except.ok.inj (hvalid.symm.trans h.loaded)
    obtain rfl := Except.ok.inj (hfound.symm.trans hscan)
    have hmem : repo ∈ found := hseen.subset (by simp)
    obtain ⟨ns, r, hdiscovers, rfl⟩ := (hrepos repo).mp hmem
    obtain ⟨err, hpresent, herr, rfl⟩ := hasMarker_eq_error_iff.mp hmarker
    obtain ⟨hcases, hway⟩ := h.stat_marker hdiscovers
    refine ⟨_, ⟨ns, r, hdiscovers, rfl, IdSet.contains_ofList.mp hkey⟩, ?_⟩
    rcases hcases with ⟨node, hnode⟩ | habsent | hfile
    · cases herr.symm.trans hnode
    · exact absurd (Except.error.inj (herr.symm.trans habsent)) hpresent
    · exact ⟨hway.mp hfile, by rw [Except.error.inj (herr.symm.trans hfile)]⟩

/-- An audit that succeeds has an entry for every listed repository that is discovered. -/
theorem entry_of_listed (h : PlainAudit fs options ids root text) {out : Audited}
    (hsucceeds : (audit fs options style now ids root).result = .ok out) {repo : FoundRepo}
    (hlisted : DiscoversListed fs options root text repo) :
    ∃ status, ⟨repo.id, repo.path, status⟩ ∈ out.report.entries ∧
      (status = .valid ∧ fs.stat (repo.path.join options.configMarker) = .error (.os .noEntry) ∨
        ∃ node, fs.stat (repo.path.join options.configMarker) = .ok node) := by
  obtain ⟨ns, r, hdiscovers, hrepo, hkey⟩ := hlisted
  obtain ⟨repos, hscan, hrepos⟩ := h.scanned
  obtain ⟨-, -, valid, hvalid, hagainst⟩ := audit_result.mp hsucceeds
  obtain rfl := Except.ok.inj (hvalid.symm.trans h.loaded)
  obtain ⟨found, hfound, hentries, -⟩ := auditAgainst_result hagainst
  obtain rfl := Except.ok.inj (hfound.symm.trans hscan)
  obtain ⟨hsame, hjustified⟩ := classify_forall₂ hentries
  have hmem : repo ∈ found := (hrepos repo).mpr ⟨ns, r, hdiscovers, hrepo⟩
  rw [← hsame] at hmem
  obtain ⟨⟨id, path, status⟩, hentry, rfl⟩ := List.mem_map.mp hmem
  have hjust := hjustified _ hentry
  refine ⟨status, hentry, ?_⟩
  cases status with
  | invalid => exact absurd hkey (hjust.invalid.mp rfl)
  | valid => exact .inl ⟨rfl, (hjust.unconfigured.mp rfl).2⟩
  | validWithConfig => exact .inr (hjust.configured.mp rfl).2

end PlainAudit

/-- In a plain tree a missing marker makes an audit fail if, and only if, it is missing because a
file stands in the way of its path in a listed repository. Otherwise the audit succeeds, and every
listed repository without a marker is valid. -/
theorem audit_of_plain (h : PlainAudit fs options ids root text) :
    MarkersDecide fs options root text (audit fs options style now ids root) := by
  constructor
  case failed => exact fun e he => h.failed he
  case succeeds =>
    constructor
    · rintro ⟨out, hout⟩ repo hlisted hway
      obtain ⟨ns, r, hdiscovers, rfl, -⟩ := id hlisted
      have hrefused := (h.stat_marker hdiscovers).2.mpr hway
      obtain ⟨status, -, ⟨-, habsent⟩ | ⟨node, hnode⟩⟩ := h.entry_of_listed hout hlisted
      · cases hrefused.symm.trans habsent
      · cases hrefused.symm.trans hnode
    · intro hfree
      cases hresult : (audit fs options style now ids root).result with
      | ok out => exact ⟨out, rfl⟩
      | error e =>
        obtain ⟨repo, hlisted, hway, -⟩ := h.failed hresult
        exact absurd hway (hfree repo hlisted)
  case unconfigured =>
    intro out hout repo hlisted hmissing
    obtain ⟨status, hentry, ⟨rfl, -⟩ | ⟨node, hnode⟩⟩ := h.entry_of_listed hout hlisted
    · exact hentry
    · exact absurd hnode (hmissing node)
  case counted => exact fun out hout => counted_of_audit hout

/-- A listed repository with a file where the directory of its marker would be. -/
def cloggedShelf : FileSystem :=
  .ofFixtures []
    [.file (.ofString "ids") (Text.toBytes "acme/widgets\n"),
      .file (.ofString "sync/acme/widgets/.oxen") []]

theorem cloggedShelf_plainAudit :
    PlainAudit cloggedShelf .default (.ofString "ids") (.ofString "sync") "acme/widgets\n" := by
  have hplain : cloggedShelf.Plain := plain_ofFixtures (by simp) (by decide)
  have hids : ∃ bytes, cloggedShelf.read (.ofString "ids") = .ok bytes ∧
      Text.ofBytes? bytes = some "acme/widgets\n" :=
    ⟨Text.toBytes "acme/widgets\n", by decide +kernel, by decide +kernel⟩
  have hroot : ∃ access, cloggedShelf.stat (.ofString "sync") = .ok (.directory access) :=
    ⟨.full, by decide +kernel⟩
  exact .of_short hplain hids hroot (by decide) (by decide) (by decide) (by decide)

theorem cloggedShelf_markers :
    PlainAudit cloggedShelf .default (.ofString "ids") (.ofString "sync") "acme/widgets\n" ∧
      MarkersDecide cloggedShelf .default (.ofString "sync") "acme/widgets\n"
        (audit cloggedShelf .default .hidden .epoch (.ofString "ids") (.ofString "sync")) :=
  ⟨cloggedShelf_plainAudit, audit_of_plain cloggedShelf_plainAudit⟩

/-- The marker leads to nothing, and the audit fails. -/
theorem cloggedShelf_fails :
    PlainAudit cloggedShelf .default (.ofString "ids") (.ofString "sync") "acme/widgets\n" ∧
      (audit cloggedShelf .default .hidden .epoch (.ofString "ids") (.ofString "sync")).result =
        .error (.fileOperation (.ofString "sync/acme/widgets/.oxen/config.toml")
          (.os .notDirectory)) := by
  exact ⟨cloggedShelf_plainAudit, by decide +kernel⟩

end SyncAudit
