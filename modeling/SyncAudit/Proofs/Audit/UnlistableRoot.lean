import SyncAudit.Proofs.Audit.Classification
import SyncAudit.Proofs.Scan.Settling

/-!
# Roots that cannot be listed

A root may pass for a directory and still not be listed. The audit then fails, but for one case:
the root is itself a link, links are not followed, and the id list is in order. Its report is then
empty.
-/
namespace SyncAudit

variable {fs : FileSystem} {options : AuditOptions} {style : ProgressStyle} {now : Timestamp}
  {ids root : Path} {access : Access} {e : IoError}

/-- What a scan makes of a directory that it may not list depends on how the path leads there. -/
theorem Scan.scan_of_list_error (hstat : fs.stat root = .ok (.directory access))
    (hlist : fs.list root = .error e) :
    (Scan.scan fs options root).result =
      if fs.isLink root = true then
        if options.followLinks = true then .error (.walk (.unopened e)) else .ok []
      else .error (.walk (.io root e)) := by
  rw [Scan.scan_result, Scan.scanRoot_of_directory hstat,
    FileSystem.openForReading_of_list_error hstat hlist, Scan.scanDirectory, hlist]
  cases hlink : fs.isLink root <;> cases hfollow : options.followLinks <;>
    simp [Scan.raise, Scan.isUnfollowable, hlink]

/-- A file that can be read passes the check of the id list. -/
theorem checkIdsFile_of_read {bytes : List UInt8} (h : fs.read ids = .ok bytes) :
    checkIdsFile fs ids = .ok () := by
  obtain ⟨loc, fileAccess, hl, -⟩ := FileSystem.exists_file_of_read h
  rw [checkIdsFile, FileSystem.stat, hl]
  rfl

theorem auditAgainst_of_no_repos {valid : IdSet}
    (h : (Scan.scan fs options root).result = .ok []) :
    (auditAgainst fs options style now valid root).result =
      .ok ⟨.start valid.size now, (Progress.start style 0).finish⟩ := by
  rw [auditAgainst, Run.bind_of_ok h]
  rfl

/-- An audit of a root that cannot be listed succeeds in one case, and its report is then the one
that it started with. -/
theorem audit_result_of_list_error (hstat : fs.stat root = .ok (.directory access))
    (hlist : fs.list root = .error e) {out : Audited} :
    (audit fs options style now ids root).result = .ok out ↔
      (fs.isLink root = true ∧ options.followLinks = false) ∧
        ∃ bytes text, fs.read ids = .ok bytes ∧ Text.ofBytes? bytes = some text ∧
          out = ⟨.start (IdSet.keptLines options.skipBlankLines text).toFinset.card now,
            (Progress.start style 0).finish⟩ := by
  have hscan : (Scan.scan fs options root).result = _ := Scan.scan_of_list_error hstat hlist
  rw [audit_result]
  constructor
  · rintro ⟨-, -, valid, hvalid, hagainst⟩
    obtain ⟨repos, hrepos, -⟩ := auditAgainst_result hagainst
    have hlink : fs.isLink root = true ∧ options.followLinks = false := by
      rw [hscan] at hrepos
      cases hlink : fs.isLink root <;> cases hfollow : options.followLinks <;>
        simp [hlink, hfollow] at hrepos ⊢
    obtain ⟨bytes, text, hbytes, htext, rfl⟩ := IdSet.load_result.mp hvalid
    refine ⟨hlink, bytes, text, hbytes, htext, ?_⟩
    rw [auditAgainst_of_no_repos (by simp [hscan, hlink]), IdSet.size_ofList] at hagainst
    exact (Except.ok.inj hagainst).symm
  · rintro ⟨hlink, bytes, text, hbytes, htext, rfl⟩
    refine ⟨checkIdsFile_of_read hbytes, ?_, _,
      IdSet.load_result.mpr ⟨bytes, text, hbytes, htext, rfl⟩, ?_⟩
    · rw [checkRoot, hstat]
      rfl
    · rw [auditAgainst_of_no_repos (by simp [hscan, hlink]), IdSet.size_ofList]

/-- A root that leads to a directory which cannot be listed makes the audit fail, unless the root
is a link, links are not followed and the id list can be loaded. In that case the report holds
nothing and counts nothing. -/
theorem audit_of_unlistable_root (hstat : fs.stat root = .ok (.directory access))
    (hlist : fs.list root = .error e) :
    ((∃ err, (audit fs options style now ids root).result = .error err) ↔
      ¬ ((fs.isLink root = true ∧ options.followLinks = false) ∧
        ∃ bytes text, fs.read ids = .ok bytes ∧ Text.ofBytes? bytes = some text)) ∧
    ∀ out, (audit fs options style now ids root).result = .ok out →
      out.report.entries = [] ∧ out.report.summary = .zero := by
  constructor
  · cases hres : (audit fs options style now ids root).result with
    | ok out =>
      obtain ⟨hlink, bytes, text, hbytes, htext, -⟩ :=
        (audit_result_of_list_error hstat hlist).mp hres
      simp only [reduceCtorEq, exists_false, false_iff, not_not]
      exact ⟨hlink, bytes, text, hbytes, htext⟩
    | error err =>
      simp only [Except.error.injEq, exists_eq', true_iff]
      rintro ⟨hlink, bytes, text, hbytes, htext⟩
      have hok : (audit fs options style now ids root).result = .ok _ :=
        (audit_result_of_list_error hstat hlist).mpr ⟨hlink, bytes, text, hbytes, htext, rfl⟩
      simp [hres] at hok
  · intro out hout
    obtain ⟨-, _, _, -, -, rfl⟩ := (audit_result_of_list_error hstat hlist).mp hout
    exact ⟨rfl, rfl⟩

/-- A root that is a link to a directory which may not be listed, and an empty id list. -/
def lockedShelf : FileSystem :=
  .ofFixtures []
    [.file (.ofString "ids") [], .directory (.ofString "data"),
      .link (.ofString "sync") (.ofString "data"), .permissions (.ofString "data") 0]

def unfollowing : AuditOptions :=
  { AuditOptions.default with followLinks := false }

theorem lockedShelf_stat :
    lockedShelf.stat (.ofString "sync") = .ok (.directory ⟨false, false, false⟩) := by
  decide +kernel

theorem lockedShelf_list :
    lockedShelf.list (.ofString "sync") = .error (.os .accessDenied) := by
  decide +kernel

theorem lockedShelf_audit_iff :
    ((∃ err, (audit lockedShelf unfollowing .hidden .epoch (.ofString "ids")
        (.ofString "sync")).result = .error err) ↔
      ¬ ((lockedShelf.isLink (.ofString "sync") = true ∧ unfollowing.followLinks = false) ∧
        ∃ bytes text, lockedShelf.read (.ofString "ids") = .ok bytes ∧
          Text.ofBytes? bytes = some text)) ∧
    ∀ out, (audit lockedShelf unfollowing .hidden .epoch (.ofString "ids")
        (.ofString "sync")).result = .ok out →
      out.report.entries = [] ∧ out.report.summary = .zero :=
  audit_of_unlistable_root lockedShelf_stat lockedShelf_list

theorem lockedShelf_reported_empty :
    lockedShelf.stat (.ofString "sync") = .ok (.directory ⟨false, false, false⟩) ∧
      lockedShelf.list (.ofString "sync") = .error (.os .accessDenied) ∧
      (audit lockedShelf unfollowing .hidden .epoch (.ofString "ids") (.ofString "sync")).result =
        .ok ⟨⟨⟨0, 0, 0⟩, 0, [], .epoch⟩, ⟨.hidden, 0, ⟨0, 0, 0⟩⟩⟩ := by
  refine ⟨lockedShelf_stat, lockedShelf_list, ?_⟩
  decide +kernel

end SyncAudit
