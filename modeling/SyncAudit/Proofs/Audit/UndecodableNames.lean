import SyncAudit.Proofs.Audit.Classification
import SyncAudit.Proofs.Scan.Discovery

/-!
# Directories whose names are not text

A directory is reported under the text of its name, a name that is not valid UTF-8 under its lossy
text. That text holds a replacement character, which an id list may hold as well: such a directory
is taken for valid when a line of the list reads like it.
-/
namespace SyncAudit

variable {fs : FileSystem} {options : AuditOptions} {style : ProgressStyle} {now : Timestamp}
  {ids root : Path} {out : Audited} {entry : RepoEntry} {ns r : Name}

/-- The entries of a report stand for entries of entries of the root, and their status is up to the
kept lines of the id list and to the marker. -/
theorem entries_of_audit (hfs : fs.ProperNames)
    (h : (audit fs options style now ids root).result = .ok out) :
    ∃ bytes text, fs.read ids = .ok bytes ∧ Text.ofBytes? bytes = some text ∧
      ∀ entry ∈ out.report.entries,
        entry.Justified fs (IdSet.keptLines options.skipBlankLines text) options.configMarker ∧
        ∃ ns r, EntryName ns ∧ EntryName r ∧ ⟨entry.id, entry.path⟩ = Scan.repoAt root (ns, r) := by
  obtain ⟨-, -, valid, hvalid, hagainst⟩ := audit_result.mp h
  obtain ⟨bytes, text, hbytes, htext, rfl⟩ := IdSet.load_result.mp hvalid
  obtain ⟨repos, hrepos, hentries, -⟩ := auditAgainst_result hagainst
  obtain ⟨hsame, hjustified⟩ := classify_forall₂ hentries
  refine ⟨bytes, text, hbytes, htext, fun entry hentry => ⟨hjustified entry hentry, ?_⟩⟩
  have hrepo : ⟨entry.id, entry.path⟩ ∈ repos := hsame ▸ List.mem_map_of_mem hentry
  obtain ⟨ns, r, hdiscovers, hat⟩ := (Scan.mem_scan_iff hfs hrepos).mp hrepo
  obtain ⟨hns, hr⟩ := hdiscovers.entryNames hfs
  exact ⟨ns, r, hns, hr, hat⟩

/-- The two texts of a pair of names hold a replacement character if either name is not text. -/
theorem replacement_mem_key (h : Text.ofBytes? ns = none ∨ Text.ofBytes? r = none) :
    '\uFFFD' ∈ (Text.ofBytesLossy ns ++ "/" ++ Text.ofBytesLossy r).toList := by
  have hlossy : ∀ {n : Name}, Text.ofBytes? n = none → '\uFFFD' ∈ (Text.ofBytesLossy n).toList := by
    intro n hn
    rw [Text.ofBytesLossy, String.toList_ofList]
    exact Text.Utf8.replacement_mem_of_decode (Text.ofBytes_eq_none_iff.mp hn)
  simp only [String.toList_append, List.mem_append]
  rcases h with h | h
  · exact .inl (.inl (hlossy h))
  · exact .inr (hlossy h)

/-- A directory with a name that is not text is reported as invalid unless the id list has a line
that reads like the lossy texts of its names. Such a line holds a replacement character, so without
one in the list no such directory passes for valid. -/
theorem status_of_undecodable (hfs : fs.ProperNames)
    (h : (audit fs options style now ids root).result = .ok out) :
    ∃ bytes text, fs.read ids = .ok bytes ∧ Text.ofBytes? bytes = some text ∧
      ∀ entry ∈ out.report.entries, ∀ ns r, EntryName ns → EntryName r →
        entry.path = (root.child ns).child r →
        (Text.ofBytes? ns = none ∨ Text.ofBytes? r = none) →
        (entry.status = .invalid ↔ Text.ofBytesLossy ns ++ "/" ++ Text.ofBytesLossy r ∉
          IdSet.keptLines options.skipBlankLines text) ∧
        ((∀ line ∈ IdSet.keptLines options.skipBlankLines text, '\uFFFD' ∉ line.toList) →
          entry.status = .invalid) := by
  obtain ⟨bytes, text, hbytes, htext, hentries⟩ := entries_of_audit hfs h
  refine ⟨bytes, text, hbytes, htext, fun entry hentry ns r hns hr hpath hbad => ?_⟩
  obtain ⟨hjustified, ns', r', hns', hr', hrepo⟩ := hentries entry hentry
  obtain ⟨hid, hpath'⟩ := FoundRepo.mk.inj hrepo
  obtain ⟨rfl, rfl⟩ := root.child_child_inj hns hr hns' hr' (hpath.symm.trans hpath')
  have hstatus := hjustified.invalid
  rw [hid] at hstatus
  exact ⟨hstatus, fun hlines => hstatus.mpr fun hline => hlines _ hline (replacement_mem_key hbad)⟩

/-- A name that is not text. -/
def garbledName : Name :=
  Text.toBytes "bad" ++ 0xFF :: Text.toBytes "name"

def garbledEntry (status : RepoStatus) : RepoEntry :=
  ⟨⟨"acme", "bad\uFFFDname"⟩, ⟨Text.toBytes "sync/acme/" ++ garbledName⟩, status⟩

/-- An empty id list, and a namespace with one repository, the name of which is not text. -/
def strayShelf : FileSystem :=
  .ofFixtures []
    [.file (.ofString "ids") [], .directory ⟨Text.toBytes "sync/acme/" ++ garbledName⟩]

def strayReport : Report where
  summary := ⟨0, 0, 1⟩
  validIdsLoaded := 0
  entries := [garbledEntry .invalid]
  generatedAt := .epoch

theorem strayShelf_audited :
    (audit strayShelf .default .hidden .epoch (.ofString "ids") (.ofString "sync")).result =
      .ok ⟨strayReport, ⟨.hidden, 1, ⟨0, 0, 1⟩⟩⟩ := by
  decide +kernel

theorem strayShelf_status :
    ∃ bytes text, strayShelf.read (.ofString "ids") = .ok bytes ∧
      Text.ofBytes? bytes = some text ∧
      ((garbledEntry .invalid).status = .invalid ↔
        Text.ofBytesLossy (Text.toBytes "acme") ++ "/" ++ Text.ofBytesLossy garbledName ∉
          IdSet.keptLines true text) ∧
      ((∀ line ∈ IdSet.keptLines true text, '\uFFFD' ∉ line.toList) →
        (garbledEntry .invalid).status = .invalid) := by
  obtain ⟨bytes, text, hbytes, htext, hstatus⟩ :=
    status_of_undecodable (FileSystem.properNames_ofFixtures (by decide) _) strayShelf_audited
  have hbad : Text.ofBytes? garbledName = none := by decide +kernel
  exact ⟨bytes, text, hbytes, htext, hstatus _ (List.mem_singleton_self _) (Text.toBytes "acme")
    garbledName (by decide) (by decide) (by decide +kernel) (.inr hbad)⟩

/-- The same directory, and an id list with a line that has a replacement character where the name
has its faulty byte. -/
def garbledShelf : FileSystem :=
  .ofFixtures []
    [.file (.ofString "ids") (Text.toBytes "acme/bad\uFFFDname\n"),
      .directory ⟨Text.toBytes "sync/acme/" ++ garbledName⟩]

theorem garbledShelf_audited :
    (audit garbledShelf .default .hidden .epoch (.ofString "ids") (.ofString "sync")).result =
      .ok ⟨⟨⟨1, 0, 0⟩, 1, [garbledEntry .valid], .epoch⟩, ⟨.hidden, 1, ⟨1, 0, 0⟩⟩⟩ := by
  decide +kernel

/-- A directory with a name that is not text passes for valid. -/
theorem garbledShelf_passes :
    ∃ out, (audit garbledShelf .default .hidden .epoch (.ofString "ids")
        (.ofString "sync")).result = .ok out ∧
      ∃ entry ∈ out.report.entries,
        entry.path = ((Path.ofString "sync").child (Text.toBytes "acme")).child garbledName ∧
        Text.ofBytes? garbledName = none ∧ entry.status = .valid :=
  ⟨_, garbledShelf_audited, _, List.mem_singleton_self _, by decide +kernel, by decide +kernel, rfl⟩

end SyncAudit
