import SyncAudit.Proofs.Audit.OtherSettings
import SyncAudit.Proofs.Audit.UnlistableRoot
import SyncAudit.Proofs.IdSet.Malformed
import SyncAudit.Proofs.Scan.Discovery
import SyncAudit.Proofs.Scan.Reading
import SyncAudit.Proofs.Text.Encoding

/-!
# Lines that match nothing

A line of the id list that is warned of is the key of no repository that a scan can find. Without
such lines an audit comes to the same, but for the number of ids that were loaded.
-/
namespace SyncAudit

open FileSystem (KeepsWays)

/-- The node with another content. Only a file has one. -/
def Node.withContent (content : List UInt8) : Node → Node
  | .file access _ => .file access content
  | node => node

namespace FileSystem

/-- The file system with another content of the file that a path leads to. -/
def refill (fs : FileSystem) (p : Path) (content : List UInt8) : FileSystem :=
  match fs.locate .follow p with
  | .ok (loc, _) => fs.mapNodes (alterAt loc (Node.withContent content))
  | .error _ => fs

variable {fs : FileSystem} {p : Path} {bytes : List UInt8}

theorem keepsWays_withContent (content : List UInt8) :
    KeepsWays fun _ => Node.withContent content where
  directory _ access := ⟨access, rfl, rfl⟩
  file _ access _ := ⟨access, content, rfl⟩
  link _ _ := rfl

theorem keepsListing_withContent (loc l : Location) (content : List UInt8) :
    KeepsListing (alterAt loc (Node.withContent content)) l := by
  intro access access' heq
  have hsame : alterAt loc (Node.withContent content) l (.directory access) = .directory access :=
    ite_self _
  rw [Node.directory.inj (heq.symm.trans hsame)]

/-- A file that can be read is found and read in its place after it has been filled anew. -/
theorem refill_of_read (h : fs.read p = .ok bytes) (content : List UInt8) :
    (fs.refill p content).read p = .ok content ∧
      ∃ loc, fs.refill p content = fs.mapNodes (alterAt loc (Node.withContent content)) := by
  obtain ⟨loc, access, hl, hread⟩ := exists_file_of_read h
  have hrefill : fs.refill p content = fs.mapNodes (alterAt loc (Node.withContent content)) := by
    rw [refill, hl]
  have hl' : (fs.refill p content).locate .follow p = .ok (loc, .file access content) := by
    rw [hrefill, ((keepsWays_withContent content).alterAt loc).locate, hl, Except.map, alterAt,
      if_pos rfl, Node.withContent]
  refine ⟨?_, loc, hrefill⟩
  rw [read_of_file hl', if_pos hread]

end FileSystem

variable {fs : FileSystem} {options : AuditOptions} {style : ProgressStyle} {now : Timestamp}
  {ids root marker : Path} {bytes : List UInt8} {text text' : String}
  {alter : Location → Node → Node} {valid valid' : IdSet} {repos : List FoundRepo}

theorem checkRoot_mapNodes (h : KeepsWays alter) :
    checkRoot (fs.mapNodes alter) root = checkRoot fs root := by
  rw [checkRoot, checkRoot, h.stat, FileSystem.stat]
  cases fs.locate .follow root with
  | error e => rfl
  | ok found => simp only [Except.map, (h.kind _ _).1]

theorem classify_mapNodes (h : KeepsWays alter) {repo : FoundRepo}
    (hsame : valid'.contains repo.id = valid.contains repo.id) :
    classify (fs.mapNodes alter) valid' marker repo = classify fs valid marker repo := by
  rw [classify_congr hsame, classify, classify, hasMarker, hasMarker, h.exists?]

/-- What an audit comes to, with another number of ids that were loaded. -/
def Audited.withLoaded (loaded : Nat) (a : Audited) : Audited :=
  { a with report := { a.report with validIdsLoaded := loaded } }

theorem classifyAll_withLoaded (h : KeepsWays alter)
    (hsame : ∀ repo ∈ repos, valid'.contains repo.id = valid.contains repo.id) (loaded : Nat)
    (start : Audited) :
    (classifyAll (fs.mapNodes alter) valid' marker (start.withLoaded loaded) repos).result =
      (classifyAll fs valid marker start repos).result.map (Audited.withLoaded loaded) := by
  induction repos generalizing start with
  | nil => rfl
  | cons repo rest ih =>
    obtain ⟨hrepo, hrest⟩ := List.forall_mem_cons.mp hsame
    rw [classifyAll, classifyAll, classify_mapNodes h hrepo]
    exact Run.bind_result_map_same fun entry _ => ih hrest (start.push entry)

theorem auditAgainst_withLoaded (hfs : fs.ProperNames) (h : KeepsWays alter)
    (hlisting : ∀ loc, FileSystem.KeepsListing alter loc)
    (hsame : ∀ repos, (Scan.scan fs options root).result = .ok repos →
      ∀ repo ∈ repos, valid'.contains repo.id = valid.contains repo.id) :
    (auditAgainst (fs.mapNodes alter) options style now valid' root).result =
      (auditAgainst fs options style now valid root).result.map
        (Audited.withLoaded valid'.size) := by
  have hscan : Scan.scan (fs.mapNodes alter) options root = Scan.scan fs options root :=
    Scan.scan_mapNodes hfs ⟨h, fun loc _ => hlisting loc, fun loc _ => .inl (hlisting loc)⟩
  rw [auditAgainst, auditAgainst, hscan]
  refine Run.bind_result_map_same fun repos hrepos => ?_
  refine Run.bind_result_map (Audited.withLoaded valid'.size)
    (classifyAll_withLoaded h (hsame repos hrepos) valid'.size ⟨.start valid.size now,
      .start style repos.length⟩) fun audited _ => ?_
  rw [Run.log_bind_result, Run.log_bind_result]
  rfl

/-- The id of a repository that a scan finds has proper parts. -/
theorem Scan.proper_of_mem (hfs : fs.ProperNames)
    (hscan : (Scan.scan fs options root).result = .ok repos) {repo : FoundRepo}
    (hrepo : repo ∈ repos) : repo.id.Proper := by
  obtain ⟨ns, r, hdiscovers, rfl⟩ := (Scan.mem_scan_iff hfs hscan).mp hrepo
  obtain ⟨hns, hr⟩ := hdiscovers.entryNames hfs
  exact hns.proper_lossy hr

/-- An audit with the malformed lines taken from its id list comes to the same, but for the number
of ids. -/
theorem audit_refill (hfs : fs.ProperNames) (hread : fs.read ids = .ok bytes)
    (htext : Text.ofBytes? bytes = some text)
    (hlines : IdSet.WithoutMalformed options.skipBlankLines text text') :
    (audit (fs.refill ids (Text.toBytes text')) options style now ids root).result =
      (audit fs options style now ids root).result.map (Audited.withLoaded
        (IdSet.keptLines options.skipBlankLines text').toFinset.card) := by
  generalize hbytes' : Text.toBytes text' = bytes'
  have htext' : Text.ofBytes? bytes' = some text' := by rw [← hbytes', Text.ofBytes_toBytes]
  obtain ⟨hread', loc, hrefill⟩ := FileSystem.refill_of_read hread bytes'
  have hways := (FileSystem.keepsWays_withContent bytes').alterAt loc
  have hload : (IdSet.load fs options.skipBlankLines ids).result =
      .ok (.ofList (IdSet.keptLines options.skipBlankLines text)) :=
    IdSet.load_result.mpr ⟨bytes, text, hread, htext, rfl⟩
  have hload' : (IdSet.load (fs.refill ids bytes') options.skipBlankLines ids).result =
      .ok (.ofList (IdSet.keptLines options.skipBlankLines text')) :=
    IdSet.load_result.mpr ⟨bytes', text', hread', htext', rfl⟩
  have hroot : checkRoot (fs.refill ids bytes') root = checkRoot fs root := by
    rw [hrefill, checkRoot_mapNodes hways]
  rw [audit, audit, checkIdsFile_of_read hread, checkIdsFile_of_read hread', hroot]
  refine Run.bind_result_map_same fun _ _ => Run.bind_result_map_same fun _ _ => ?_
  rw [Run.bind_of_ok hload, Run.bind_of_ok hload', hrefill, ← IdSet.size_ofList]
  exact auditAgainst_withLoaded hfs hways (FileSystem.keepsListing_withContent loc · bytes')
    fun repos hscan repo hrepo => hlines.contains_eq (Scan.proper_of_mem hfs hscan hrepo)

/-- The lines that are warned of are those that are kept and spell no id. None of them is the key of
a repository that a scan finds, so without them an audit reports the same entries and counts, or
fails in the same way. -/
theorem malformed_lines_match_nothing (options : AuditOptions) (style : ProgressStyle)
    (now : Timestamp) (ids root : Path) (hfs : fs.ProperNames)
    (htext : Text.ofBytes? bytes = some text) :
    (∀ skipBlank, IdSet.WarnsOfMalformed skipBlank text (IdSet.read skipBlank bytes).events) ∧
    (∀ repos, (Scan.scan fs options root).result = .ok repos → ∀ repo ∈ repos,
      ∀ skipBlank number,
        .malformedLine number repo.id.key ∉ (IdSet.read skipBlank bytes).events) ∧
    (∃ text', IdSet.WithoutMalformed options.skipBlankLines text text') ∧
    (fs.read ids = .ok bytes → ∀ text',
      IdSet.WithoutMalformed options.skipBlankLines text text' →
        (audit (fs.refill ids (Text.toBytes text')) options style now ids root).result =
          (audit fs options style now ids root).result.map (Audited.withLoaded
            (IdSet.keptLines options.skipBlankLines text').toFinset.card)) := by
  have hwarns := fun skipBlank => IdSet.read_warnsOfMalformed skipBlank htext
  refine ⟨hwarns, ?_, IdSet.exists_withoutMalformed _ text, ?_⟩
  · intro repos hscan repo hrepo skipBlank number
    exact (hwarns skipBlank).key_not_mem (Scan.proper_of_mem hfs hscan hrepo) number
  · intro hread text' hlines
    exact audit_refill hfs hread htext hlines

/-- An id list with a line that has a slash too many and a line without one, and the only repository
that is listed. -/
def sloppyIds : String :=
  "acme/widgets/old\nacme/widgets\nwidgets\n"

def sloppyShelf : FileSystem :=
  .ofFixtures []
    [.file (.ofString "ids") (Text.toBytes sloppyIds), .directory (.ofString "sync/acme/widgets")]

theorem sloppyShelf_matches_nothing :
    Text.ofBytes? (Text.toBytes sloppyIds) = some sloppyIds ∧
    (∀ skipBlank, IdSet.WarnsOfMalformed skipBlank sloppyIds
      (IdSet.read skipBlank (Text.toBytes sloppyIds)).events) ∧
    (∀ repos, (Scan.scan sloppyShelf .default (.ofString "sync")).result = .ok repos →
      ∀ repo ∈ repos, ∀ skipBlank number, .malformedLine number repo.id.key ∉
        (IdSet.read skipBlank (Text.toBytes sloppyIds)).events) ∧
    (audit (sloppyShelf.refill (.ofString "ids") (Text.toBytes "acme/widgets\n")) .default .hidden
        .epoch (.ofString "ids") (.ofString "sync")).result =
      (audit sloppyShelf .default .hidden .epoch (.ofString "ids") (.ofString "sync")).result.map
        (Audited.withLoaded (IdSet.keptLines true "acme/widgets\n").toFinset.card) := by
  have htext : Text.ofBytes? (Text.toBytes sloppyIds) = some sloppyIds := Text.ofBytes_toBytes _
  have hread : sloppyShelf.read (.ofString "ids") = .ok (Text.toBytes sloppyIds) := by
    decide +kernel
  have hlines : IdSet.WithoutMalformed true sloppyIds "acme/widgets\n" := by
    rw [IdSet.WithoutMalformed]
    decide +kernel
  have hfs : sloppyShelf.ProperNames := FileSystem.properNames_ofFixtures (by decide) _
  obtain ⟨hwarns, hkeys, -, hsame⟩ := malformed_lines_match_nothing .default .hidden .epoch
    (.ofString "ids") (.ofString "sync") hfs htext
  exact ⟨htext, hwarns, hkeys, hsame hread _ hlines⟩

end SyncAudit
