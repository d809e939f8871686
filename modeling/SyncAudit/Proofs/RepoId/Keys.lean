import SyncAudit.Proofs.Audit.MalformedLines
import SyncAudit.Proofs.RepoId.Spelling

/-!
# Ids by their keys

An id is looked up by its key. Ids whose namespaces hold no slash have different keys, and those of
a scan are such ids, so a set never takes one of them for another. Whether an id is read back from
its key is a stricter question: both parts must be there, neither may hold a slash, and no white
space may stand at the ends of the key, since it would be dropped there.
-/
namespace SyncAudit

namespace RepoId

variable {id id' : RepoId}

theorem key_inj (h : '/' ∉ id.ns.toList) (h' : '/' ∉ id'.ns.toList) (hkey : id.key = id'.key) :
    id = id' := by
  have hsplit : splitAtSlash id.key.toList = splitAtSlash id'.key.toList := by rw [hkey]
  rw [key_toList, key_toList, splitAtSlash_append h, splitAtSlash_append h'] at hsplit
  obtain ⟨hns, hname⟩ := Prod.mk.inj (Option.some.inj hsplit)
  cases id
  cases id'
  rw [RepoId.mk.injEq]
  exact ⟨String.toList_inj.mp hns, String.toList_inj.mp hname⟩

theorem parse_key_eq_ok_iff :
    parse id.key = .ok id ↔ id.Proper ∧
      (∀ c, id.ns.toList.head? = some c → Text.isBlank c = false) ∧
      ∀ c, id.name.toList.getLast? = some c → Text.isBlank c = false := by
  constructor
  · intro h
    obtain ⟨before, behind, hspells⟩ := exists_spells_of_parse h
    exact ⟨hspells.proper, hspells.nsStart, hspells.nameEnd⟩
  · rintro ⟨hproper, hstart, hend⟩
    have hspells : Spells id.key "" id "" := by
      refine ⟨?_, hproper, hstart, hend, by simp, by simp⟩
      rw [String.append_empty, String.empty_append, key]
    exact hspells.parse_eq

theorem proper_mk_iff {ns name : String} :
    Proper ⟨ns, name⟩ ↔ ns ≠ "" ∧ name ≠ "" ∧ '/' ∉ ns.toList ∧ '/' ∉ name.toList := by
  have hempty (s : String) : s.toList ≠ [] ↔ s ≠ "" := by
    rw [Ne, Ne, String.toList_eq_nil_iff]
  constructor
  · intro h
    exact ⟨(hempty ns).mp h.nsNonempty, (hempty name).mp h.nameNonempty, h.nsNoSlash, h.nameNoSlash⟩
  · rintro ⟨hns, hname, hnsSlash, hnameSlash⟩
    exact ⟨(hempty ns).mpr hns, (hempty name).mpr hname, hnsSlash, hnameSlash⟩

/-- Some scan of a file system reports a repository under this id. -/
def Reported (id : RepoId) : Prop :=
  ∃ fs options root repos, fs.ProperNames ∧ (Scan.scan fs options root).result = .ok repos ∧
    ∃ repo ∈ repos, repo.id = id

theorem Reported.proper (h : id.Reported) : id.Proper := by
  obtain ⟨fs, options, root, repos, hfs, hscan, repo, hrepo, rfl⟩ := h
  exact Scan.proper_of_mem hfs hscan hrepo

theorem contains_insert_key (h : '/' ∉ id.ns.toList) (h' : '/' ∉ id'.ns.toList) (set : IdSet) :
    (set.insert id.key).contains id' = true ↔ id' = id ∨ set.contains id' = true := by
  rw [IdSet.contains, IdSet.contains, decide_eq_true_iff, decide_eq_true_iff, IdSet.mem_insert]
  refine or_congr_left ⟨key_inj h' h, ?_⟩
  rintro rfl
  rfl

/-- Which ids are read back from their keys, and that keys tell ids apart: adding the key of one id
to a set makes no difference to another that a scan can report. -/
theorem keys_identify :
    (∀ ns name : String, parse (key ⟨ns, name⟩) = .ok ⟨ns, name⟩ ↔
      ns ≠ "" ∧ name ≠ "" ∧ '/' ∉ ns.toList ∧ '/' ∉ name.toList ∧
        (∀ c, ns.toList.head? = some c → Text.isBlank c = false) ∧
        ∀ c, name.toList.getLast? = some c → Text.isBlank c = false) ∧
    (∀ id id' : RepoId, '/' ∉ id.ns.toList → '/' ∉ id'.ns.toList → id.key = id'.key → id = id') ∧
    ∀ id id' : RepoId, id.Reported → id'.Reported → ∀ set : IdSet,
      ((set.insert id.key).contains id' = true ↔ id' = id ∨ set.contains id' = true) := by
  refine ⟨?_, fun id id' => key_inj, ?_⟩
  · intro ns name
    rw [parse_key_eq_ok_iff, proper_mk_iff]
    simp only [and_assoc]
  · intro id id' h h' set
    exact contains_insert_key h.proper.nsNoSlash h'.proper.nsNoSlash set

/-- A shelf with two repositories whose ids are alike but for where the slash stands. -/
def alikeShelf : FileSystem :=
  .ofFixtures [] [.directory (.ofString "sync/a/bc"), .directory (.ofString "sync/ab/c")]

theorem alikeShelf_reported : Reported ⟨"a", "bc"⟩ ∧ Reported ⟨"ab", "c"⟩ := by
  have hfs : alikeShelf.ProperNames := FileSystem.properNames_ofFixtures (by decide) _
  have hscan : (Scan.scan alikeShelf .default (.ofString "sync")).result =
      .ok [⟨⟨"a", "bc"⟩, .ofString "sync/a/bc"⟩, ⟨⟨"ab", "c"⟩, .ofString "sync/ab/c"⟩] := by
    decide +kernel
  exact ⟨⟨_, _, _, _, hfs, hscan, _, List.mem_cons_self, rfl⟩,
    ⟨_, _, _, _, hfs, hscan, _, List.mem_cons_of_mem _ List.mem_cons_self, rfl⟩⟩

theorem alikeShelf_keys_identify :
    parse (key ⟨"a", "bc"⟩) = .ok ⟨"a", "bc"⟩ ∧
      key ⟨"a", "bc"⟩ ≠ key ⟨"ab", "c"⟩ ∧
      (IdSet.empty.insert (key ⟨"a", "bc"⟩)).contains ⟨"ab", "c"⟩ = false := by
  obtain ⟨hparse, hinj, hcontains⟩ := keys_identify
  refine ⟨(hparse "a" "bc").mpr ⟨by decide, by decide, by decide, by decide, ?_, ?_⟩, ?_, ?_⟩
  · rintro c ⟨⟩
    decide
  · rintro c ⟨⟩
    decide
  · intro hkey
    have hsame := hinj ⟨"a", "bc"⟩ ⟨"ab", "c"⟩ (by decide) (by decide) hkey
    exact absurd hsame (by decide)
  · rw [← Bool.not_eq_true, hcontains _ _ alikeShelf_reported.1 alikeShelf_reported.2]
    decide

end RepoId
end SyncAudit
