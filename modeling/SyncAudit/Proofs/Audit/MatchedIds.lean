import Mathlib.Data.Set.Card
import SyncAudit.Proofs.Audit.UndecodableNames
import SyncAudit.Proofs.Text.Encoding

/-!
# Ids that are matched

Where the names of all repositories that a walk discovers are text, no two of them have one key,
since a name holds no slash. The number of valid repositories is then the number of ids that belong
to one, and what is missing to the number of ids is the number of those with no directory.
-/
namespace SyncAudit

namespace Scan

/-- The bytes of a repository's key are its two names with a slash between them. -/
theorem toBytes_key (root : Path) {ns r : Name} (hns : Text.ofBytes? ns ≠ none)
    (hr : Text.ofBytes? r ≠ none) :
    Text.toBytes (repoAt root (ns, r)).id.key = ns ++ slash :: r := by
  have hlossy : ∀ {n : Name}, Text.ofBytes? n ≠ none → Text.toBytes (Text.ofBytesLossy n) = n := by
    intro n hn
    obtain ⟨s, hs⟩ := Option.ne_none_iff_exists'.mp hn
    rw [Text.ofBytesLossy_of_ofBytes hs, Text.toBytes_of_ofBytes hs]
  have hslash : Text.toBytes "/" = [slash] := by decide
  rw [repoAt, RepoId.key, Text.toBytes_append, Text.toBytes_append, hlossy hns, hlossy hr, hslash,
    List.append_assoc, List.singleton_append]

/-- A walk discovers a repository whose names, with a slash between them, are the bytes of an id. -/
def DiscoversId (fs : FileSystem) (options : AuditOptions) (root : Path) (id : String) : Prop :=
  ∃ ns r, Discovers fs options root ns r ∧ Text.toBytes id = ns ++ slash :: r

variable {fs : FileSystem} {options : AuditOptions} {root : Path} {pairs : List (Name × Name)}

theorem nodup_keys (hfs : fs.ProperNames) (hnodup : pairs.Nodup)
    (hpairs : ∀ ns r, (ns, r) ∈ pairs → Discovers fs options root ns r)
    (htext : ∀ ns r, Discovers fs options root ns r →
      Text.ofBytes? ns ≠ none ∧ Text.ofBytes? r ≠ none) :
    ((pairs.map (repoAt root)).map fun repo => repo.id.key).Nodup := by
  rw [List.map_map]
  refine hnodup.map_on ?_
  rintro ⟨ns, r⟩ hpair ⟨ns', r'⟩ hpair' hkey
  have hdiscovered := hpairs ns r hpair
  have hdiscovered' := hpairs ns' r' hpair'
  obtain ⟨hns, hr⟩ := hdiscovered.entryNames hfs
  have hbytes : ns ++ slash :: r = ns' ++ slash :: r' := by
    rw [← toBytes_key root (htext ns r hdiscovered).1 (htext ns r hdiscovered).2,
      ← toBytes_key root (htext ns' r' hdiscovered').1 (htext ns' r' hdiscovered').2]
    exact congrArg Text.toBytes hkey
  -- neither name holds a slash, so the one between them is where the bytes part
  obtain ⟨rfl, -, rfl⟩ := (List.append_cons_inj_of_notMem hns.noSlash hr.noSlash).mp hbytes
  rfl

theorem mem_keys_iff_discoversId
    (hpairs : ∀ ns r, (ns, r) ∈ pairs ↔ Discovers fs options root ns r)
    (htext : ∀ ns r, Discovers fs options root ns r →
      Text.ofBytes? ns ≠ none ∧ Text.ofBytes? r ≠ none) {id : String} :
    (∃ repo ∈ pairs.map (repoAt root), repo.id.key = id) ↔ DiscoversId fs options root id := by
  constructor
  · rintro ⟨repo, hrepo, rfl⟩
    obtain ⟨⟨ns, r⟩, hpair, rfl⟩ := List.mem_map.mp hrepo
    have hdiscovered := (hpairs ns r).mp hpair
    obtain ⟨hns, hr⟩ := htext ns r hdiscovered
    exact ⟨ns, r, hdiscovered, toBytes_key root hns hr⟩
  · rintro ⟨ns, r, hdiscovered, hid⟩
    obtain ⟨hns, hr⟩ := htext ns r hdiscovered
    refine ⟨_, List.mem_map_of_mem ((hpairs ns r).mpr hdiscovered), ?_⟩
    rw [← Text.toBytes_inj, toBytes_key root hns hr, hid]

end Scan

/-- As many distinct keys are among some ids as ids among the keys. -/
theorem countP_mem_eq_ncard {keys ids : List String} (hkeys : keys.Nodup) :
    keys.countP (fun key => key ∈ ids) = {id | id ∈ ids ∧ id ∈ keys}.ncard := by
  have hset : {id | id ∈ ids ∧ id ∈ keys} =
      ((keys.filter fun key => key ∈ ids).toFinset : Set String) := by
    ext id
    simp [and_comm]
  rw [hset, Set.ncard_coe_finset, List.toFinset_card_of_nodup (hkeys.filter _),
    List.countP_eq_length_filter]

/-- The ids of a set either have a property or have it not. -/
theorem IdSet.ncard_add_ncard_not (set : IdSet) (p : String → Prop) :
    {id | id ∈ set.ids ∧ p id}.ncard + {id | id ∈ set.ids ∧ ¬ p id}.ncard = set.size := by
  have hsize : {id | id ∈ set.ids}.ncard = set.size := by
    rw [← List.coe_toFinset, Set.ncard_coe_finset, List.toFinset_card_of_nodup set.nodup, size]
  rw [← hsize]
  exact Set.ncard_inter_add_ncard_sdiff_eq_ncard {id | id ∈ set.ids} {id | p id}
    set.ids.finite_toSet

variable {fs : FileSystem} {options : AuditOptions} {style : ProgressStyle} {now : Timestamp}
  {ids root : Path} {out : Audited}

/-- The repositories that are not invalid are those whose keys are among the ids. -/
theorem valid_of_classified {valid : IdSet} {marker : Path} {repos : List FoundRepo} {r : Report}
    (hcounted : r.Counted)
    (h : repos.Forall₂ (fun repo entry => (classify fs valid marker repo).result = .ok entry)
      r.entries) :
    r.summary.valid = (repos.map fun repo => repo.id.key).countP fun key => key ∈ valid.ids := by
  rw [hcounted.valid_of_verdicts, classify_verdicts h, List.countP_map, List.countP_map]
  simp [Function.comp_def, IdSet.contains]

theorem keys_of_classified {valid : IdSet} {marker : Path} {repos : List FoundRepo}
    {entries : List RepoEntry}
    (h : repos.Forall₂ (fun repo entry => (classify fs valid marker repo).result = .ok entry)
      entries) :
    (entries.map fun entry => entry.id.key) = repos.map fun repo => repo.id.key := by
  have hverdicts := congrArg (List.map fun v => v.1.id.key) (classify_verdicts h)
  rwa [List.map_map, List.map_map] at hverdicts

/-- Where the names of all discovered repositories are text, the keys in a report are distinct and
as many repositories are valid as ids are the key of one. The ids that are left are those for which
the walk discovers no directory. -/
theorem counts_of_text_names (hfs : fs.ProperNames)
    (h : (audit fs options style now ids root).result = .ok out)
    (htext : ∀ ns r, Scan.Discovers fs options root ns r →
      Text.ofBytes? ns ≠ none ∧ Text.ofBytes? r ≠ none) :
    ∃ loaded repos, (IdSet.load fs options.skipBlankLines ids).result = .ok loaded ∧
      (Scan.scan fs options root).result = .ok repos ∧
      (out.report.entries.map fun entry => entry.id.key).Nodup ∧
      out.report.summary.valid =
        {id | id ∈ loaded.ids ∧ ∃ repo ∈ repos, repo.id.key = id}.ncard ∧
      out.report.summary.valid ≤ out.report.validIdsLoaded ∧
      out.report.validIdsLoaded - out.report.summary.valid =
        {id | id ∈ loaded.ids ∧ ¬ Scan.DiscoversId fs options root id}.ncard := by
  obtain ⟨-, -, loaded, hloaded, hagainst⟩ := audit_result.mp h
  obtain ⟨repos, hrepos, hentries, hcounted, hsize⟩ := auditAgainst_result hagainst
  obtain ⟨pairs, hnodup, hpairs, hmap⟩ := Scan.exists_pairs_of_scan hfs hrepos
  have hkeys : (repos.map fun repo => repo.id.key).Nodup := by
    rw [hmap]
    exact Scan.nodup_keys hfs hnodup (fun ns r => (hpairs ns r).mp) htext
  have hmatched : out.report.summary.valid =
      {id | id ∈ loaded.ids ∧ ∃ repo ∈ repos, repo.id.key = id}.ncard := by
    rw [valid_of_classified hcounted hentries, countP_mem_eq_ncard hkeys]
    simp only [List.mem_map]
  have hdiscovered : ∀ id, (∃ repo ∈ repos, repo.id.key = id) ↔
      Scan.DiscoversId fs options root id := by
    intro id
    rw [hmap]
    exact Scan.mem_keys_iff_discoversId hpairs htext
  have hsum := loaded.ncard_add_ncard_not fun id => ∃ repo ∈ repos, repo.id.key = id
  rw [← hmatched, ← hsize] at hsum
  simp only [hdiscovered] at hsum
  refine ⟨loaded, repos, hloaded, hrepos, ?_, hmatched, ?_, ?_⟩
  · rw [keys_of_classified hentries]
    exact hkeys
  · omega
  · omega

/-- An id list with a line twice and a line for which there is nothing, and two repositories. -/
def gappedShelf : FileSystem :=
  .ofFixtures []
    [.file (.ofString "ids") (Text.toBytes "acme/widgets\nacme/gone\n acme/widgets\n"),
      .directory (.ofString "sync/acme/widgets"), .directory (.ofString "sync/acme/old")]

def gappedReport : Report where
  summary := ⟨1, 0, 1⟩
  validIdsLoaded := 2
  entries :=
    [⟨⟨"acme", "old"⟩, .ofString "sync/acme/old", .invalid⟩,
      ⟨⟨"acme", "widgets"⟩, .ofString "sync/acme/widgets", .valid⟩]
  generatedAt := .epoch

theorem gappedShelf_audited :
    (audit gappedShelf .default .hidden .epoch (.ofString "ids") (.ofString "sync")).result =
      .ok ⟨gappedReport, ⟨.hidden, 2, ⟨1, 0, 1⟩⟩⟩ := by
  decide +kernel

theorem gappedShelf_counts :
    ∃ loaded repos, (IdSet.load gappedShelf true (.ofString "ids")).result = .ok loaded ∧
      (Scan.scan gappedShelf .default (.ofString "sync")).result = .ok repos ∧
      (gappedReport.entries.map fun entry => entry.id.key).Nodup ∧
      1 = {id | id ∈ loaded.ids ∧ ∃ repo ∈ repos, repo.id.key = id}.ncard ∧
      1 ≤ 2 ∧
      2 - 1 = {id | id ∈ loaded.ids ∧
        ¬ Scan.DiscoversId gappedShelf .default (.ofString "sync") id}.ncard := by
  have hnodes : (gappedShelf.nodes.all fun row => row.1.all fun n =>
      (Text.ofBytes? n).isSome) = true := by decide +kernel
  have htext : ∀ {loc node n}, gappedShelf.node? (n :: loc) = some node →
      Text.ofBytes? n ≠ none := by
    intro loc node n hnode
    have hrow := List.all_eq_true.mp hnodes _ (FileSystem.node_eq_some_iff.mp hnode)
    exact Option.isSome_iff_ne_none.mp (List.all_eq_true.mp hrow n List.mem_cons_self)
  refine counts_of_text_names (FileSystem.properNames_ofFixtures (by decide) _) gappedShelf_audited
    fun ns r hdiscovers => ?_
  obtain ⟨⟨_, _, hns⟩, _, _, hr⟩ := hdiscovers.nodes
  exact ⟨htext hns, htext hr⟩

end SyncAudit
