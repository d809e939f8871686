import SyncAudit.Proofs.Audit.Classification
import SyncAudit.Proofs.FileSystem.Trails
import SyncAudit.Settings.Validate

/-!
# Markers next to a repository

A marker that is accepted is a relative path, and it is meant to be looked for inside a repository.
That is so for a marker that looks nothing up above the repository. With a step upwards in front of a
name it is looked for in the surroundings as well, and with steps alone it is always there, so an
empty repository can count as configured.
-/
namespace SyncAudit

open FileSystem

variable {fs fs' : FileSystem} {marker repo : Path}

theorem hasMarker_of_stat (h : fs.stat (repo.join marker) = fs'.stat (repo.join marker)) :
    hasMarker fs marker repo = hasMarker fs' marker repo := by
  rw [hasMarker, hasMarker, FileSystem.exists?, FileSystem.exists?, h]

/-- Nothing is found in an empty directory by a path that looks for something there. -/
theorem hasMarker_of_empty (hrelative : marker.isAbsolute = false) (hne : marker.isEmpty = false)
    (hfs : fs.Plain) {loc : Location} (hlist : fs.list repo = .ok (loc, []))
    (hstarts : startsBelow marker.names = true) : hasMarker fs marker repo ≠ .ok true := by
  intro hfound
  rw [hasMarker_eq_ok_iff] at hfound
  obtain ⟨-, node, hnode⟩ | ⟨hfalse, -⟩ := hfound
  case inr => cases hfalse
  obtain ⟨access, hdir, -⟩ := list_eq_ok_iff.mp hlist
  have hempty : ∀ n, fs.node? (n :: loc) = none := by
    intro n
    rw [Option.eq_none_iff_forall_ne_some]
    intro entry hentry
    exact List.not_mem_nil ((mem_of_list hlist).mpr ⟨entry, hentry⟩)
  obtain ⟨onLink, hstat⟩ := stat_join_of_directory hrelative hne hdir
  rw [hstat] at hnode
  split at hnode
  · cases hnode
  split at hnode
  · cases hnode
  · exact hfs.statOf_ne_ok_of_empty (hfs.node_of_locate hdir) hempty hstarts _ _ node hnode

/-- A marker that looks nothing up above a repository is there or not by what stands in the
repository, and one that looks something up in it first is not in an empty repository. There are no
other such markers among those that leave room for the path of a repository. -/
theorem hasMarker_decided_below {settings : Settings} (h : settings.validate = .ok ()) :
    let marker := settings.audit.configMarker
    (staysWithin 0 marker.names = true → ∀ fs fs' repo, fs.Plain → fs'.Plain →
      SameAt fs fs' repo → hasMarker fs marker repo = hasMarker fs' marker repo) ∧
    (startsBelow marker.names = true → ∀ fs repo loc, fs.Plain → fs.list repo = .ok (loc, []) →
      hasMarker fs marker repo ≠ .ok true) ∧
    (Spacious marker →
      (staysWithin 0 marker.names = false → ∃ fs fs' repo, fs.Plain ∧ fs'.Plain ∧
        SameAt fs fs' repo ∧ hasMarker fs marker repo = .ok true ∧
          hasMarker fs' marker repo = .ok false) ∧
      (startsBelow marker.names = false → ∃ fs repo loc, fs.Plain ∧
        fs.list repo = .ok (loc, []) ∧ hasMarker fs marker repo = .ok true)) := by
  intro marker
  obtain ⟨hne, hrelative⟩ := settings.validate_eq_ok_iff.mp h
  refine ⟨?_, ?_, fun hroom => ⟨?_, ?_⟩⟩
  · intro hstays fs fs' repo hfs hfs' hsame
    exact hasMarker_of_stat (hsame.stat_join hfs hfs' hrelative hne hstays)
  · intro hstarts fs repo loc hfs hlist
    exact hasMarker_of_empty hrelative hne hfs hlist hstarts
  · intro hleaves
    obtain ⟨fs, fs', repo, hfs, hfs', hsame, hthere, hmissing⟩ := hroom.exists_sameAt hleaves
    refine ⟨fs, fs', repo, hfs, hfs', hsame, ?_, ?_⟩
    · exact hasMarker_eq_ok_iff.mpr (.inl ⟨rfl, _, hthere⟩)
    · exact hasMarker_eq_ok_iff.mpr (.inr ⟨rfl, hmissing⟩)
  · intro hstarts
    obtain ⟨fs, repo, loc, hfs, hlist, hthere⟩ := hroom.exists_empty hstarts
    exact ⟨fs, repo, loc, hfs, hlist, hasMarker_eq_ok_iff.mpr (.inl ⟨rfl, _, hthere⟩)⟩

/-! ## A repository with and without a neighbour -/

/-- What stands at a location and below it is told by the rows that are there. -/
theorem FileSystem.node_append (fs : FileSystem) (inner loc : Location) :
    fs.node? (inner ++ loc) =
      (fs.nodes.filter fun row => decide (loc <:+ row.1)).lookup (inner ++ loc) :=
  (Table.lookup_filter (fun l => decide (loc <:+ l))
    (decide_eq_true (List.suffix_append inner loc)) fs.nodes).symm

/-- An empty repository on its own. -/
def loneShelf : FileSystem :=
  .ofFixtures [] [.directory (.ofString "sync/acme/widgets")]

/-- The same repository with another one next to it. -/
def pairedShelf : FileSystem :=
  .ofFixtures []
    [.directory (.ofString "sync/acme/widgets"), .directory (.ofString "sync/acme/gadgets")]

def settingsWithMarker (marker : String) : Settings :=
  ⟨⟨.ofString marker, true, false, true⟩, .default⟩

theorem loneShelf_plain : loneShelf.Plain :=
  plain_ofFixtures (by simp) (by decide)

theorem pairedShelf_plain : pairedShelf.Plain :=
  plain_ofFixtures (by simp) (by decide)

theorem loneShelf_sameAt : SameAt pairedShelf loneShelf (.ofString "sync/acme/widgets") := by
  let loc : Location := [Text.toBytes "widgets", Text.toBytes "acme", Text.toBytes "sync"]
  have hrows : (pairedShelf.nodes.filter fun row => decide (loc <:+ row.1)) =
      loneShelf.nodes.filter fun row => decide (loc <:+ row.1) := by decide +kernel
  refine ⟨loc, loc, .directory .full, by decide +kernel, by decide +kernel, fun inner => ?_⟩
  rw [pairedShelf.node_append, loneShelf.node_append, hrows]

theorem loneShelf_decided_below :
    (settingsWithMarker ".oxen/../.oxen/config.toml").validate = .ok () ∧
      staysWithin 0 (Path.ofString ".oxen/../.oxen/config.toml").names = true ∧
      hasMarker pairedShelf (.ofString ".oxen/../.oxen/config.toml")
          (.ofString "sync/acme/widgets") =
        hasMarker loneShelf (.ofString ".oxen/../.oxen/config.toml")
          (.ofString "sync/acme/widgets") ∧
      hasMarker loneShelf (.ofString ".oxen/../.oxen/config.toml")
        (.ofString "sync/acme/widgets") ≠ .ok true := by
  have hvalid : (settingsWithMarker ".oxen/../.oxen/config.toml").validate = .ok () := by decide
  have hstays : staysWithin 0 (Path.ofString ".oxen/../.oxen/config.toml").names = true := by decide
  obtain ⟨hsame, hempty, -⟩ := hasMarker_decided_below hvalid
  have hlist : loneShelf.list (.ofString "sync/acme/widgets") =
      .ok ([Text.toBytes "widgets", Text.toBytes "acme", Text.toBytes "sync"], []) := by
    decide +kernel
  exact ⟨hvalid, hstays,
    hsame hstays _ _ _ pairedShelf_plain loneShelf_plain loneShelf_sameAt,
    hempty (by decide) _ _ _ loneShelf_plain hlist⟩

/-- A neighbour is taken for the marker of an empty repository. -/
theorem pairedShelf_neighbour_found :
    (settingsWithMarker "../gadgets").validate = .ok () ∧ pairedShelf.Plain ∧ loneShelf.Plain ∧
      SameAt pairedShelf loneShelf (.ofString "sync/acme/widgets") ∧
      (∃ loc, pairedShelf.list (.ofString "sync/acme/widgets") = .ok (loc, [])) ∧
      hasMarker pairedShelf (settingsWithMarker "../gadgets").audit.configMarker
        (.ofString "sync/acme/widgets") = .ok true ∧
      hasMarker loneShelf (settingsWithMarker "../gadgets").audit.configMarker
        (.ofString "sync/acme/widgets") = .ok false :=
  ⟨by decide, pairedShelf_plain, loneShelf_plain, loneShelf_sameAt,
    ⟨["widgets", "acme", "sync"].map Text.toBytes, by decide +kernel⟩, by decide +kernel,
    by decide +kernel⟩

end SyncAudit
