import SyncAudit.Proofs.Scan.Reading

/-!
# Permission to list what a scan does not list

A scan lists its root and the namespaces. Whether it may list a directory other than these makes no
difference, unless a link that it follows leads to that directory: the directory is then opened, to
be compared with those above the link, and a scan that may not list it fails.
-/
namespace SyncAudit

/-- The node with another permission to list it. Only a directory can be listed. -/
def Node.withListing (readable : Bool) : Node → Node
  | .directory access => .directory { access with read := readable }
  | node => node

namespace FileSystem

/-- The file system with another permission to list the directory at a location. -/
def withListing (fs : FileSystem) (loc : Location) (readable : Bool) : FileSystem :=
  fs.mapNodes (alterAt loc (Node.withListing readable))

theorem keepsWays_withListing (readable : Bool) : KeepsWays fun _ => Node.withListing readable where
  directory _ _ := ⟨_, rfl, rfl⟩
  file _ access content := ⟨access, content, rfl⟩
  link _ _ := rfl

theorem takesListing_withListing (loc : Location) :
    TakesListing (alterAt loc (Node.withListing false)) loc := by
  intro access access' heq
  rw [alterAt, if_pos rfl, Node.withListing] at heq
  rw [← Node.directory.inj heq]

end FileSystem

namespace Scan

open FileSystem

variable {fs : FileSystem} {options : AuditOptions} {root : Path} {loc : Location}

/-- A directory that is not opened may be given or denied to be listed. -/
theorem keepsWalk_of_not_opens (hlists : ¬ Lists fs options root loc)
    (hopens : ¬ Opens fs options root loc) (readable : Bool) :
    KeepsWalk fs options root False (alterAt loc (Node.withListing readable)) where
  ways := (keepsWays_withListing readable).alterAt loc
  listed _ hlisted := keepsListing_alterAt fun heq => hlists (heq ▸ hlisted)
  opened _ hopened := .inl (keepsListing_alterAt fun heq => hopens (heq ▸ hopened))

theorem keepsWalk_of_not_lists (hlists : ¬ Lists fs options root loc) :
    KeepsWalk fs options root True (alterAt loc (Node.withListing false)) where
  ways := (keepsWays_withListing false).alterAt loc
  listed _ hlisted := keepsListing_alterAt fun heq => hlists (heq ▸ hlisted)
  opened l _ := by
    by_cases heq : l = loc
    · exact .inr ⟨trivial, heq ▸ takesListing_withListing loc⟩
    · exact .inl (keepsListing_alterAt heq)

/-- No scan succeeds that opens a directory which it may not list. -/
theorem result_ne_ok_of_opens (hfs : fs.ProperNames) (hlists : ¬ Lists fs options root loc)
    (hopens : Opens fs options root loc) (repos : List FoundRepo) :
    (scan (fs.withListing loc false) options root).result ≠ .ok repos := by
  intro hscan
  obtain ⟨hfollow, stack, path, access, hmeets, hl⟩ := hopens
  have hkeeps := keepsWalk_of_not_lists hlists
  -- The link is met in the changed file system as well, where its target is not listable.
  obtain ⟨n, out, hout, hunbroken⟩ :=
    (hkeeps.meets hmeets).followed (hfs.mapNodes _) hfollow hscan
  obtain ⟨access', hdirectory, -⟩ := hkeeps.ways.directory loc access
  have hl' : (fs.withListing loc false).locate .follow path = .ok (loc, .directory access') := by
    rw [withListing, hkeeps.ways.locate, hl, Except.map, hdirectory]
  have hread := (hout.of_directory hunbroken hl').1
  rw [takesListing_withListing loc access access' hdirectory] at hread
  simp at hread

/-- The permission to list a directory that is neither the root nor a namespace makes no difference
to a scan if no link that it follows leads there. If one does, a scan without the permission fails,
with the error that it has anyway or with that of the directory. -/
theorem scan_of_withListing (hfs : fs.ProperNames) (hlists : ¬ Lists fs options root loc) :
    (¬ Opens fs options root loc → ∀ readable,
      scan (fs.withListing loc readable) options root = scan fs options root) ∧
    (Opens fs options root loc → ∃ e,
      (scan (fs.withListing loc false) options root).result = .error e ∧
        ((scan fs options root).result = .error e ∨
          e = .walk (.unopened (.os .accessDenied)))) := by
  constructor
  · intro hopens readable
    exact scan_mapNodes hfs (keepsWalk_of_not_opens hlists hopens readable)
  · intro hopens
    have hfails := result_ne_ok_of_opens hfs hlists hopens
    cases hres : (scan (fs.withListing loc false) options root).result with
    | ok repos => exact absurd hres (hfails repos)
    | error e =>
      refine ⟨e, rfl, ?_⟩
      rcases (keepsWalk_of_not_lists hlists).scan hfs with hsame | ⟨-, hdenied⟩
      · rw [withListing, hsame] at hres
        exact .inl hres
      · rw [withListing, hdenied] at hres
        exact .inr (Except.error.inj hres).symm

/-- A namespace with a repository and with a link to a directory that its owner may search and not
list. -/
def vaultShelf : FileSystem :=
  .ofFixtures []
    [.directory (.ofString "sync/acme/widgets"), .directory (.ofString "vault"),
      .link (.ofString "sync/acme/x") (.ofString "../../vault"),
      .permissions (.ofString "vault") 1]

theorem vaultShelf_root :
    vaultShelf.list (.ofString "sync") = .ok ([Text.toBytes "sync"], [Text.toBytes "acme"]) := by
  decide +kernel

theorem vaultShelf_acme :
    vaultShelf.node? [Text.toBytes "acme", Text.toBytes "sync"] =
      some (.directory .full) := by
  decide +kernel

theorem vaultShelf_not_lists :
    ¬ Lists vaultShelf .default (.ofString "sync") [Text.toBytes "vault"] := by
  intro hlists
  generalize hvault : [Text.toBytes "vault"] = loc at hlists
  cases hlists with
  | root hl =>
    obtain ⟨_, hroot, -⟩ := list_eq_ok_iff.mp vaultShelf_root
    obtain ⟨rfl, -⟩ := locate_unique hroot hl
    exact absurd hvault (by decide)
  | walked hdir =>
    cases hdir with
    | root hroot =>
      obtain ⟨rfl, -⟩ := list_unique vaultShelf_root hroot
      exact absurd hvault (by decide)
    | entry hdir henters =>
      cases hdir with
      | root hroot =>
        obtain ⟨rfl, -⟩ := list_unique vaultShelf_root hroot
        obtain rfl := List.mem_singleton.mp ((mem_of_list vaultShelf_root).mpr henters.node)
        -- The only namespace is a directory, so the walk enters it where it stands.
        cases henters with
        | directory => exact absurd hvault (by decide)
        | link _ hnode => simp [vaultShelf_acme] at hnode

theorem vaultShelf_scan_of_listing :
    (¬ Opens vaultShelf .default (.ofString "sync") [Text.toBytes "vault"] → ∀ readable,
      scan (vaultShelf.withListing [Text.toBytes "vault"] readable) .default (.ofString "sync") =
        scan vaultShelf .default (.ofString "sync")) ∧
    (Opens vaultShelf .default (.ofString "sync") [Text.toBytes "vault"] → ∃ e,
      (scan (vaultShelf.withListing [Text.toBytes "vault"] false) .default
          (.ofString "sync")).result = .error e ∧
        ((scan vaultShelf .default (.ofString "sync")).result = .error e ∨
          e = .walk (.unopened (.os .accessDenied)))) :=
  scan_of_withListing (properNames_ofFixtures (by decide) _) vaultShelf_not_lists

/-- A scan depends on the permission to list a directory that it reaches through a link only. -/
theorem vaultShelf_scan_depends :
    ¬ Lists vaultShelf .default (.ofString "sync") [Text.toBytes "vault"] ∧
      (scan vaultShelf .default (.ofString "sync")).result =
        .error (.walk (.unopened (.os .accessDenied))) ∧
      (scan (vaultShelf.withListing [Text.toBytes "vault"] true) .default
          (.ofString "sync")).result =
        .ok [⟨⟨"acme", "widgets"⟩, .ofString "sync/acme/widgets"⟩,
          ⟨⟨"acme", "x"⟩, .ofString "sync/acme/x"⟩] :=
  ⟨vaultShelf_not_lists, by decide +kernel, by decide +kernel⟩

end Scan
end SyncAudit
