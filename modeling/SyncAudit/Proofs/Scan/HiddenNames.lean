import SyncAudit.Proofs.Scan.Narrowing
import SyncAudit.Proofs.Text.Encoding

/-!
# Hidden directories

With `skipHidden`, a scan leaves out the directories whose names are text that starts with a dot,
and with a namespace all that it holds. A name that starts with the byte of a dot and is not text is
not taken for hidden, at either level. Where all names are text, leaving hidden directories out of
the walk comes to the same as leaving them out of its result.
-/
namespace SyncAudit

/-- The options with hidden directories shown. -/
def AuditOptions.showingHidden (options : AuditOptions) : AuditOptions :=
  { options with skipHidden := false }

/-- The options with hidden directories left out. -/
def AuditOptions.withoutHidden (options : AuditOptions) : AuditOptions :=
  { options with skipHidden := true }

namespace Scan

variable {fs : FileSystem} {options : AuditOptions} {root : Path} {repos : List FoundRepo}
  {dir : Ancestor} {above : List Ancestor} {n ns r : Name} {loc : Location} {e : WalkError}

theorem shown_iff (hskip : options.skipHidden = true) :
    Shown options n ↔ (n.head? = some fullStop → Text.ofBytes? n = none) := by
  have hsmall : fullStop.toNat < 0x80 := by decide
  have hdot : ∀ s, Text.ofBytes? n = some s →
      (s.toList.head? = some '.' ↔ n.head? = some fullStop) :=
    fun s hs => Text.Utf8.head_of_decode (Text.ofBytes_eq_some_iff.mp hs) hsmall
  rw [Shown]
  cases htext : Text.ofBytes? n with
  | none => simp
  | some s => simp [hskip, hdot s htext]

theorem enters_iff_shown :
    Enters fs options dir above n loc ↔
      Enters fs options.showingHidden dir above n loc ∧ Shown options n := by
  have hshown : Shown options.showingHidden n := fun h => absurd h Bool.false_ne_true
  constructor
  · rintro (⟨hnode, hn⟩ | ⟨hfollow, hnode, hl, hoff, hn⟩)
    · exact ⟨.directory hnode hshown, hn⟩
    · exact ⟨.link hfollow hnode hl hoff hshown, hn⟩
  · rintro ⟨⟨hnode, -⟩ | ⟨hfollow, hnode, hl, hoff, -⟩, hn⟩
    · exact .directory hnode hn
    · exact .link hfollow hnode hl hoff hn

/-- What is discovered is what would be with hidden directories shown, if both names are shown. -/
theorem discovers_iff_shown :
    Discovers fs options root ns r ↔
      Discovers fs options.showingHidden root ns r ∧ Shown options ns ∧ Shown options r := by
  constructor
  · rintro ⟨rootLoc, names, nsLoc, rLoc, hroot, hns, hr⟩
    obtain ⟨hns, hnsShown⟩ := enters_iff_shown.mp hns
    obtain ⟨hr, hrShown⟩ := enters_iff_shown.mp hr
    exact ⟨⟨rootLoc, names, nsLoc, rLoc, hroot, hns, hr⟩, hnsShown, hrShown⟩
  · rintro ⟨⟨rootLoc, names, nsLoc, rLoc, hroot, hns, hr⟩, hnsShown, hrShown⟩
    exact ⟨rootLoc, names, nsLoc, rLoc, hroot, enters_iff_shown.mpr ⟨hns, hnsShown⟩,
      enters_iff_shown.mpr ⟨hr, hrShown⟩⟩

/-- With `skipHidden`, a scan finds what it would discover with hidden directories shown, less the
repositories that are hidden or in a hidden namespace. A directory with a name that is not text is
never hidden. -/
theorem mem_scan_of_skipping_hidden (hfs : fs.ProperNames) (hskip : options.skipHidden = true)
    (hscan : (scan fs options root).result = .ok repos) (repo : FoundRepo) :
    repo ∈ repos ↔ ∃ ns r, repo = repoAt root (ns, r) ∧
      Discovers fs options.showingHidden root ns r ∧
      (ns.head? = some fullStop → Text.ofBytes? ns = none) ∧
      (r.head? = some fullStop → Text.ofBytes? r = none) := by
  rw [mem_scan_iff hfs hscan]
  refine exists₂_congr fun ns r => ?_
  rw [discovers_iff_shown, shown_iff hskip, shown_iff hskip]
  exact and_comm

/-- A name that starts with a dot and is not text. -/
def dottedName : Name :=
  fullStop :: Text.toBytes "bad" ++ [0xFF]

/-- A namespace with two directories whose names start with a dot, one of them not text. -/
def dottedShelf : FileSystem :=
  .ofFixtures []
    [.directory (.ofString "sync/acme/.git"),
      .directory ⟨Text.toBytes "sync/acme/" ++ dottedName⟩]

def skippingHidden : AuditOptions :=
  { AuditOptions.default with skipHidden := true }

def dottedRepo : FoundRepo :=
  ⟨⟨"acme", ".bad\uFFFD"⟩, ⟨Text.toBytes "sync/acme/" ++ dottedName⟩⟩

theorem dottedShelf_scan :
    (scan dottedShelf skippingHidden (.ofString "sync")).result = .ok [dottedRepo] := by
  decide +kernel

theorem dottedShelf_mem_scan :
    dottedRepo ∈ [dottedRepo] ↔
      ∃ ns r, dottedRepo = repoAt (.ofString "sync") (ns, r) ∧
        Discovers dottedShelf skippingHidden.showingHidden (.ofString "sync") ns r ∧
        (ns.head? = some fullStop → Text.ofBytes? ns = none) ∧
        (r.head? = some fullStop → Text.ofBytes? r = none) :=
  mem_scan_of_skipping_hidden (FileSystem.properNames_ofFixtures (by decide) _) rfl
    dottedShelf_scan dottedRepo

/-- With `skipHidden`, a repository is found whose name starts with a dot. -/
theorem dottedShelf_not_hidden :
    skippingHidden.skipHidden = true ∧
      ∃ repos, (scan dottedShelf skippingHidden (.ofString "sync")).result = .ok repos ∧
        ∃ repo ∈ repos,
          repo.path = ((Path.ofString "sync").child (Text.toBytes "acme")).child dottedName ∧
            dottedName.head? = some fullStop :=
  ⟨rfl, _, dottedShelf_scan, dottedRepo, by simp, by decide +kernel, rfl⟩

/-! ## Leaving out during the walk and after it -/

/-- An entry that breaks a walk off does so whether or not it is hidden. -/
theorem follow_showingHidden {stack : List Ancestor} {path : Path}
    (h : follow fs options stack path n = .broken e) :
    follow fs options.showingHidden stack path n = .broken e := by
  unfold follow at h ⊢
  cases hl : fs.locate .follow path with
  | error err => simpa only [hl] using h
  | ok found =>
    obtain ⟨loc, node⟩ := found
    cases node with
    | file access content => simp [hl] at h
    | link target => simp [hl] at h
    | directory access =>
      simp only [hl] at h ⊢
      cases hopen : fs.openForReading path with
      | error err => simpa only [hopen] using h
      | ok opened =>
        simp only [hopen] at h ⊢
        cases hloop : stack.find? fun a => decide (a.loc = opened.1) with
        | some a => simpa only [hloop] using h
        | none =>
          simp only [hloop] at h
          exact absurd h (sift_ne_broken options path n e)

theorem visit_showingHidden (h : visit fs options above dir.path dir.loc n = .broken e) :
    visit fs options.showingHidden above dir.path dir.loc n = .broken e := by
  unfold visit at h ⊢
  cases hnode : fs.node? (n :: dir.loc) with
  | none => simp [hnode] at h
  | some node =>
    cases node with
    | file access content => simp [hnode] at h
    | directory access =>
      simp only [hnode] at h
      exact absurd h (sift_ne_broken options _ n e)
    | link target =>
      simp only [hnode] at h ⊢
      cases hfollow : options.followLinks with
      | false => simp [hfollow] at h
      | true =>
        have hfollow' : options.showingHidden.followLinks = true := hfollow
        rw [if_pos hfollow']
        rw [if_pos hfollow] at h
        exact follow_showingHidden h

theorem narrows_withoutHidden : Narrows fs options.showingHidden options.withoutHidden where
  enters _ _ _ _ h := (enters_iff_shown.mp h).1
  unbroken _ _ _ hunbroken e h := by
    have hshown := visit_showingHidden h
    exact hunbroken e hshown
  followed h := h

/-- Whether a text starts with a dot. -/
def startsWithDot (s : String) : Bool :=
  s.toList.head? = some '.'

/-- A name that is text is shown unless its text starts with a dot. -/
theorem shown_withoutHidden_iff (htext : Text.ofBytes? n ≠ none) :
    Shown options.withoutHidden n ↔ startsWithDot (Text.ofBytesLossy n) = false := by
  obtain ⟨s, hs⟩ := Option.ne_none_iff_exists'.mp htext
  have hskip : options.withoutHidden.skipHidden = true := rfl
  rw [Text.ofBytesLossy_of_ofBytes hs, startsWithDot, decide_eq_false_iff_not]
  simp [Shown, hskip, hs]

/-- Where the names of all repositories that a scan discovers are text, a scan without hidden
directories succeeds if one with them does, and comes to the same result less the repositories whose
namespace or name starts with a dot. -/
theorem scan_withoutHidden (hfs : fs.ProperNames)
    (hscan : (scan fs options.showingHidden root).result = .ok repos)
    (htext : ∀ ns r, Discovers fs options.showingHidden root ns r →
      Text.ofBytes? ns ≠ none ∧ Text.ofBytes? r ≠ none) :
    (scan fs options.withoutHidden root).result =
      .ok (repos.filter fun repo => !startsWithDot repo.id.ns && !startsWithDot repo.id.name) := by
  have hkeep : ∀ ns r, Discovers fs options.showingHidden root ns r →
      (Discovers fs options.withoutHidden root ns r ↔
        (!startsWithDot (Text.ofBytesLossy ns) &&
          !startsWithDot (Text.ofBytesLossy r)) = true) := by
    intro ns r hpair
    obtain ⟨hns, hr⟩ := htext ns r hpair
    rw [discovers_iff_shown, shown_withoutHidden_iff hns, shown_withoutHidden_iff hr,
      Bool.and_eq_true, Bool.not_eq_true', Bool.not_eq_true']
    exact and_iff_right hpair
  obtain ⟨pairs, -, -, rfl, hresult⟩ := narrows_withoutHidden.scan_result hfs hscan
    (fun pair =>
      !startsWithDot (Text.ofBytesLossy pair.1) && !startsWithDot (Text.ofBytesLossy pair.2)) hkeep
  rw [hresult, List.filter_map]
  rfl

/-- A hidden namespace, and a namespace with a hidden directory, a hidden link to its root and a
repository that is shown. -/
def tidyShelf : FileSystem :=
  .ofFixtures []
    [.directory (.ofString "sync/.cache/tmp"), .directory (.ofString "sync/acme/.trash"),
      .link (.ofString "sync/acme/.up") (.ofString ".."),
      .directory (.ofString "sync/acme/widgets")]

theorem tidyShelf_scan :
    (scan tidyShelf AuditOptions.default.showingHidden (.ofString "sync")).result =
      .ok [⟨⟨".cache", "tmp"⟩, .ofString "sync/.cache/tmp"⟩,
        ⟨⟨"acme", ".trash"⟩, .ofString "sync/acme/.trash"⟩,
        ⟨⟨"acme", "widgets"⟩, .ofString "sync/acme/widgets"⟩] := by
  decide +kernel

theorem tidyShelf_withoutHidden :
    (scan tidyShelf AuditOptions.default.withoutHidden (.ofString "sync")).result =
      .ok [⟨⟨"acme", "widgets"⟩, .ofString "sync/acme/widgets"⟩] := by
  have hnodes : (tidyShelf.nodes.all fun row => row.1.all fun n =>
      (Text.ofBytes? n).isSome) = true := by decide +kernel
  have htext : ∀ {loc node n}, tidyShelf.node? (n :: loc) = some node →
      Text.ofBytes? n ≠ none := by
    intro loc node n hnode
    have hrow := List.all_eq_true.mp hnodes _ (FileSystem.node_eq_some_iff.mp hnode)
    exact Option.isSome_iff_ne_none.mp (List.all_eq_true.mp hrow n List.mem_cons_self)
  refine scan_withoutHidden (FileSystem.properNames_ofFixtures (by decide) _) tidyShelf_scan
    fun ns r hdiscovers => ?_
  obtain ⟨⟨_, _, hns⟩, _, _, hr⟩ := hdiscovers.nodes
  exact ⟨htext hns, htext hr⟩

end Scan
end SyncAudit
