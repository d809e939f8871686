import SyncAudit.Proofs.Scan.Discovery

/-!
# Scans that admit less

Two scans differ in their options alone. If the second enters no entry that the first does not enter
and breaks off at no entry that the first gets past, then it succeeds wherever the first does, and
its result is that of the first with some of the repositories left out, in the same order.
-/
namespace SyncAudit.Scan

variable {fs : FileSystem} {options strict : AuditOptions} {root : Path} {repos : List FoundRepo}
  {dir : Ancestor} {above : List Ancestor} {ns r : Name}

/-- Under `strict`, a walk enters nothing that it does not enter under `options`, and gets past
everything that it gets past under `options`. -/
structure Narrows (fs : FileSystem) (options strict : AuditOptions) : Prop where
  enters : ∀ dir above n loc, Enters fs strict dir above n loc → Enters fs options dir above n loc
  unbroken : ∀ dir above n,
    (∀ e, visit fs options (dir :: above) dir.path dir.loc n ≠ .broken e) →
    ∀ e, visit fs strict (dir :: above) dir.path dir.loc n ≠ .broken e
  followed : strict.followLinks = true → options.followLinks = true

namespace Narrows

variable (h : Narrows fs options strict)

include h

theorem walks (hdir : Walks fs strict root dir above) : Walks fs options root dir above := by
  induction hdir with
  | root hroot => exact .root hroot
  | entry _ henters ih => exact .entry ih (h.enters _ _ _ _ henters)

theorem discovers (hpair : Discovers fs strict root ns r) : Discovers fs options root ns r := by
  obtain ⟨rootLoc, names, nsLoc, rLoc, hroot, hns, hr⟩ := hpair
  exact ⟨rootLoc, names, nsLoc, rLoc, hroot, h.enters _ _ _ _ hns, h.enters _ _ _ _ hr⟩

/-- A root that cannot be listed makes no difference between the two scans. Where links are followed
under `options` alone, a root that is a link to such a directory is an error there. -/
theorem scanRoot_of_list_error {e : IoError} (hroot : fs.list root = .error e)
    (hscan : (scanRoot fs options root).result = .ok repos) :
    (scanRoot fs strict root).result = .ok repos := by
  have hdirectory : ∀ o, scanDirectory fs o root = raise fs (.io root e) := by
    intro o
    rw [scanDirectory, hroot]
  simp only [scanRoot, hdirectory] at hscan ⊢
  cases hself : fs.linkStat root with
  | error err => simpa [hself] using hscan
  | ok node =>
    cases node with
    | file access content => simpa [hself] using hscan
    | directory access => simpa [hself] using hscan
    | link target =>
      cases hstat : fs.stat root with
      | error err => simpa [hself, hstat] using hscan
      | ok node =>
        cases node with
        | file access content => simpa [hself, hstat] using hscan
        | link target => simpa [hself, hstat] using hscan
        | directory access =>
          have hopen := FileSystem.openForReading_of_list_error hstat hroot
          cases hfollow : options.followLinks with
          | true => simp [hself, hstat, hfollow, hopen, raise, isUnfollowable] at hscan
          | false =>
            have hstrict : strict.followLinks = false := by
              rw [← Bool.not_eq_true]
              intro htrue
              simp [h.followed htrue] at hfollow
            simpa [hself, hstat, hfollow, hstrict] using hscan

theorem exists_scan_result (hfs : fs.ProperNames)
    (hscan : (scan fs options root).result = .ok repos) :
    ∃ found, (scan fs strict root).result = .ok found := by
  cases hroot : fs.list root with
  | error e =>
    rw [scan_result] at hscan
    exact ⟨repos, by rw [scan_result, h.scanRoot_of_list_error hroot hscan]⟩
  | ok listing =>
    refine (exists_scan_result_iff hfs hroot).mpr fun dir above hdir => ?_
    obtain ⟨names, hsettled⟩ := (h.walks hdir).settled hfs hscan
    exact ⟨names, hsettled.listed, fun n hn => h.unbroken dir above n (hsettled.unbroken n hn)⟩

end Narrows

theorem pair_asymm {a b : Name × Name} (hab : a.1 < b.1 ∨ a.1 = b.1 ∧ a.2 < b.2)
    (hba : b.1 < a.1 ∨ b.1 = a.1 ∧ b.2 < a.2) : a = b := by
  rcases hab with hab | ⟨heq, hab⟩
  · rcases hba with hba | ⟨heq, -⟩
    · exact absurd hba (List.lt_asymm hab)
    · exact absurd (heq ▸ hab) (List.lt_irrefl _)
  · rcases hba with hba | ⟨-, hba⟩
    · exact absurd (heq ▸ hba) (List.lt_irrefl _)
    · exact absurd hba (List.lt_asymm hab)

/-- Pairs that are found in the same order are the same if they are the same as a set. -/
theorem admittedPairs_eq_filter {top : Ancestor} {keep : Name × Name → Bool}
    (hmem : ∀ ns r, (ns, r) ∈ admittedPairs fs strict top ↔
      (ns, r) ∈ admittedPairs fs options top ∧ keep (ns, r) = true) :
    admittedPairs fs strict top = (admittedPairs fs options top).filter keep := by
  have hsame : ∀ pair, pair ∈ admittedPairs fs strict top ↔
      pair ∈ (admittedPairs fs options top).filter keep := by
    rintro ⟨ns, r⟩
    rw [List.mem_filter]
    exact hmem ns r
  have hperm := (List.perm_ext_iff_of_nodup (admittedPairs_nodup fs strict top)
    ((admittedPairs_nodup fs options top).filter keep)).mpr hsame
  exact hperm.eq_of_pairwise (fun _ _ _ _ => pair_asymm) (admittedPairs_pairwise fs strict top)
    ((admittedPairs_pairwise fs options top).filter keep)

/-- A narrower scan finds the pairs of the wider one that it discovers as well, in their order. -/
theorem Narrows.scan_result (h : Narrows fs options strict) (hfs : fs.ProperNames)
    (hscan : (scan fs options root).result = .ok repos) (keep : Name × Name → Bool)
    (hkeep : ∀ ns r, Discovers fs options root ns r →
      (Discovers fs strict root ns r ↔ keep (ns, r) = true)) :
    ∃ pairs : List (Name × Name), pairs.Nodup ∧
      (∀ ns r, (ns, r) ∈ pairs ↔ Discovers fs options root ns r) ∧
      repos = pairs.map (repoAt root) ∧
      (scan fs strict root).result = .ok ((pairs.filter keep).map (repoAt root)) := by
  obtain ⟨found, hfound⟩ := h.exists_scan_result hfs hscan
  cases hroot : fs.list root with
  | error e =>
    obtain rfl := repos_of_list_error hroot hscan
    obtain rfl := repos_of_list_error hroot hfound
    refine ⟨[], List.nodup_nil, ?_, rfl, hfound⟩
    simp [Discovers, hroot]
  | ok listing =>
    obtain ⟨rootLoc, names⟩ := listing
    have hmem : ∀ ns r, (ns, r) ∈ admittedPairs fs options ⟨root, rootLoc⟩ ↔
        Discovers fs options root ns r :=
      fun ns r => mem_admittedPairs_iff_discovers hfs hroot hscan
    have hfilter : admittedPairs fs strict ⟨root, rootLoc⟩ =
        (admittedPairs fs options ⟨root, rootLoc⟩).filter keep := by
      refine admittedPairs_eq_filter fun ns r => ?_
      rw [mem_admittedPairs_iff_discovers hfs hroot hfound, hmem]
      constructor
      · intro hpair
        exact ⟨h.discovers hpair, (hkeep ns r (h.discovers hpair)).mp hpair⟩
      · rintro ⟨hpair, hkept⟩
        exact (hkeep ns r hpair).mpr hkept
    refine ⟨_, admittedPairs_nodup fs options ⟨root, rootLoc⟩, hmem,
      scan_repos hfs hroot hscan, ?_⟩
    rw [hfound, scan_repos hfs hroot hfound, hfilter]

end SyncAudit.Scan
