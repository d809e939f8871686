import SyncAudit.Proofs.Audit.UnlistableRoot

/-!
# Audits with fewer ids

The scan looks at no id, and the marker of a repository is looked for only if its key is among the
ids. So an audit that succeeds also does when ids are taken out of the list. It then finds the same
repositories in the same order, some of them now invalid, and leaves the others as they were.
-/
namespace SyncAudit

theorem exists_forall₂ {α β γ : Type} {R : α → β → Prop} {S : α → γ → Prop} {T : β → γ → Prop}
    {as : List α} {bs : List β} (h : as.Forall₂ R bs)
    (hitem : ∀ a b, R a b → ∃ c, S a c ∧ T b c) : ∃ cs, as.Forall₂ S cs ∧ bs.Forall₂ T cs := by
  induction h with
  | nil => exact ⟨[], .nil, .nil⟩
  | cons hhead _ ih =>
    obtain ⟨c, hS, hT⟩ := hitem _ _ hhead
    obtain ⟨cs, hSs, hTs⟩ := ih
    exact ⟨c :: cs, .cons hS hSs, .cons hT hTs⟩

theorem countP_le_of_forall₂ {α β : Type} {T : α → β → Prop} {p : α → Bool} {q : β → Bool}
    {as : List α} {bs : List β} (h : as.Forall₂ T bs)
    (hitem : ∀ a b, T a b → p a = true → q b = true) : as.countP p ≤ bs.countP q := by
  induction h with
  | nil => exact Nat.le_refl 0
  | @cons a b as bs hhead _ ih =>
    rw [List.countP_cons, List.countP_cons]
    cases hp : p a with
    | false => exact Nat.le_add_right_of_le ih
    | true =>
      rw [hitem a b hhead hp]
      exact Nat.add_le_add_right ih _

theorem filter_sublist_of_forall₂ {α : Type} {T : α → α → Prop} {p : α → Bool}
    {as bs : List α} (h : as.Forall₂ T bs) (hitem : ∀ a b, T a b → p a = true → a = b) :
    (as.filter p).Sublist (bs.filter p) := by
  induction h with
  | nil => exact List.Sublist.refl []
  | @cons a b as bs hhead _ ih =>
    cases hp : p a with
    | true =>
      obtain rfl := hitem a b hhead hp
      rw [List.filter_cons_of_pos hp, List.filter_cons_of_pos hp]
      exact ih.cons_cons a
    | false =>
      have hmore : (bs.filter p).Sublist ((b :: bs).filter p) :=
        (List.sublist_cons_self b bs).filter p
      rw [List.filter_cons_of_neg (Bool.eq_false_iff.mp hp)]
      exact ih.trans hmore

/-- What can become of an entry when ids are taken out of the list. -/
inductive RepoEntry.Withdrawn (entry : RepoEntry) : RepoEntry → Prop
  | kept : Withdrawn entry entry
  | dropped : Withdrawn entry { entry with status := .invalid }

namespace RepoEntry.Withdrawn

variable {entry after : RepoEntry}

theorem place (h : entry.Withdrawn after) : (after.id, after.path) = (entry.id, entry.path) := by
  cases h <;> rfl

theorem eq_of_valid (h : entry.Withdrawn after) (hafter : after.status ≠ .invalid) :
    after = entry := by
  cases h with
  | kept => rfl
  | dropped => exact absurd rfl hafter

theorem eq_of_invalid (h : entry.Withdrawn after) (hentry : entry.status = .invalid) :
    entry = after := by
  cases h with
  | kept => rfl
  | dropped => rw [← hentry]

end RepoEntry.Withdrawn

/-- The report `less` is about the same repositories as `r`, and some that are valid in `r` may be
invalid in it. -/
structure Report.NarrowsTo (r less : Report) : Prop where
  places : less.entries.map (fun entry => (entry.id, entry.path)) =
    r.entries.map fun entry => (entry.id, entry.path)
  statuses : less.entries.Forall₂
    (fun after entry => after.status ≠ .invalid → entry.status = after.status) r.entries
  stale : r.stale.Sublist less.stale
  valid_le : less.summary.valid ≤ r.summary.valid
  configured_le : less.summary.validWithConfig ≤ r.summary.validWithConfig
  invalid_le : r.summary.invalid ≤ less.summary.invalid
  sum_eq : less.summary.valid + less.summary.invalid = r.summary.valid + r.summary.invalid

theorem Report.narrowsTo_of_withdrawn {r less : Report} (hr : r.Counted) (hless : less.Counted)
    (h : r.entries.Forall₂ RepoEntry.Withdrawn less.entries) : r.NarrowsTo less := by
  constructor
  case places =>
    rw [← List.forall₂_eq_eq_eq, List.forall₂_map_left_iff, List.forall₂_map_right_iff]
    exact h.flip.imp fun after entry hentry => hentry.place
  case statuses =>
    refine h.flip.imp ?_
    intro after entry hentry hafter
    rw [hentry.eq_of_valid hafter]
  case stale =>
    apply filter_sublist_of_forall₂ h
    intro entry after hentry hinvalid
    exact hentry.eq_of_invalid (of_decide_eq_true hinvalid)
  case valid_le =>
    rw [hr.valid, hless.valid]
    apply countP_le_of_forall₂ h.flip
    intro after entry hentry hvalid
    have hvalid : after.status ≠ .invalid := of_decide_eq_true hvalid
    rw [← hentry.eq_of_valid hvalid]
    exact decide_eq_true hvalid
  case configured_le =>
    rw [hr.configured, hless.configured]
    apply countP_le_of_forall₂ h.flip
    intro after entry hentry hconfigured
    have hconfigured : after.status = .validWithConfig := of_decide_eq_true hconfigured
    have hvalid : after.status ≠ .invalid := by rw [hconfigured]; decide
    rw [← hentry.eq_of_valid hvalid]
    exact decide_eq_true hconfigured
  case invalid_le =>
    rw [hr.invalid, hless.invalid]
    apply countP_le_of_forall₂ h
    intro entry after hentry hinvalid
    rwa [← hentry.eq_of_invalid (of_decide_eq_true hinvalid)]
  case sum_eq =>
    rw [hr.valid_add_invalid, hless.valid_add_invalid, h.length_eq]

theorem IdSet.contains_mono {fewer more : IdSet} (h : ∀ id ∈ fewer.ids, id ∈ more.ids) {id : RepoId}
    (hid : fewer.contains id = true) : more.contains id = true := by
  rw [contains, decide_eq_true_iff] at hid ⊢
  exact h _ hid

variable {fs : FileSystem} {fewer more : IdSet}

/-- A repository that can be classified can be with fewer ids too: either its key stays and so does
the look at the marker, or it is invalid and the marker is not looked for. -/
theorem classify_of_fewer_ids {marker : Path} {repo : FoundRepo}
    (hids : ∀ id ∈ fewer.ids, id ∈ more.ids) {entry : RepoEntry}
    (h : (classify fs more marker repo).result = .ok entry) :
    ∃ after, (classify fs fewer marker repo).result = .ok after ∧ entry.Withdrawn after := by
  obtain ⟨rfl, hstatus⟩ := classify_eq_ok_iff.mp h
  by_cases hkey : fewer.contains entry.id = true
  · rw [if_pos (IdSet.contains_mono hids hkey)] at hstatus
    refine ⟨entry, classify_eq_ok_iff.mpr ⟨rfl, ?_⟩, .kept⟩
    rwa [if_pos hkey]
  · refine ⟨{ entry with status := .invalid }, classify_eq_ok_iff.mpr ⟨rfl, ?_⟩, .dropped⟩
    rw [if_neg hkey]

variable {options : AuditOptions} {style style' : ProgressStyle} {now now' : Timestamp}
  {root : Path}

theorem auditAgainst_of_fewer_ids (hids : ∀ id ∈ fewer.ids, id ∈ more.ids) {out : Audited}
    (h : (auditAgainst fs options style now more root).result = .ok out) :
    ∃ out', (auditAgainst fs options style' now' fewer root).result = .ok out' ∧
      out.report.NarrowsTo out'.report := by
  obtain ⟨repos, entries, hrepos, hentries, rfl⟩ := auditAgainst_eq_ok_iff.mp h
  obtain ⟨after, hafter, hwithdrawn⟩ := exists_forall₂ hentries
    fun repo entry hentry => classify_of_fewer_ids hids hentry
  refine ⟨_, auditAgainst_eq_ok_iff.mpr ⟨repos, after, hrepos, hafter, rfl⟩, ?_⟩
  apply Report.narrowsTo_of_withdrawn
  · exact Audited.counted_ofEntries ..
  · exact Audited.counted_ofEntries ..
  · rwa [Audited.entries_ofEntries, Audited.entries_ofEntries]

theorem checkIdsFile_of_load {skipBlank : Bool} {ids : Path}
    (h : (IdSet.load fs skipBlank ids).result = .ok fewer) : checkIdsFile fs ids = .ok () := by
  obtain ⟨bytes, text, hbytes, -⟩ := IdSet.load_result.mp h
  exact checkIdsFile_of_read hbytes

/-- An audit that succeeds with the ids of one list also succeeds with a list that keeps fewer. It
finds the same repositories in the same order, and none of them is valid that was not. -/
theorem audit_of_fewer_ids {ids ids' : Path}
    (hfewer : (IdSet.load fs options.skipBlankLines ids').result = .ok fewer)
    (hmore : (IdSet.load fs options.skipBlankLines ids).result = .ok more)
    (hids : ∀ id ∈ fewer.ids, id ∈ more.ids) {out : Audited}
    (h : (audit fs options style now ids root).result = .ok out) :
    ∃ out', (audit fs options style' now' ids' root).result = .ok out' ∧
      out.report.NarrowsTo out'.report := by
  obtain ⟨-, hroot, valid, hvalid, hagainst⟩ := audit_result.mp h
  obtain rfl : valid = more := Except.ok.inj (hvalid.symm.trans hmore)
  obtain ⟨out', hout', hnarrows⟩ := auditAgainst_of_fewer_ids hids hagainst
  have haudit := audit_result.mpr ⟨checkIdsFile_of_load hfewer, hroot, fewer, hfewer, hout'⟩
  exact ⟨out', haudit, hnarrows⟩

/-- Two id lists, one of them with a line less, and two repositories, one of them with a marker. -/
def twoLists : FileSystem :=
  .ofFixtures []
    [.file (.ofString "ids") (Text.toBytes "acme/old\nacme/widgets\n"),
      .file (.ofString "fewer") (Text.toBytes " acme/old"),
      .file (.ofString "sync/acme/widgets/on") [], .directory (.ofString "sync/acme/old")]

def twoListsReport : Report where
  summary := ⟨2, 1, 0⟩
  validIdsLoaded := 2
  entries :=
    [⟨⟨"acme", "old"⟩, .ofString "sync/acme/old", .valid⟩,
      ⟨⟨"acme", "widgets"⟩, .ofString "sync/acme/widgets", .validWithConfig⟩]
  generatedAt := .epoch

theorem twoLists_ids :
    (IdSet.load twoLists true (.ofString "ids")).result =
      .ok (.ofList ["acme/old", "acme/widgets"]) := by
  decide +kernel

theorem twoLists_fewer :
    (IdSet.load twoLists true (.ofString "fewer")).result = .ok (.ofList ["acme/old"]) := by
  decide +kernel

theorem twoLists_audited :
    (audit twoLists ⟨.ofString "on", true, false, true⟩ .hidden .epoch (.ofString "ids")
      (.ofString "sync")).result = .ok ⟨twoListsReport, ⟨.hidden, 2, ⟨2, 1, 0⟩⟩⟩ := by
  decide +kernel

theorem twoLists_narrowsTo :
    ∃ out', (audit twoLists ⟨.ofString "on", true, false, true⟩ .plain .epoch (.ofString "fewer")
        (.ofString "sync")).result = .ok out' ∧
      twoListsReport.NarrowsTo out'.report :=
  audit_of_fewer_ids twoLists_fewer twoLists_ids (by simp) twoLists_audited

end SyncAudit
