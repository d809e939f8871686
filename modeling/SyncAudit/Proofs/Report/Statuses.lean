import SyncAudit.Proofs.Audit.Tallies

/-!
# What counts tell of statuses

A configured repository raises two of the three counts, and still nothing is lost: how often each
status was recorded can be told from the counts, though not in which order. The counts that come
about are those with no more configured repositories than valid ones. Counts have no bound here;
they never fall, so where the last ones fit a word, so do all before them.
-/
namespace SyncAudit.Summary

/-- The counts are those of a list of statuses, in which a configured one counts as valid too. -/
structure Counts (statuses : List RepoStatus) (s : Summary) : Prop where
  valid : s.valid = statuses.count .valid + statuses.count .validWithConfig
  configured : s.validWithConfig = statuses.count .validWithConfig
  invalid : s.invalid = statuses.count .invalid

variable {statuses others : List RepoStatus} {s t : Summary}

theorem Counts.record (h : s.Counts statuses) (status : RepoStatus) :
    (s.record status).Counts (statuses ++ [status]) := by
  constructor
  all_goals
    simp only [List.count_append, List.count_singleton]
    cases status <;> simp [Summary.record, h.valid, h.configured, h.invalid] <;> omega

theorem Counts.foldl_record (h : s.Counts statuses) (more : List RepoStatus) :
    (more.foldl Summary.record s).Counts (statuses ++ more) := by
  induction more generalizing s statuses with
  | nil => rwa [List.append_nil]
  | cons status rest ih =>
    have hrest := ih (h.record status)
    rwa [List.append_assoc, List.singleton_append] at hrest

theorem counts_ofStatuses (statuses : List RepoStatus) :
    (ofStatuses statuses).Counts statuses := by
  have hzero : zero.Counts [] := ⟨rfl, rfl, rfl⟩
  exact hzero.foldl_record statuses

/-- How often a status was recorded is told by the counts. -/
theorem Counts.perm (h : s.Counts statuses) (h' : s.Counts others) : statuses.Perm others := by
  rw [List.perm_iff_count]
  have hvalid := h.valid.symm.trans h'.valid
  have hconfigured := h.configured.symm.trans h'.configured
  intro status
  cases status with
  | valid => omega
  | validWithConfig => exact hconfigured
  | invalid => exact h.invalid.symm.trans h'.invalid

theorem Counts.eq_of_perm (h : s.Counts statuses) (h' : t.Counts others)
    (hperm : statuses.Perm others) : s = t := by
  have hcount := List.perm_iff_count.mp hperm
  have hvalid : s.valid = t.valid := by rw [h.valid, h'.valid, hcount, hcount]
  have hconfigured : s.validWithConfig = t.validWithConfig := by
    rw [h.configured, h'.configured, hcount]
  have hinvalid : s.invalid = t.invalid := by rw [h.invalid, h'.invalid, hcount]
  cases s
  cases t
  exact (mk.injEq ..).mpr ⟨hvalid, hconfigured, hinvalid⟩

theorem Counts.configured_le (h : s.Counts statuses) : s.validWithConfig ≤ s.valid := by
  rw [h.valid, h.configured]
  exact Nat.le_add_left _ _

/-- Each status is valid, configured or invalid. -/
theorem Counts.total (h : s.Counts statuses) : s.total = statuses.length := by
  rw [Summary.total, h.valid, h.invalid]
  clear h
  induction statuses with
  | nil => rfl
  | cons status rest ih =>
    rw [List.length_cons, ← ih]
    cases status <;> simp <;> omega

/-- Counts with no more configured repositories than valid ones are those of some list. -/
theorem exists_counts (h : s.validWithConfig ≤ s.valid) : ∃ statuses, s.Counts statuses := by
  refine ⟨List.replicate (s.valid - s.validWithConfig) .valid ++
    List.replicate s.validWithConfig .validWithConfig ++ List.replicate s.invalid .invalid, ?_⟩
  constructor
  case valid =>
    simp [List.count_replicate]
    omega
  case configured => simp [List.count_replicate]
  case invalid => simp [List.count_replicate]

/-- No count falls. -/
structure Within (s t : Summary) : Prop where
  valid : s.valid ≤ t.valid
  configured : s.validWithConfig ≤ t.validWithConfig
  invalid : s.invalid ≤ t.invalid

theorem Counts.within (h : s.Counts statuses) (h' : t.Counts (statuses ++ others)) :
    s.Within t := by
  constructor
  · rw [h.valid, h'.valid, List.count_append, List.count_append]
    omega
  · rw [h.configured, h'.configured, List.count_append]
    omega
  · rw [h.invalid, h'.invalid, List.count_append]
    omega

/-- Two lists of statuses come to the same counts just where one is the other in another order.
Counts come about just where no more repositories are configured than valid, the total is then the
number of statuses, and on the way to them no count was higher. -/
theorem ofStatuses_identify :
    (∀ statuses others : List RepoStatus,
      ofStatuses statuses = ofStatuses others ↔ statuses.Perm others) ∧
    (∀ s : Summary, (∃ statuses, ofStatuses statuses = s) ↔ s.validWithConfig ≤ s.valid) ∧
    (∀ statuses : List RepoStatus, (ofStatuses statuses).total = statuses.length) ∧
    ∀ before after : List RepoStatus, (ofStatuses before).Within (ofStatuses (before ++ after)) := by
  refine ⟨fun statuses others => ⟨fun h => ?_, fun h => ?_⟩, fun s => ⟨?_, fun h => ?_⟩,
    fun statuses => ?_, fun before after => ?_⟩
  · exact (counts_ofStatuses statuses).perm (h ▸ counts_ofStatuses others)
  · exact (counts_ofStatuses statuses).eq_of_perm (counts_ofStatuses others) h
  · rintro ⟨statuses, rfl⟩
    exact (counts_ofStatuses statuses).configured_le
  · obtain ⟨statuses, hcounts⟩ := exists_counts h
    exact ⟨statuses, (counts_ofStatuses statuses).eq_of_perm hcounts (.refl statuses)⟩
  · exact (counts_ofStatuses statuses).total
  · exact (counts_ofStatuses before).within (counts_ofStatuses (before ++ after))

/-- A configured repository beside an invalid one is told from a valid one beside an invalid one,
by counts that agree in two places. -/
example : ofStatuses [.invalid, .validWithConfig] = ⟨1, 1, 1⟩ ∧
    ofStatuses [.valid, .invalid] = ⟨1, 0, 1⟩ := by decide

end SyncAudit.Summary
