import SyncAudit.Proofs.Audit.Classification

/-!
# Counts that are kept twice

A report and the progress beside it count repositories, each for itself. Calls reach the two in any
order. The counts of the report are then those of its entries, and the counts of the progress depend
on the statuses recorded there and on nothing else. An audit gives every status to both, so the two
agree when its loop is done. Counts have no bound here, and none of this is about counts that wrap.
-/
namespace SyncAudit

/-- The counts after some statuses. -/
def Summary.ofStatuses (statuses : List RepoStatus) : Summary :=
  statuses.foldl Summary.record .zero

namespace Report

/-- What a report holds and counts after some entries were pushed. -/
structure Tallied (pushed : List RepoEntry) (r : Report) : Prop where
  entries : r.entries = pushed
  total : r.total = r.entries.length
  summary_total : r.summary.total = r.total
  valid_add_invalid : r.summary.valid + r.summary.invalid = r.entries.length
  configured_le : r.summary.validWithConfig ≤ r.summary.valid
  invalid : r.summary.invalid = r.stale.length
  stale : r.stale = pushed.filter fun entry => entry.status = .invalid
  summary : r.summary = .ofStatuses (pushed.map RepoEntry.status)

theorem summary_foldl_push (entries : List RepoEntry) (r : Report) :
    (entries.foldl Report.push r).summary =
      (entries.map RepoEntry.status).foldl Summary.record r.summary := by
  induction entries generalizing r with
  | nil => rfl
  | cons entry rest ih => exact ih (r.push entry)

/-- An entry is valid or stale and not both, and it is configured only if it is valid. -/
theorem Counted.tallied {pushed : List RepoEntry} {r : Report} (h : r.Counted)
    (hentries : r.entries = pushed)
    (hsummary : r.summary = .ofStatuses (pushed.map RepoEntry.status)) : r.Tallied pushed := by
  constructor
  case entries => exact hentries
  case total => rfl
  case summary_total => exact h.valid_add_invalid
  case valid_add_invalid => exact h.valid_add_invalid
  case configured_le =>
    rw [h.configured, h.valid]
    apply List.countP_mono_left
    intro entry _ hconfigured
    have hconfigured : entry.status = .validWithConfig := of_decide_eq_true hconfigured
    rw [hconfigured]
    rfl
  case invalid => exact h.invalid_eq_length_stale
  case stale => rw [stale, hentries]
  case summary => exact hsummary

end Report

namespace Audited

/-- A call that reaches the report or the progress. -/
inductive Call where
  | push (entry : RepoEntry)
  | record (status : RepoStatus)

/-- The entry that a call gives to the report. -/
def Call.entry? : Call → Option RepoEntry
  | .push entry => some entry
  | .record _ => none

/-- The status that a call gives to the progress. -/
def Call.status? : Call → Option RepoStatus
  | .push _ => none
  | .record status => some status

def call (a : Audited) : Call → Audited
  | .push entry => { a with report := a.report.push entry }
  | .record status => { a with progress := a.progress.record status }

/-- The report sees the entries of the calls and nothing of the statuses between them. -/
theorem report_foldl_call (calls : List Call) (a : Audited) :
    (calls.foldl call a).report = (calls.filterMap Call.entry?).foldl Report.push a.report := by
  induction calls generalizing a with
  | nil => rfl
  | cons first rest ih =>
    rw [List.foldl_cons, ih]
    cases first <;> rfl

/-- The progress sees the statuses of the calls and nothing of the entries between them. -/
theorem progress_foldl_call (calls : List Call) (a : Audited) :
    (calls.foldl call a).progress =
      (calls.filterMap Call.status?).foldl Progress.record a.progress := by
  induction calls generalizing a with
  | nil => rfl
  | cons first rest ih =>
    rw [List.foldl_cons, ih]
    cases first <;> rfl

theorem summary_foldl_record (statuses : List RepoStatus) (p : Progress) :
    (statuses.foldl Progress.record p).summary = statuses.foldl Summary.record p.summary := by
  induction statuses generalizing p with
  | nil => rfl
  | cons status rest ih => exact ih (p.record status)

/-- The calls by which an entry is taken up in an audit. -/
def callsFor (entry : RepoEntry) : List Call :=
  [.record entry.status, .push entry]

theorem foldl_push_eq_foldl_call (entries : List RepoEntry) (a : Audited) :
    entries.foldl Audited.push a = (entries.flatMap callsFor).foldl call a := by
  rw [List.foldl_flatMap]
  rfl

theorem filterMap_entry_callsFor (entries : List RepoEntry) :
    (entries.flatMap callsFor).filterMap Call.entry? = entries := by
  induction entries with
  | nil => rfl
  | cons entry rest ih => rw [List.flatMap_cons, List.filterMap_append, ih]; rfl

theorem filterMap_status_callsFor (entries : List RepoEntry) :
    (entries.flatMap callsFor).filterMap Call.status? = entries.map RepoEntry.status := by
  induction entries with
  | nil => rfl
  | cons entry rest ih => rw [List.flatMap_cons, List.filterMap_append, ih]; rfl

/-- An audit in which nothing is counted yet, after some calls. -/
def afterCalls (validIdsLoaded expected : Nat) (now : Timestamp) (style : ProgressStyle)
    (calls : List Call) : Audited :=
  calls.foldl call ⟨.start validIdsLoaded now, .start style expected⟩

variable (validIdsLoaded expected : Nat) (now : Timestamp) (style : ProgressStyle)

theorem tallied_afterCalls (calls : List Call) :
    (afterCalls validIdsLoaded expected now style calls).report.Tallied
      (calls.filterMap Call.entry?) := by
  rw [afterCalls, report_foldl_call]
  apply ((Report.counted_start validIdsLoaded now).foldl_push _).tallied
  · rw [Report.entries_foldl_push]
    rfl
  · rw [Report.summary_foldl_push]
    rfl

theorem progress_afterCalls (calls : List Call) :
    (afterCalls validIdsLoaded expected now style calls).progress.summary =
      .ofStatuses (calls.filterMap Call.status?) := by
  rw [afterCalls, progress_foldl_call, summary_foldl_record]
  rfl

theorem ofEntries_eq_afterCalls (entries : List RepoEntry) :
    ofEntries validIdsLoaded now style entries =
      afterCalls validIdsLoaded entries.length now style (entries.flatMap callsFor) :=
  foldl_push_eq_foldl_call entries _

/-- The entries of an audit are counted twice with the same outcome. -/
theorem summaries_ofEntries (entries : List RepoEntry) :
    (ofEntries validIdsLoaded now style entries).progress.summary =
      (ofEntries validIdsLoaded now style entries).report.summary := by
  rw [ofEntries_eq_afterCalls, progress_afterCalls, (tallied_afterCalls ..).summary,
    filterMap_status_callsFor, filterMap_entry_callsFor]

end Audited

/-- After any calls in any order the counts of the report are those of the entries that were pushed,
and the counts of the progress those of the statuses that were recorded. An audit that gets to the
end of its loop has counted the same twice, however its progress is shown. -/
theorem counts_of_calls (validIdsLoaded expected : Nat) (now : Timestamp) (style : ProgressStyle) :
    (∀ calls : List Audited.Call,
      (Audited.afterCalls validIdsLoaded expected now style calls).report.Tallied
          (calls.filterMap Audited.Call.entry?) ∧
        (Audited.afterCalls validIdsLoaded expected now style calls).progress.summary =
          .ofStatuses (calls.filterMap Audited.Call.status?)) ∧
    ∀ (fs : FileSystem) (options : AuditOptions) (ids root : Path) (out : Audited),
      (audit fs options style now ids root).result = .ok out →
        out.progress.summary = out.report.summary := by
  constructor
  · intro calls
    exact ⟨Audited.tallied_afterCalls .., Audited.progress_afterCalls ..⟩
  · intro fs options ids root out hout
    obtain ⟨-, -, valid, -, hagainst⟩ := audit_result.mp hout
    obtain ⟨repos, entries, -, -, rfl⟩ := auditAgainst_eq_ok_iff.mp hagainst
    exact Audited.summaries_ofEntries ..

theorem markedShelf_counts :
    (audit markedShelf ⟨.ofString "on", true, false, true⟩ .hidden .epoch (.ofString "ids")
      (.ofString "sync")).result = .ok ⟨markedShelfReport, ⟨.hidden, 2, ⟨1, 1, 1⟩⟩⟩ ∧
      (⟨.hidden, 2, ⟨1, 1, 1⟩⟩ : Progress).summary = markedShelfReport.summary :=
  ⟨markedShelf_audited, (counts_of_calls 1 2 .epoch .hidden).2 _ _ _ _ _ markedShelf_audited⟩

end SyncAudit
