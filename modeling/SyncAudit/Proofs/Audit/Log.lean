import SyncAudit.Proofs.Audit.Classification
import SyncAudit.Proofs.Scan.Settling

/-!
# What the log of an audit tells

The log of an audit is the log of its stages, one behind the other, up to the stage that fails. No
stage announces an end that it did not come to. What is logged about a repository is the verdict in
its entry, also where the audit fails before there is a report.
-/
namespace SyncAudit

/-! ## The events of a stage -/

/-- What is logged about the lines of an id list. -/
def Event.isReading : Event → Bool
  | .skippingBlankLine _ | .malformedLine _ _ => true
  | _ => false

/-- What is logged about the entries that a walk meets. -/
def Event.isWalking : Event → Bool
  | .processing _ | .skippingLink _ | .skippingNonDirectory _ | .skippingHidden _
  | .undecodableName _ _ => true
  | _ => false

namespace IdSet

theorem addLines_logs (skipBlank : Bool) (number : Nat) (set : IdSet) (lines : List (List UInt8)) :
    (addLines skipBlank number set lines).Logs Event.isReading := by
  induction lines generalizing number set with
  | nil => exact Run.logs_pure _
  | cons line rest ih =>
    rw [addLines]
    cases Text.ofBytes? line with
    | none => exact Run.logs_fail _
    | some text =>
      simp only
      split
      · exact Run.logs_log_bind rfl (ih _ _)
      split
      · exact Run.logs_log_bind rfl (ih _ _)
      · exact ih _ _

/-- The end of the loading is logged if it comes. -/
theorem load_events (fs : FileSystem) (skipBlank : Bool) (path : Path) :
    ∃ reading, (∀ e ∈ reading, Event.isReading e = true) ∧
      (load fs skipBlank path).events = reading ++
        match (load fs skipBlank path).result with
        | .ok set => [.loadedIds set.size]
        | .error _ => [] := by
  rw [load]
  cases fs.read path with
  | error e => exact ⟨[], List.forall_mem_nil _, rfl⟩
  | ok bytes =>
    refine ⟨(read skipBlank bytes).events, addLines_logs _ _ _ _, ?_⟩
    simp only
    cases (read skipBlank bytes).result with
    | ok set => rfl
    | error e => exact (List.append_nil _).symm

end IdSet

namespace Scan

variable {fs : FileSystem} {options : AuditOptions}

theorem raise_logs (e : WalkError) : (raise fs e).Logs Event.isWalking := by
  rw [raise]
  split
  · exact Run.logs_log_bind rfl (Run.logs_pure _)
  · exact Run.logs_fail _

theorem nameText_logs (n : Name) (path : Path) : (nameText n path).Logs Event.isWalking := by
  rw [nameText]
  cases Text.ofBytes? n with
  | some s => exact Run.logs_pure _
  | none => exact Run.logs_log_bind rfl (Run.logs_pure _)

theorem identify_logs (path : Path) (n : Name) : (identify path n).Logs Event.isWalking := by
  rw [identify]
  cases namespaceOf? path with
  | none => exact Run.logs_fail _
  | some found =>
    exact (nameText_logs _ _).bind fun _ => (nameText_logs _ _).bind fun _ => Run.logs_pure _

theorem settle_logs (outcome : Outcome) {go : Path → Run (List FoundRepo)}
    (h : ∀ path, (go path).Logs Event.isWalking) : (settle outcome go).Logs Event.isWalking := by
  cases outcome with
  | admitted path => exact h path
  | broken e => exact Run.logs_fail _
  | notDirectory path => exact Run.logs_log_bind rfl (Run.logs_pure _)
  | hidden path => exact Run.logs_log_bind rfl (Run.logs_pure _)
  | unfollowable e => exact Run.logs_log_bind rfl (Run.logs_pure _)

theorem scanNamespace_logs (top : Ancestor) (path : Path) :
    (scanNamespace fs options top path).Logs Event.isWalking := by
  rw [scanNamespace]
  refine Run.logs_log_bind rfl ?_
  cases fs.list path with
  | error e => exact raise_logs _
  | ok listing => exact collect_logs (fun _ => settle_logs _ fun _ => identify_logs _ _) _

theorem scanDirectory_logs (root : Path) :
    (scanDirectory fs options root).Logs Event.isWalking := by
  rw [scanDirectory]
  cases fs.list root with
  | error e => exact raise_logs _
  | ok listing => exact collect_logs (fun _ => settle_logs _ fun _ => scanNamespace_logs _ _) _

theorem scanRoot_logs (root : Path) : (scanRoot fs options root).Logs Event.isWalking := by
  rw [scanRoot]
  split
  case h_1 => exact raise_logs _
  case h_2 => exact scanDirectory_logs root
  case h_3 => exact Run.logs_pure _
  case h_4 =>
    split
    case h_1 => exact raise_logs _
    case h_2 =>
      split
      case isTrue =>
        split
        case h_1 => exact raise_logs _
        case h_2 => exact scanDirectory_logs root
      case isFalse => exact scanDirectory_logs root
    case h_3 => exact Run.logs_pure _

/-- The end of the scan is logged if it comes. -/
theorem scan_events (fs : FileSystem) (options : AuditOptions) (root : Path) :
    ∃ walking, (∀ e ∈ walking, Event.isWalking e = true) ∧
      (scan fs options root).events = .scanning root :: walking ++
        match (scan fs options root).result with
        | .ok repos => [.foundRepos repos.length]
        | .error _ => [] := by
  refine ⟨(scanRoot fs options root).events, scanRoot_logs root, ?_⟩
  rw [scan_result, scan, Run.log_bind_events]
  cases h : (scanRoot fs options root).result with
  | ok repos => rw [Run.bind_of_ok h, Run.log_bind_events]; rfl
  | error e => rw [Run.bind_of_error h, List.append_nil]

end Scan

/-! ## Verdicts -/

variable {fs : FileSystem} {options : AuditOptions} {style : ProgressStyle} {now : Timestamp}
  {ids root marker : Path} {valid : IdSet} {repos : List FoundRepo} {start out : Audited}
  {e : AuditError}

/-- What is logged about a repository when its key is looked up. -/
def lookupEvents (valid : IdSet) (repo : FoundRepo) : List Event :=
  [.checking repo.id,
    if valid.contains repo.id = true then .isValid repo.path else .notValid repo.path]

/-- What a log tells about an entry. -/
def RepoEntry.verdictEvents (entry : RepoEntry) : List Event :=
  [.checking entry.id,
    if entry.status = .invalid then .notValid entry.path else .isValid entry.path]

/-- The verdict on a repository is logged before its marker is looked for. -/
theorem classify_events (fs : FileSystem) (valid : IdSet) (marker : Path) (repo : FoundRepo) :
    (classify fs valid marker repo).events = lookupEvents valid repo := by
  rw [classify, Run.log_bind_events, lookupEvents]
  split
  case isFalse => rw [Run.log_bind_events, Run.events_pure]
  case isTrue =>
    rw [Run.log_bind_events]
    cases hmarker : hasMarker fs marker repo.path with
    | ok found => rw [Run.bind_of_ok (Run.result_ofExcept _)]; rfl
    | error e => rw [Run.bind_of_error (Run.result_ofExcept _), Run.events_ofExcept]

theorem lookupEvents_of_classify {repo : FoundRepo} {entry : RepoEntry}
    (h : (classify fs valid marker repo).result = .ok entry) :
    lookupEvents valid repo = entry.verdictEvents := by
  obtain ⟨hrepo, hinvalid⟩ := Prod.mk.inj (classify_verdict h)
  subst hrepo
  rw [lookupEvents, RepoEntry.verdictEvents]
  cases hkey : valid.contains entry.id <;> simp_all

/-- The verdicts in the log are those of the entries. -/
theorem lookupEvents_of_entries {entries : List RepoEntry}
    (h : repos.Forall₂ (fun repo entry => (classify fs valid marker repo).result = .ok entry)
      entries) :
    repos.flatMap (lookupEvents valid) = entries.flatMap RepoEntry.verdictEvents := by
  induction h with
  | nil => rfl
  | cons hentry _ ih =>
    rw [List.flatMap_cons, List.flatMap_cons, lookupEvents_of_classify hentry, ih]

theorem classifyAll_events_of_ok (h : (classifyAll fs valid marker start repos).result = .ok out) :
    (classifyAll fs valid marker start repos).events = repos.flatMap (lookupEvents valid) := by
  induction repos generalizing start with
  | nil => rfl
  | cons repo rest ih =>
    rw [classifyAll] at h ⊢
    obtain ⟨entry, hentry, hrest⟩ := Run.bind_result_eq_ok.mp h
    rw [Run.bind_of_ok hentry, classify_events, ih hrest, List.flatMap_cons]

/-- A loop that fails has logged its verdicts up to the one on the repository that it fails at. -/
theorem classifyAll_events_of_error
    (h : (classifyAll fs valid marker start repos).result = .error e) :
    ∃ done repo, done ++ [repo] <+: repos ∧ valid.contains repo.id = true ∧
      hasMarker fs marker repo.path = .error e ∧
      (classifyAll fs valid marker start repos).events =
        (done ++ [repo]).flatMap (lookupEvents valid) := by
  induction repos generalizing start with
  | nil => cases h
  | cons repo rest ih =>
    rw [classifyAll] at h ⊢
    cases hentry : (classify fs valid marker repo).result with
    | error e' =>
      rw [Run.bind_of_error hentry] at h ⊢
      obtain rfl : e' = e := Except.error.inj h
      obtain ⟨hkey, hmarker⟩ := classify_eq_error_iff.mp hentry
      refine ⟨[], repo, ⟨rest, rfl⟩, hkey, hmarker, ?_⟩
      rw [classify_events, List.nil_append, List.flatMap_singleton]
    | ok entry =>
      rw [Run.bind_of_ok hentry] at h ⊢
      obtain ⟨done, stopped, hseen, hkey, hmarker, hevents⟩ := ih h
      refine ⟨repo :: done, stopped, ?_, hkey, hmarker, ?_⟩
      · exact List.prefix_cons_inj repo |>.mpr hseen
      · rw [hevents, classify_events, List.cons_append, List.flatMap_cons]

/-! ## The whole log -/

/-- The ways an audit can go, with what it logs and what comes of it. -/
inductive AuditGoes (fs : FileSystem) (options : AuditOptions) (ids root : Path) :
    List Event → Except AuditError Audited → Prop
  | idsRefused {e : AuditError} : checkIdsFile fs ids = .error e →
      AuditGoes fs options ids root [] (.error e)
  | rootRefused {e : AuditError} : checkIdsFile fs ids = .ok () → checkRoot fs root = .error e →
      AuditGoes fs options ids root [] (.error e)
  | unread {e : AuditError} : (IdSet.load fs options.skipBlankLines ids).result = .error e →
      AuditGoes fs options ids root (IdSet.load fs options.skipBlankLines ids).events (.error e)
  | unscanned {valid : IdSet} {e : AuditError} :
      (IdSet.load fs options.skipBlankLines ids).result = .ok valid →
      (Scan.scan fs options root).result = .error e →
      AuditGoes fs options ids root ((IdSet.load fs options.skipBlankLines ids).events ++
        (Scan.scan fs options root).events) (.error e)
  | interrupted {valid : IdSet} {repos done : List FoundRepo} {repo : FoundRepo} {e : AuditError} :
      (IdSet.load fs options.skipBlankLines ids).result = .ok valid →
      (Scan.scan fs options root).result = .ok repos → done ++ [repo] <+: repos →
      valid.contains repo.id = true → hasMarker fs options.configMarker repo.path = .error e →
      AuditGoes fs options ids root ((IdSet.load fs options.skipBlankLines ids).events ++
        (Scan.scan fs options root).events ++
        (done ++ [repo]).flatMap (lookupEvents valid)) (.error e)
  | completed {valid : IdSet} {repos : List FoundRepo} {out : Audited} :
      (IdSet.load fs options.skipBlankLines ids).result = .ok valid →
      (Scan.scan fs options root).result = .ok repos →
      out.report.validIdsLoaded = valid.size → out.report.total = repos.length →
      AuditGoes fs options ids root ((IdSet.load fs options.skipBlankLines ids).events ++
        (Scan.scan fs options root).events ++ out.report.entries.flatMap RepoEntry.verdictEvents ++
        [.auditComplete out.report.total]) (.ok out)

/-- What an audit logs and comes to once the ids are loaded. -/
theorem auditAgainst_goes (hload : (IdSet.load fs options.skipBlankLines ids).result = .ok valid)
    (style : ProgressStyle) (now : Timestamp) :
    AuditGoes fs options ids root ((IdSet.load fs options.skipBlankLines ids).events ++
        (auditAgainst fs options style now valid root).events)
      (auditAgainst fs options style now valid root).result := by
  rw [auditAgainst]
  cases hscan : (Scan.scan fs options root).result with
  | error e =>
    rw [Run.bind_of_error hscan]
    exact .unscanned hload hscan
  | ok repos =>
    rw [Run.bind_of_ok hscan]
    simp only
    cases hloop : (classifyAll fs valid options.configMarker
        ⟨.start valid.size now, .start style repos.length⟩ repos).result with
    | error e =>
      obtain ⟨done, repo, hseen, hkey, hmarker, hevents⟩ := classifyAll_events_of_error hloop
      rw [Run.bind_of_error hloop, hevents, ← List.append_assoc]
      exact .interrupted hload hscan hseen hkey hmarker
    | ok audited =>
      obtain ⟨entries, hentries, haudited⟩ := classifyAll_result.mp hloop
      rw [hentries.length_eq] at haudited
      obtain rfl : audited = .ofEntries valid.size now style entries := haudited
      have hkept := Audited.entries_ofEntries valid.size now style entries
      rw [Run.bind_of_ok hloop, classifyAll_events_of_ok hloop, lookupEvents_of_entries hentries,
        Run.log_bind_result, Run.log_bind_events, Run.events_pure, Run.result_pure]
      have hgoes : AuditGoes fs options ids root _
          (.ok ⟨(Audited.ofEntries valid.size now style entries).report,
            (Audited.ofEntries valid.size now style entries).progress.finish⟩) :=
        .completed hload hscan (Audited.validIdsLoaded_ofEntries ..)
          (by rw [Report.total, hkept, hentries.length_eq])
      rw [hkept, List.append_assoc, List.append_assoc] at hgoes
      exact hgoes

theorem audit_goes (fs : FileSystem) (options : AuditOptions) (style : ProgressStyle)
    (now : Timestamp) (ids root : Path) :
    AuditGoes fs options ids root (audit fs options style now ids root).events
      (audit fs options style now ids root).result := by
  rw [audit]
  cases hids : checkIdsFile fs ids with
  | error e => exact .idsRefused hids
  | ok =>
    rw [Run.bind_of_ok (Run.result_ofExcept _)]
    cases hroot : checkRoot fs root with
    | error e => exact .rootRefused hids hroot
    | ok =>
      rw [Run.bind_of_ok (Run.result_ofExcept _)]
      simp only [Run.events_ofExcept, List.nil_append]
      cases hload : (IdSet.load fs options.skipBlankLines ids).result with
      | error e =>
        rw [Run.bind_of_error hload]
        exact .unread hload
      | ok valid =>
        rw [Run.bind_of_ok hload]
        exact auditAgainst_goes hload style now

/-- The ids of the repositories that a log says were checked, in order. -/
def checkedIds (events : List Event) : List RepoId :=
  events.filterMap fun
    | .checking id => some id
    | _ => none

theorem checkedIds_append (events events' : List Event) :
    checkedIds (events ++ events') = checkedIds events ++ checkedIds events' :=
  List.filterMap_append

theorem checkedIds_lookupEvents (valid : IdSet) (repos : List FoundRepo) :
    checkedIds (repos.flatMap (lookupEvents valid)) = repos.map FoundRepo.id := by
  induction repos with
  | nil => rfl
  | cons repo rest ih =>
    rw [List.flatMap_cons, checkedIds_append, ih, List.map_cons, lookupEvents]
    split <;> rfl

theorem checkedIds_eq_nil {events : List Event} (h : ∀ id, .checking id ∉ events) :
    checkedIds events = [] := by
  rw [checkedIds, List.filterMap_eq_nil_iff]
  intro event hevent
  cases event with
  | checking id => exact absurd hevent (h id)
  | _ => rfl

theorem IdSet.not_mem_load_events {skipBlank : Bool} {path : Path} {event : Event}
    (hreading : event.isReading = false)
    (hloaded : ∀ set, (load fs skipBlank path).result = .ok set → event ≠ .loadedIds set.size) :
    event ∉ (load fs skipBlank path).events := by
  obtain ⟨read, hread, hevents⟩ := load_events fs skipBlank path
  rw [hevents, List.mem_append, not_or]
  constructor
  · intro h
    exact Bool.false_ne_true (hreading.symm.trans (hread event h))
  · cases hload : (load fs skipBlank path).result with
    | error e => exact List.not_mem_nil
    | ok set => exact mt List.mem_singleton.mp (hloaded set hload)

theorem Scan.not_mem_scan_events {event : Event} (hscanning : event ≠ .scanning root)
    (hwalking : event.isWalking = false)
    (hfound : ∀ repos, (scan fs options root).result = .ok repos →
      event ≠ .foundRepos repos.length) :
    event ∉ (scan fs options root).events := by
  obtain ⟨met, hmet, hevents⟩ := scan_events fs options root
  rw [hevents, List.cons_append, List.mem_cons, List.mem_append, not_or, not_or]
  refine ⟨hscanning, ?_, ?_⟩
  · intro h
    exact Bool.false_ne_true (hwalking.symm.trans (hmet event h))
  · cases hscan : (scan fs options root).result with
    | error e => exact List.not_mem_nil
    | ok repos => exact mt List.mem_singleton.mp (hfound repos hscan)

theorem not_mem_lookupEvents {event : Event} (hchecking : ∀ id, event ≠ .checking id)
    (hvalid : ∀ path, event ≠ .isValid path) (hinvalid : ∀ path, event ≠ .notValid path)
    (valid : IdSet) (repos : List FoundRepo) : event ∉ repos.flatMap (lookupEvents valid) := by
  intro h
  obtain ⟨repo, -, hevent⟩ := List.mem_flatMap.mp h
  rw [lookupEvents, List.mem_pair] at hevent
  split at hevent
  · exact hevent.elim (hchecking _) (hvalid _)
  · exact hevent.elim (hchecking _) (hinvalid _)

/-- Whether an event is one of an audit, and not of the run around it. -/
def Event.isOfAudit : Event → Bool
  | .started | .loadingSettings _ | .settingsFileMissing _ | .fallingBack _ | .writingReport _
  | .exportComplete _ _ => false
  | _ => true

/-- An audit logs its own events only. -/
theorem not_mem_audit_events {event : Event} (h : event.isOfAudit = false) :
    event ∉ (audit fs options style now ids root).events := by
  have hne : ∀ {other : Event}, other.isOfAudit = true → event ≠ other := by
    rintro other hother rfl
    exact Bool.false_ne_true (h.symm.trans hother)
  have hreading : event.isReading = false := by
    cases event <;> first | rfl | cases h
  have hwalking : event.isWalking = false := by
    cases event <;> first | rfl | cases h
  have hload : event ∉ (IdSet.load fs options.skipBlankLines ids).events :=
    IdSet.not_mem_load_events hreading fun _ _ => hne rfl
  have hscan : event ∉ (Scan.scan fs options root).events :=
    Scan.not_mem_scan_events (hne rfl) hwalking fun _ _ => hne rfl
  have hgoes := audit_goes fs options style now ids root
  generalize (audit fs options style now ids root).events = events,
    (audit fs options style now ids root).result = result at hgoes ⊢
  cases hgoes with
  | idsRefused _ => exact List.not_mem_nil
  | rootRefused _ _ => exact List.not_mem_nil
  | unread _ => exact hload
  | unscanned _ _ => exact List.not_mem_append hload hscan
  | interrupted _ _ _ _ _ =>
    have hlookup := not_mem_lookupEvents (fun _ => hne rfl) (fun _ => hne rfl) fun _ => hne rfl
    exact List.not_mem_append (List.not_mem_append hload hscan) (hlookup _ _)
  | completed _ _ _ _ =>
    refine List.not_mem_append (List.not_mem_append (List.not_mem_append hload hscan) ?_)
      (mt List.mem_singleton.mp (hne rfl))
    intro hverdict
    obtain ⟨entry, -, hmem⟩ := List.mem_flatMap.mp hverdict
    rw [RepoEntry.verdictEvents, List.mem_pair] at hmem
    split at hmem
    · exact hmem.elim (hne rfl) (hne rfl)
    · exact hmem.elim (hne rfl) (hne rfl)

/-- The log of an audit that comes to a report: what was read of the id list, what the walk met, and
the verdicts of the report, with the counts of each stage at its end. -/
structure CompleteLog (fs : FileSystem) (options : AuditOptions) (ids root : Path)
    (logged : List Event) (report : Report) (read met : List Event) : Prop where
  reading : ∀ e ∈ read, Event.isReading e = true
  walking : ∀ e ∈ met, Event.isWalking e = true
  loaded : (IdSet.load fs options.skipBlankLines ids).events =
    read ++ [.loadedIds report.validIdsLoaded]
  scanned : (Scan.scan fs options root).events =
    .scanning root :: met ++ [.foundRepos report.total]
  logged_eq : logged = (IdSet.load fs options.skipBlankLines ids).events ++
    (Scan.scan fs options root).events ++ report.entries.flatMap RepoEntry.verdictEvents ++
    [.auditComplete report.total]
  lines : ∀ elapsed, logged.map (Event.message elapsed) =
    read.map (Event.message elapsed) ++ [s!"Got {report.validIdsLoaded} repos"] ++
    [s!"Scanning sync directory: {root.display}"] ++ met.map (Event.message elapsed) ++
    [s!"Found {report.total} repo directories"] ++
    report.entries.flatMap (fun entry => [s!"Checking {entry.id.key}",
      if entry.status = .invalid then s!"Not valid: {entry.path.display}"
      else s!"Is valid: {entry.path.display}"]) ++
    [s!"Audit of {report.total} repos complete in {elapsed}"]

/-- What the log of an audit tells, whether it comes to a report or fails. -/
structure LogTells (fs : FileSystem) (options : AuditOptions) (ids root : Path)
    (run : Run Audited) : Prop where
  completed : ∀ out, run.result = .ok out → ∃ reading walking,
    CompleteLog fs options ids root run.events out.report reading walking
  /-- The id list is checked first, whatever the root is. -/
  idsRefused : ∀ e, checkIdsFile fs ids = .error e → run.result = .error e ∧ run.events = []
  rootRefused : ∀ e, checkIdsFile fs ids = .ok () → checkRoot fs root = .error e →
    run.result = .error e ∧ run.events = []
  unread : ∀ e, (IdSet.load fs options.skipBlankLines ids).result = .error e →
    (∃ e, run.result = .error e) ∧ ∀ count, .loadedIds count ∉ run.events
  unscanned : ∀ e, (Scan.scan fs options root).result = .error e →
    (∃ e, run.result = .error e) ∧ ∀ count, .foundRepos count ∉ run.events
  unfinished : ∀ e, run.result = .error e → ∀ count, .auditComplete count ∉ run.events
  checked : ∀ e, run.result = .error e →
    checkedIds run.events <+: (Scan.scan fs options root).items.map FoundRepo.id

theorem RepoEntry.messages_verdictEvents (elapsed : String) (entry : RepoEntry) :
    entry.verdictEvents.map (Event.message elapsed) = [s!"Checking {entry.id.key}",
      if entry.status = .invalid then s!"Not valid: {entry.path.display}"
      else s!"Is valid: {entry.path.display}"] := by
  rw [verdictEvents]
  split <;> rfl

theorem completeLog_of_goes {events : List Event}
    (h : AuditGoes fs options ids root events (.ok out)) :
    ∃ read met, CompleteLog fs options ids root events out.report read met := by
  cases h with
  | completed hload hscan hloaded htotal =>
    obtain ⟨read, hread, hloading⟩ := IdSet.load_events fs options.skipBlankLines ids
    obtain ⟨met, hmet, hscanning⟩ := Scan.scan_events fs options root
    rw [hload] at hloading
    rw [hscan] at hscanning
    simp only [← hloaded] at hloading
    simp only [← htotal] at hscanning
    refine ⟨read, met, hread, hmet, hloading, hscanning, rfl, fun elapsed => ?_⟩
    rw [hloading, hscanning]
    simp only [List.map_append, List.map_cons, List.map_nil, List.map_flatMap,
      RepoEntry.messages_verdictEvents, List.append_assoc, List.cons_append, List.nil_append]
    rfl

theorem audit_of_idsRefused (h : checkIdsFile fs ids = .error e) :
    audit fs options style now ids root = ⟨[], .error e⟩ := by
  rw [audit, h]
  exact Run.bind_of_error (Run.result_ofExcept _) _

theorem audit_of_rootRefused (hids : checkIdsFile fs ids = .ok ())
    (h : checkRoot fs root = .error e) :
    audit fs options style now ids root = ⟨[], .error e⟩ := by
  rw [audit, hids, h, Run.bind_of_ok (Run.result_ofExcept _),
    Run.bind_of_error (Run.result_ofExcept _)]
  rfl

theorem AuditGoes.not_loaded {events : List Event} {result : Except AuditError Audited}
    (h : AuditGoes fs options ids root events result)
    (hload : (IdSet.load fs options.skipBlankLines ids).result = .error e) :
    (∃ e, result = .error e) ∧ ∀ count, .loadedIds count ∉ events := by
  cases h with
  | idsRefused _ => exact ⟨⟨_, rfl⟩, fun _ => List.not_mem_nil⟩
  | rootRefused _ _ => exact ⟨⟨_, rfl⟩, fun _ => List.not_mem_nil⟩
  | unread _ =>
    exact ⟨⟨_, rfl⟩, fun _ => IdSet.not_mem_load_events rfl fun set hset => by simp [hload] at hset⟩
  | unscanned hload' _ => simp [hload] at hload'
  | interrupted hload' _ _ _ _ => simp [hload] at hload'
  | completed hload' _ _ _ => simp [hload] at hload'

theorem AuditGoes.not_found {events : List Event} {result : Except AuditError Audited}
    (h : AuditGoes fs options ids root events result)
    (hscan : (Scan.scan fs options root).result = .error e) :
    (∃ e, result = .error e) ∧ ∀ count, .foundRepos count ∉ events := by
  have hloading (count : Nat) :
      .foundRepos count ∉ (IdSet.load fs options.skipBlankLines ids).events :=
    IdSet.not_mem_load_events rfl fun _ _ => by simp
  have hscanning (count : Nat) : .foundRepos count ∉ (Scan.scan fs options root).events :=
    Scan.not_mem_scan_events (by simp) rfl fun repos hrepos => by simp [hscan] at hrepos
  cases h with
  | idsRefused _ => exact ⟨⟨_, rfl⟩, fun _ => List.not_mem_nil⟩
  | rootRefused _ _ => exact ⟨⟨_, rfl⟩, fun _ => List.not_mem_nil⟩
  | unread _ => exact ⟨⟨_, rfl⟩, hloading⟩
  | unscanned _ _ =>
    exact ⟨⟨_, rfl⟩, fun count => List.not_mem_append (hloading count) (hscanning count)⟩
  | interrupted _ hscan' _ _ _ => simp [hscan] at hscan'
  | completed _ hscan' _ _ => simp [hscan] at hscan'

/-- A log that ends with a failure announces no end, and its checks are those of the first
repositories found. -/
theorem AuditGoes.unfinished {events : List Event}
    (h : AuditGoes fs options ids root events (.error e)) :
    (∀ count, .auditComplete count ∉ events) ∧
      checkedIds events <+: (Scan.scan fs options root).items.map FoundRepo.id := by
  have hload (count : Nat) :
      .auditComplete count ∉ (IdSet.load fs options.skipBlankLines ids).events :=
    IdSet.not_mem_load_events rfl fun _ _ => by simp
  have hscan (count : Nat) : .auditComplete count ∉ (Scan.scan fs options root).events :=
    Scan.not_mem_scan_events (by simp) rfl fun _ _ => by simp
  have hload_ids : checkedIds (IdSet.load fs options.skipBlankLines ids).events = [] :=
    checkedIds_eq_nil fun _ => IdSet.not_mem_load_events rfl fun _ _ => by simp
  have hscan_ids : checkedIds (Scan.scan fs options root).events = [] :=
    checkedIds_eq_nil fun _ => Scan.not_mem_scan_events (by simp) rfl fun _ _ => by simp
  cases h with
  | idsRefused _ => exact ⟨fun _ => List.not_mem_nil, List.nil_prefix⟩
  | rootRefused _ _ => exact ⟨fun _ => List.not_mem_nil, List.nil_prefix⟩
  | unread _ => exact ⟨hload, by rw [hload_ids]; exact List.nil_prefix⟩
  | unscanned _ _ =>
    refine ⟨fun count => List.not_mem_append (hload count) (hscan count), ?_⟩
    rw [checkedIds_append, hload_ids, hscan_ids]
    exact List.nil_prefix
  | @interrupted valid repos done repo _ _ hrepos hseen _ _ =>
    constructor
    · intro count
      have hverdicts : .auditComplete count ∉ (done ++ [repo]).flatMap (lookupEvents valid) :=
        not_mem_lookupEvents (by simp) (by simp) (by simp) valid _
      exact List.not_mem_append (List.not_mem_append (hload count) (hscan count)) hverdicts
    · rw [checkedIds_append, checkedIds_append, hload_ids, hscan_ids, checkedIds_lookupEvents,
        Run.items_of_ok hrepos]
      exact hseen.map FoundRepo.id

/-- The log of an audit tells the truth about it. -/
theorem audit_log (fs : FileSystem) (options : AuditOptions) (style : ProgressStyle)
    (now : Timestamp) (ids root : Path) :
    LogTells fs options ids root (audit fs options style now ids root) := by
  have hgoes := audit_goes fs options style now ids root
  constructor
  case completed =>
    intro out hout
    rw [hout] at hgoes
    exact completeLog_of_goes hgoes
  case idsRefused =>
    intro e hids
    rw [audit_of_idsRefused hids]
    exact ⟨rfl, rfl⟩
  case rootRefused =>
    intro e hids hroot
    rw [audit_of_rootRefused hids hroot]
    exact ⟨rfl, rfl⟩
  case unread =>
    intro e hload
    exact hgoes.not_loaded hload
  case unscanned =>
    intro e hscan
    exact hgoes.not_found hscan
  case unfinished =>
    intro e he
    rw [he] at hgoes
    exact hgoes.unfinished.1
  case checked =>
    intro e he
    rw [he] at hgoes
    exact hgoes.unfinished.2

end SyncAudit
