import Mathlib.Data.List.Basic
import SyncAudit.Proofs.Audit.Exporting
import SyncAudit.Proofs.Audit.Log
import SyncAudit.Proofs.CommandLine.Outcome
import SyncAudit.Proofs.Number.Numeral
import SyncAudit.Proofs.Settings.Loaded

/-!
# The console and the exported file

A run says how many repositories are stale in four places: the counter behind the totals, the list
under them, the keys in the file and the log line of the export. The first and the last go by the
counter and the others by the statuses of the entries. They agree because no report comes out of an
audit with counters that differ from its entries.
-/
namespace SyncAudit

/-! ## What the file says -/

/-- Whether an exported entry has the status of a stale repository. -/
def Json.saysInvalid (item : Json) : Bool :=
  match item.member? "status" with
  | some (.string status) => status = "invalid"
  | _ => false

/-- What a reader finds in an exported value: the counts, the keys of the stale repositories, the
entries, and the paths of those that are invalid. -/
structure Json.ReadsAs (json : Json) (summary : Summary) (staleRepos : List String)
    (items : List Json) (stalePaths : List String) : Prop where
  total_repos : json.member? "total_repos" = some (.ofNat items.length)
  stale_repos : json.member? "stale_repos" = some (.strings staleRepos)
  entries : json.member? "entries" = some (.array items)
  counts : ∃ counts, json.member? "summary" = some counts ∧
    counts.member? "valid" = some (.ofNat summary.valid) ∧
    counts.member? "valid_with_config" = some (.ofNat summary.validWithConfig) ∧
    counts.member? "invalid" = some (.ofNat summary.invalid)
  invalid : (items.filter saysInvalid).map (member? "path") =
    stalePaths.map fun path => some (.string path)

theorem RepoStatus.label_eq_invalid_iff {status : RepoStatus} :
    status.label = "invalid" ↔ status = .invalid := by
  cases status <;> decide

/-- An exported entry shows its path as it is displayed, and is invalid if the entry is. -/
theorem RepoEntry.shows_of_toJson {entry : RepoEntry} {item : Json} (h : entry.toJson = .ok item) :
    item.saysInvalid = decide (entry.status = .invalid) ∧
      item.member? "path" = some (.string entry.path.display) := by
  rw [toJson] at h
  cases hpath : Text.ofBytes? entry.path.bytes with
  | none => simp [hpath] at h
  | some path =>
    rw [hpath] at h
    obtain rfl := Except.ok.inj h
    rw [Path.display, Text.ofBytesLossy_of_ofBytes hpath]
    refine ⟨?_, rfl⟩
    have hstatus : Json.saysInvalid (.object [("id", entry.id.toJson), ("path", .string path),
        ("status", .string entry.status.label)]) = decide (entry.status.label = "invalid") := rfl
    rw [hstatus]
    exact decide_eq_decide.mpr RepoStatus.label_eq_invalid_iff

namespace Report

theorem entriesToJson_cons {entry : RepoEntry} {rest : List RepoEntry} {items : List Json}
    (h : entriesToJson (entry :: rest) = .ok items) :
    ∃ item later, entry.toJson = .ok item ∧ entriesToJson rest = .ok later ∧
      items = item :: later := by
  rw [entriesToJson] at h
  cases hitem : entry.toJson with
  | error e => simp [hitem, bind, Except.bind] at h
  | ok item =>
    cases hlater : entriesToJson rest with
    | error e => simp [hitem, hlater, bind, Except.bind] at h
    | ok later =>
      rw [hitem, hlater] at h
      exact ⟨item, later, rfl, rfl, (Except.ok.inj h).symm⟩

/-- The exported entries that are invalid are those of the stale entries, in order. -/
theorem invalid_of_entries {entries : List RepoEntry} {items : List Json}
    (h : entriesToJson entries = .ok items) :
    items.length = entries.length ∧ (items.filter Json.saysInvalid).map (Json.member? "path") =
      (entries.filter fun entry => entry.status = .invalid).map fun entry =>
        some (.string entry.path.display) := by
  induction entries generalizing items with
  | nil =>
    obtain rfl := Except.ok.inj h
    exact ⟨rfl, rfl⟩
  | cons entry rest ih =>
    obtain ⟨item, later, hitem, hlater, rfl⟩ := entriesToJson_cons h
    obtain ⟨hlength, hpaths⟩ := ih hlater
    obtain ⟨hstatus, hpath⟩ := RepoEntry.shows_of_toJson hitem
    refine ⟨by rw [List.length_cons, List.length_cons, hlength], ?_⟩
    rw [List.filter_cons, List.filter_cons, hstatus]
    split
    · rw [List.map_cons, List.map_cons, hpaths, hpath]
    · exact hpaths

theorem readsAs_exported {r : Report} {items : List Json}
    (h : entriesToJson r.entries = .ok items) :
    (r.exported items).ReadsAs r.summary (r.stale.map (·.id.key)) items
      (r.stale.map (·.path.display)) := by
  obtain ⟨hlength, hpaths⟩ := invalid_of_entries h
  obtain ⟨htotal, -, hcounts⟩ := r.showsCounts_exported items
  refine ⟨by rw [hlength, htotal], rfl, rfl, hcounts, ?_⟩
  rw [hpaths, stale, List.map_map]
  rfl

end Report

namespace CommandLine

open Settings (ForeignReaders)

variable {fs : FileSystem} {env : Environment} {now : Timestamp} {words : List Word}
  {invocation : Invocation} {settings : Settings} {report : Report} {output : Path}

/-! ## What the console says -/

/-- What is to be printed below the totals where no repository is stale. -/
def noStaleText (colored : Bool) : String :=
  if colored then "\n\x1b[1;32m✓\x1b[0m \x1b[32mNo stale repos found\x1b[0m\n"
  else "\n✓ No stale repos found\n"

/-- What is to be printed below the totals for the stale directories at the given paths: a line for
each of them, in order. -/
def staleText (colored : Bool) (stalePaths : List String) : String :=
  (if colored then "\n\x1b[1;33m⚠\x1b[0m \x1b[33mStale repos:\x1b[0m\n" else "\n⚠ Stale repos:\n") ++
    String.join (stalePaths.map fun path => s!"  {path}\n")

/-- A run shows log lines and then, once each, the totals, the stale directories, and the export of
a report to a file, with nothing in between or behind. -/
structure Outcome.Tells (outcome : Outcome) (summary : Summary) (total : Nat) (stale : List Path)
    (output : Path) : Prop where
  shown : ∃ log : List Event, (∀ n k, .exportComplete n k ∉ log) ∧
    outcome.shown = log.map .event ++ [.totals summary,
      if stale = [] then .noStale else .stale stale, .event (.writingReport output),
      .event (.exportComplete total stale.length), .written output]
  printed : ∀ clock, ∃ before after, outcome.stdout clock = before ++ totalsText summary
    ++ (if stale = [] then noStaleText outcome.style.color
      else staleText outcome.style.color (stale.map Path.display))
    ++ logLine outcome.style clock .info (defuse s!"Writing JSON report to {output.display}")
    ++ logLine outcome.style clock .info s!"Export complete: {total} repos ({stale.length} stale)"
    ++ after

theorem text_noStale (style : Style) (clock : Clock) :
    Shown.noStale.text style clock = noStaleText style.color := by
  rw [Shown.text, noStaleText]
  cases style.color <;> decide

theorem text_stale (style : Style) (clock : Clock) (paths : List Path) :
    (Shown.stale paths).text style clock =
      staleText style.color (paths.map Path.display) := by
  have hhead : "\n" ++ Terminal.Notice.warning.line style.color "Stale repos:" ++ "\n" =
      if style.color then "\n\x1b[1;33m⚠\x1b[0m \x1b[33mStale repos:\x1b[0m\n"
      else "\n⚠ Stale repos:\n" := by
    cases style.color <;> decide
  rw [Shown.text, hhead, staleText, lineTexts, List.map_map, List.map_map]
  rfl

theorem defuse_append (s t : String) : defuse (s ++ t) = defuse s ++ defuse t := by
  rw [defuse, String.toList_append, List.flatMap_append, String.ofList_append]
  rfl

/-- No digit steers a terminal. -/
theorem defuse_toString (n : Nat) : defuse (toString n) = toString n := by
  have hcalm : ∀ c ∈ decimal n, isSteering c = false := by
    intro c hc
    have hdigit := isDigit_iff.mp (isDigit_of_mem_decimal hc)
    have hne : ∀ d : Char, d.toNat < 48 ∨ 57 < d.toNat → c ≠ d := by
      rintro d hd rfl
      omega
    simp [isSteering, hne]
    omega
  have hdigits : (toString n).toList = decimal n := Nat.toList_repr
  have hkept : (decimal n).flatMap (fun c => if isSteering c then steeringEscape c else [c]) =
      decimal n := by
    refine (List.flatMap_congr fun c hc => ?_).trans (List.flatMap_singleton' _)
    rw [hcalm c hc]
    exact if_neg Bool.false_ne_true
  rw [defuse, hdigits, hkept, ← hdigits, String.ofList_toList]

theorem eventText_writingReport (style : Style) (clock : Clock) (output : Path) :
    eventText style clock (.writingReport output) =
      logLine style clock .info (defuse s!"Writing JSON report to {output.display}") := by
  have hinfo : (Event.writingReport output).level = .info := rfl
  rw [eventText_eq, hinfo, if_neg (fun h => nomatch h.1)]
  rfl

theorem eventText_exportComplete (style : Style) (clock : Clock) (n k : Nat) :
    eventText style clock (.exportComplete n k) =
      logLine style clock .info s!"Export complete: {n} repos ({k} stale)" := by
  have hcount : defuse (toString "Export complete: ") = toString "Export complete: " := by decide
  have hrepos : defuse (toString " repos (") = toString " repos (" := by decide
  have hstale : defuse (toString " stale)") = toString " stale)" := by decide
  have hmessage : (Event.exportComplete n k).message clock.elapsed =
      s!"Export complete: {n} repos ({k} stale)" := rfl
  have hinfo : (Event.exportComplete n k).level = .info := rfl
  rw [eventText_eq, hinfo, if_neg (fun h => nomatch h.1), hmessage, defuse_append, defuse_append,
    defuse_append, defuse_append, defuse_toString, defuse_toString, hcount, hrepos, hstale]

theorem Outcome.tells_of_shown {outcome : Outcome} {summary : Summary} {total : Nat}
    {stale : List Path} {log : List Event} (hlog : ∀ n k, .exportComplete n k ∉ log)
    (h : outcome.shown = log.map .event ++ [.totals summary,
      if stale = [] then .noStale else .stale stale, .event (.writingReport output),
      .event (.exportComplete total stale.length), .written output]) :
    outcome.Tells summary total stale output := by
  refine ⟨⟨log, hlog, h⟩, fun clock => ?_⟩
  have hstale : (if stale = [] then Shown.noStale else .stale stale).text outcome.style clock =
      if stale = [] then noStaleText outcome.style.color
      else staleText outcome.style.color (stale.map Path.display) := by
    split
    · exact text_noStale _ _
    · exact text_stale _ _ _
  have hevent : ∀ e, (Shown.event e).text outcome.style clock =
      eventText outcome.style clock e := fun _ => rfl
  refine ⟨String.join ((log.map Shown.event).map (Shown.text outcome.style clock)) ++ "\n\n\n",
    (Shown.written output).text outcome.style clock, ?_⟩
  rw [stdout, h]
  simp only [List.map_append, List.map_cons, List.map_nil, String.join_append, String.join_cons,
    String.join_nil, String.append_empty, hstale, text_totals, hevent, eventText_writingReport,
    eventText_exportComplete, String.append_assoc]

theorem exportComplete_not_mem_settingsFor [ForeignReaders] (config : Path) (n k : Nat) :
    .exportComplete n k ∉ (settingsFor fs env config).events := by
  rw [settingsFor]
  cases fs.stat config with
  | ok node => simp
  | error e =>
    rw [Run.log_bind_events]
    cases Settings.load fs env none <;> simp

theorem Audits.counted [ForeignReaders] (h : Audits fs env now words invocation settings report) :
    report.Counted := by
  obtain ⟨progress, haudited⟩ := h.audited
  exact counted_of_audit haudited

/-- The counter that decides what is shown of the stale repositories is zero just where there are
none to list. -/
theorem findings_of_listStale {options : ReportOptions} (hlist : options.listStale = true)
    (hcounted : report.Counted) :
    findings options report = [.totals report.summary,
      if report.stale.map RepoEntry.path = [] then .noStale
      else .stale (report.stale.map RepoEntry.path)] := by
  rw [findings, hlist, hcounted.invalid_eq_length_stale]
  simp only [Bool.not_true, Bool.false_eq_true, if_false, List.length_eq_zero_iff,
    List.map_eq_nil_iff]
  split <;> rfl

/-- What a run shows that has written its report, with the stale repositories listed. -/
theorem Audits.tells [ForeignReaders] (h : Audits fs env now words invocation settings report)
    (hlist : settings.report.listStale = true) (hjson : invocation.json = some output)
    {written : FileSystem}
    (hexports : Exports fs settings.report.prettyJson report output written) :
    (run fs env now words).Tells report.summary report.total (report.stale.map RepoEntry.path)
      output := by
  have hlog : ∀ n k, .exportComplete n k ∉ Event.started ::
      (settingsFor fs env invocation.config).events ++
        (auditOf fs now invocation settings).events := by
    intro n k hmem
    rcases List.mem_append.mp hmem with hmem | hmem
    · exact exportComplete_not_mem_settingsFor _ n k (List.mem_of_ne_of_mem (by simp) hmem)
    · exact not_mem_audit_events rfl hmem
  refine Outcome.tells_of_shown hlog ?_
  rw [h.run_eq, hjson, closing, exportTo_of_exports hexports,
    findings_of_listStale hlist h.counted, h.counted.invalid_eq_length_stale]
  simp [opening, events]

/-! ## Both together -/

/-- What a run shows and the value that it has written agree. -/
structure Outcome.Agrees (outcome : Outcome) (output : Path) (json : Json) (summary : Summary)
    (staleRepos : List String) (items : List Json) (stale : List Path) : Prop where
  file : json.ReadsAs summary staleRepos items (stale.map Path.display)
  console : outcome.Tells summary items.length stale output
  invalid_eq : summary.invalid = staleRepos.length
  stale_length : stale.length = staleRepos.length
  noStale : .noStale ∈ outcome.shown ↔ staleRepos = []
  exportComplete : ∀ n k, .event (.exportComplete n k) ∈ outcome.shown ↔
    n = items.length ∧ k = staleRepos.length

theorem Outcome.Tells.noStale_iff {outcome : Outcome} {summary : Summary} {total : Nat}
    {stale : List Path} (h : outcome.Tells summary total stale output) :
    .noStale ∈ outcome.shown ↔ stale = [] := by
  obtain ⟨log, -, hshown⟩ := h.shown
  rw [hshown]
  by_cases hstale : stale = [] <;> simp [hstale]

theorem Outcome.Tells.exportComplete_iff {outcome : Outcome} {summary : Summary} {total : Nat}
    {stale : List Path} (h : outcome.Tells summary total stale output) (n k : Nat) :
    .event (.exportComplete n k) ∈ outcome.shown ↔ n = total ∧ k = stale.length := by
  obtain ⟨log, hlog, hshown⟩ := h.shown
  rw [hshown]
  by_cases hstale : stale = [] <;> simp [hstale, hlog]

/-- A run that ends well, with a file to write to and the stale repositories to be listed, shows
and writes one and the same account. Counts have no bound here; the text is read back where those
of the entries and of the ids are machine words. -/
theorem console_agrees_with_export [ForeignReaders] (hparse : parse words = .ok (.audit invocation))
    (hjson : invocation.json = some output)
    (hsettings : settingsOf fs env invocation = .ok settings)
    (hlist : settings.report.listStale = true) (hcode : (run fs env now words).code = 0) :
    ∃ text json summary staleRepos items stale loaded,
      (run fs env now words).fs.Holds output (Text.toBytes text) ∧
      text = (if settings.report.prettyJson then json.pretty else json.compact) ∧
      json.member? "valid_ids_loaded" = some (.ofNat loaded) ∧
      (items.length < 2 ^ 64 → loaded < 2 ^ 64 → Json.parse text = some json) ∧
      (run fs env now words).Agrees output json summary staleRepos items stale := by
  obtain ⟨settings', report, haudits⟩ := audits_of_code hparse hcode
  obtain rfl : settings' = settings := Except.ok.inj (haudits.settled.symm.trans hsettings)
  obtain ⟨hfs, hexport⟩ := haudits.of_json hjson
  obtain ⟨written, hwritten⟩ := exports_of_code (hexport.symm.trans hcode)
  obtain ⟨text, htext, hholds⟩ := hwritten.holds
  obtain ⟨items, hitems, rfl, hread⟩ := Report.parse_of_render htext
  have hlength := (Report.invalid_of_entries hitems).1
  have htells := haudits.tells hlist hjson hwritten
  have hinvalid := haudits.counted.invalid_eq_length_stale
  refine ⟨_, report.exported items, report.summary, report.stale.map (·.id.key), items,
    report.stale.map RepoEntry.path, report.validIdsLoaded, ?_, rfl, rfl, ?_, ?_⟩
  · rwa [hfs, exportTo_of_exports hwritten]
  · intro hentries hloaded
    exact hread (haudits.counted.fits (hlength ▸ hentries) hloaded)
  · constructor
    case file =>
      rw [List.map_map]
      exact Report.readsAs_exported hitems
    case console =>
      rw [hlength]
      exact htells
    case invalid_eq => rw [hinvalid, List.length_map]
    case stale_length => rw [List.length_map, List.length_map]
    case noStale => rw [htells.noStale_iff, List.map_eq_nil_iff, List.map_eq_nil_iff]
    case exportComplete =>
      intro n k
      rw [htells.exportComplete_iff, hlength, List.length_map, List.length_map]
      rfl

/-- The settings without a file, with the marker that the run is given. -/
def exportSettings : Settings :=
  ⟨⟨.ofString "on", true, false, true⟩, .default⟩

theorem markedShelf_exports :
    ∃ written,
      Exports markedShelf true markedShelfReport (.ofString "out/report.json") written := by
  obtain ⟨made, hmade, hlookup, hdir⟩ : ∃ made,
      Report.prepareOutput markedShelf (.ofString "out/report.json") = (made, .ok ()) ∧
      made.lookup .followToCreate (.ofString "out/report.json") =
        .ok (.missing [Text.toBytes "out"] (Text.toBytes "report.json")) ∧
      made.node? [Text.toBytes "out"] = some (.directory .full) :=
    ⟨_, Prod.ext rfl (by decide +kernel), by decide +kernel, by decide +kernel⟩
  have hpaths : ∀ entry ∈ markedShelfReport.entries, Text.ofBytes? entry.path.bytes ≠ none := by
    decide
  cases htext : markedShelfReport.render true with
  | error e =>
    obtain ⟨entry, hentry, hbad⟩ := Report.render_eq_error_iff.mp ⟨e, htext⟩
    exact absurd hbad (hpaths entry hentry)
  | ok text =>
    exact ⟨_, hmade, htext, FileSystem.write_eq_ok_iff.mpr (.inr (.mk hlookup hdir rfl))⟩

theorem markedShelf_loaded :
    (settingsFor markedShelf ⟨[]⟩ exportInvocation.config).result = .ok .default := by
  have hdotenv : Settings.findDotenv markedShelf
      (FileSystem.ancestry markedShelf.here).reverse = none := by decide +kernel
  have hread : Settings.readSource markedShelf Settings.defaultFile =
      .error (.notFound Settings.defaultFile) := by decide +kernel
  have hstat : markedShelf.stat exportInvocation.config = .error (.os .noEntry) := by
    decide +kernel
  rw [settingsFor, hstat, Settings.load_of_nothing hdotenv hread]
  rfl

theorem markedShelf_agrees :
    parse exportWords = .ok (.audit exportInvocation) ∧
      settingsOf markedShelf ⟨[]⟩ exportInvocation = .ok exportSettings ∧
      (run markedShelf ⟨[]⟩ .epoch exportWords).code = 0 ∧
      ∃ text json summary staleRepos items stale loaded,
        (run markedShelf ⟨[]⟩ .epoch exportWords).fs.Holds (.ofString "out/report.json")
          (Text.toBytes text) ∧
        text = json.pretty ∧ json.member? "valid_ids_loaded" = some (.ofNat loaded) ∧
        (items.length < 2 ^ 64 → loaded < 2 ^ 64 → Json.parse text = some json) ∧
        (run markedShelf ⟨[]⟩ .epoch exportWords).Agrees (.ofString "out/report.json") json summary
          staleRepos items stale := by
  have hparse : parse exportWords = .ok (.audit exportInvocation) := by decide +kernel
  have hmarker : withMarker Settings.default exportInvocation.marker = .ok exportSettings := by
    decide +kernel
  have hsettings : settingsOf markedShelf ⟨[]⟩ exportInvocation = .ok exportSettings := by
    rw [settingsOf, markedShelf_loaded]
    exact hmarker
  have haudits : Audits markedShelf ⟨[]⟩ .epoch exportWords exportInvocation exportSettings
      markedShelfReport := ⟨hparse, hsettings, _, markedShelf_audited⟩
  have hcode : (run markedShelf ⟨[]⟩ .epoch exportWords).code = 0 := by
    obtain ⟨written, hwritten⟩ := markedShelf_exports
    rw [(haudits.of_json rfl).2]
    exact congrArg (fun step => step.2.2.code) (exportTo_of_exports hwritten)
  exact ⟨hparse, hsettings, hcode, console_agrees_with_export hparse rfl hsettings rfl hcode⟩

end CommandLine
end SyncAudit
