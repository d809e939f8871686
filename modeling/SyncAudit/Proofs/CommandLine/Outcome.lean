import Mathlib.Data.Set.List
import SyncAudit.CommandLine.Run
import SyncAudit.FileSystem.Description
import SyncAudit.Proofs.Audit.Classification
import SyncAudit.Proofs.FileSystem.Writing

/-!
# What a run leaves behind

A run whose arguments, settings or audit fail shows nothing but log lines and leaves the file system
as it was. A run whose audit succeeds shows its findings in full; it touches the file system only
where a report is to be written, and its exit code tells whether that was done.
-/
namespace SyncAudit.CommandLine

open Settings (ForeignReaders)

variable {fs : FileSystem} {env : Environment} {now : Timestamp} {words : List Word}
  {invocation : Invocation} {config : Path}

/-! ## The stages of a run -/

/-- The settings that an invocation is carried out under. -/
def settingsOf [ForeignReaders] (fs : FileSystem) (env : Environment) (invocation : Invocation) :
    Except AuditError Settings := do
  withMarker (← (settingsFor fs env invocation.config).result) invocation.marker

/-- Why there are no settings: the named file is there and cannot be loaded, or the marker that is
given names nothing or starts at the top. -/
inductive Misconfigured [ForeignReaders] (fs : FileSystem) (env : Environment)
    (invocation : Invocation) : Prop
  | file {node : Node} {e : AuditError} : fs.stat invocation.config = .ok node →
      Settings.load fs env (some invocation.config) = .error e → Misconfigured fs env invocation
  | marker {loaded : Settings} {marker : Path} :
      (settingsFor fs env invocation.config).result = .ok loaded →
      invocation.marker = some marker →
      ¬ { loaded.audit with configMarker := marker }.Valid → Misconfigured fs env invocation

/-- The audit of an invocation under given settings. -/
def auditOf (fs : FileSystem) (now : Timestamp) (invocation : Invocation) (settings : Settings) :
    Run Audited :=
  audit fs settings.audit invocation.progressStyle now invocation.ids invocation.root

/-- A run fails before it has findings, with an exit code. -/
inductive Fails [ForeignReaders] (fs : FileSystem) (env : Environment) (now : Timestamp)
    (words : List Word) : Nat → Prop
  | usage {e : UsageError} : parse words = .error e → Fails fs env now words 2
  | settings {invocation : Invocation} : parse words = .ok (.audit invocation) →
      Misconfigured fs env invocation → Fails fs env now words 1
  | audit {invocation : Invocation} {settings : Settings} {e : AuditError} :
      parse words = .ok (.audit invocation) → settingsOf fs env invocation = .ok settings →
      (auditOf fs now invocation settings).result = .error e → Fails fs env now words 1

/-- A run comes to a report. -/
structure Audits [ForeignReaders] (fs : FileSystem) (env : Environment) (now : Timestamp)
    (words : List Word) (invocation : Invocation) (settings : Settings) (report : Report) :
    Prop where
  parsed : parse words = .ok (.audit invocation)
  settled : settingsOf fs env invocation = .ok settings
  audited : ∃ progress, (auditOf fs now invocation settings).result = .ok ⟨report, progress⟩

/-- A report is written: the directories above the file are made, and the text is put there. -/
inductive Exports (fs : FileSystem) (pretty : Bool) (report : Report) (output : Path) :
    FileSystem → Prop
  | mk {made written : FileSystem} {text : String} :
      Report.prepareOutput fs output = (made, .ok ()) → report.render pretty = .ok text →
      made.write output (Text.toBytes text) = .ok written → Exports fs pretty report output written

/-- The level of a log line as it is to be printed. -/
def levelTag (colored : Bool) : Level → String
  | .debug => if colored then "\x1b[34mDEBUG\x1b[0m" else "DEBUG"
  | .info => if colored then "\x1b[32m INFO\x1b[0m" else " INFO"
  | .warn => if colored then "\x1b[33m WARN\x1b[0m" else " WARN"

/-- A log line as it is to be printed: the time, the level and the message. -/
def logLine (style : Style) (clock : Clock) (level : Level) (message : String) : String :=
  (if style.color then "\x1b[2m" ++ clock.stamp ++ "\x1b[0m" else clock.stamp)
    ++ " " ++ levelTag style.color level ++ " " ++ message ++ "\n"

/-- Nothing is shown but log lines, and the file system is as it was. -/
structure Outcome.Untouched (fs : FileSystem) (outcome : Outcome) : Prop where
  fs_eq : outcome.fs = fs
  onlyEvents : ∀ shown ∈ outcome.shown, ∃ e, shown = .event e
  printed : ∃ log : List Event, ∀ clock, outcome.stdout clock = String.join (log.map fun e =>
    if e.level = .debug ∧ outcome.style.verbose = false then ""
    else logLine outcome.style clock e.level (defuse (e.message clock.elapsed)))

/-- The three totals as they are to be printed. -/
def totalsText (summary : Summary) : String :=
  s!"Total Valid: {summary.valid}\n" ++
    s!"Total Valid With Config: {summary.validWithConfig}\n" ++
    s!"Total Invalid: {summary.invalid}\n"

theorem withMarker_eq_error_iff {loaded : Settings} {marker : Option Path} :
    (∃ e, withMarker loaded marker = .error e) ↔
      ∃ p, marker = some p ∧ ¬ { loaded.audit with configMarker := p }.Valid := by
  cases marker with
  | none => simp [withMarker]
  | some p =>
    have hvalid := Settings.validate_eq_ok_iff
      { loaded with audit := { loaded.audit with configMarker := p } }
    simp only [withMarker, Option.some.injEq, exists_eq_left', ← hvalid]
    cases Settings.validate _ <;> simp

theorem settingsFor_eq_error_iff [ForeignReaders] :
    (∃ e, (settingsFor fs env config).result = .error e) ↔
      ∃ node e, fs.stat config = .ok node ∧ Settings.load fs env (some config) = .error e := by
  rw [settingsFor]
  cases hstat : fs.stat config with
  | ok node => simp
  | error e =>
    simp only [Run.log_bind_result]
    cases Settings.load fs env none <;> simp

/-- There are no settings in just these cases. -/
theorem settingsOf_eq_error_iff [ForeignReaders] :
    (∃ e, settingsOf fs env invocation = .error e) ↔ Misconfigured fs env invocation := by
  rw [settingsOf]
  constructor
  · rintro ⟨e, h⟩
    cases hloaded : (settingsFor fs env invocation.config).result with
    | error e' =>
      obtain ⟨node, e, hstat, hload⟩ := settingsFor_eq_error_iff.mp ⟨e', hloaded⟩
      exact .file hstat hload
    | ok loaded =>
      rw [hloaded] at h
      obtain ⟨p, hp, hinvalid⟩ := withMarker_eq_error_iff.mp ⟨e, h⟩
      exact .marker hloaded hp hinvalid
  · rintro (⟨hstat, hload⟩ | ⟨hloaded, hp, hinvalid⟩)
    · obtain ⟨e, he⟩ := settingsFor_eq_error_iff.mpr ⟨_, _, hstat, hload⟩
      exact ⟨e, by rw [he]; rfl⟩
    · obtain ⟨e, he⟩ := withMarker_eq_error_iff.mpr ⟨_, hp, hinvalid⟩
      exact ⟨e, by rw [hloaded]; exact he⟩

/-! ## Stages that fail -/

/-- The text of an event is its log line, unless it is a detail that was not asked for. -/
theorem eventText_eq (style : Style) (clock : Clock) (e : Event) :
    eventText style clock e =
      if e.level = .debug ∧ style.verbose = false then ""
      else logLine style clock e.level (defuse (e.message clock.elapsed)) := by
  have hlevel : style.paint (levelHue e.level) (levelText e.level) =
      (levelTag style.color e.level).toList := by
    rw [Style.paint]
    cases style.color <;> cases e.level <;> decide
  rw [eventText, hlevel]
  by_cases hdetail : e.level = .debug ∧ style.verbose = false
  · rw [if_pos (by simpa using hdetail), if_pos hdetail]
  · rw [if_neg (by simpa using hdetail), if_neg hdetail]
    apply String.toList_inj.mp
    cases hcolor : style.color <;>
      simp [logLine, hcolor, Style.paint, Terminal.select, Terminal.reset]

/-- A run that shows nothing but log lines prints nothing else. -/
theorem Outcome.untouched_of_onlyEvents {outcome : Outcome} (hfs : outcome.fs = fs)
    (h : ∀ shown ∈ outcome.shown, ∃ e, shown = .event e) : outcome.Untouched fs := by
  refine ⟨hfs, h, ?_⟩
  obtain ⟨log, hlog⟩ : outcome.shown ∈ Set.range (List.map Shown.event) := by
    rw [Set.range_list_map]
    intro shown hshown
    obtain ⟨e, he⟩ := h shown hshown
    exact ⟨e, he.symm⟩
  refine ⟨log, fun clock => ?_⟩
  rw [stdout, ← hlog, List.map_map]
  exact congrArg String.join (List.map_congr_left fun e _ => eventText_eq outcome.style clock e)

theorem onlyEvents_events {α : Type} (run : Run α) :
    ∀ shown ∈ events run, ∃ e, shown = .event e := by
  intro shown h
  obtain ⟨e, -, rfl⟩ := List.mem_map.mp h
  exact ⟨e, rfl⟩

/-- What is shown while the settings are loaded. -/
def opening [ForeignReaders] (fs : FileSystem) (env : Environment)
    (invocation : Invocation) : List Shown :=
  .event .started :: events (settingsFor fs env invocation.config)

theorem onlyEvents_opening [ForeignReaders] :
    ∀ shown ∈ opening fs env invocation, ∃ e, shown = .event e := by
  intro shown h
  rcases List.mem_cons.mp h with rfl | h
  · exact ⟨_, rfl⟩
  · exact onlyEvents_events _ shown h

theorem perform_of_settings_error [ForeignReaders] (now : Timestamp) {e : AuditError}
    (h : settingsOf fs env invocation = .error e) :
    ∃ stage, perform fs env now invocation =
      ⟨fs, invocation.style, opening fs env invocation, .failed stage e⟩ := by
  rw [settingsOf] at h
  rw [perform]
  cases hloaded : (settingsFor fs env invocation.config).result with
  | error e' =>
    rw [hloaded] at h
    obtain rfl : e' = e := Except.error.inj h
    exact ⟨.loading, rfl⟩
  | ok loaded =>
    rw [hloaded] at h
    have hmarker : withMarker loaded invocation.marker = .error e := h
    simp only [hmarker]
    exact ⟨.marker, rfl⟩

theorem perform_of_settings [ForeignReaders] {settings : Settings}
    (h : settingsOf fs env invocation = .ok settings) :
    perform fs env now invocation =
      auditWith fs now invocation settings (opening fs env invocation) := by
  rw [settingsOf] at h
  rw [perform]
  cases hloaded : (settingsFor fs env invocation.config).result with
  | error e => simp [hloaded, bind, Except.bind] at h
  | ok loaded =>
    rw [hloaded] at h
    have hmarker : withMarker loaded invocation.marker = .ok settings := h
    simp only [hmarker]
    rfl

theorem auditWith_of_error {settings : Settings} {before : List Shown} {e : AuditError}
    (h : (auditOf fs now invocation settings).result = .error e) :
    auditWith fs now invocation settings before =
      ⟨fs, invocation.style, before ++ events (auditOf fs now invocation settings),
        .failed .audit e⟩ := by
  rw [auditOf] at h ⊢
  rw [auditWith, h]

theorem Fails.ne_zero [ForeignReaders] {code : Nat}
    (h : Fails fs env now words code) : code ≠ 0 := by
  cases h <;> decide

/-- A run that fails before it has findings leaves nothing but log lines. -/
theorem Fails.untouched [ForeignReaders] {code : Nat} (h : Fails fs env now words code) :
    (run fs env now words).code = code ∧ (run fs env now words).Untouched fs := by
  cases h with
  | usage hparse =>
    rw [run, hparse]
    exact ⟨rfl, Outcome.untouched_of_onlyEvents rfl fun _ h => by simp at h⟩
  | settings hparse hmis =>
    obtain ⟨e, he⟩ := settingsOf_eq_error_iff.mpr hmis
    obtain ⟨stage, hperform⟩ := perform_of_settings_error now he
    rw [run, hparse]
    simp only [hperform]
    exact ⟨rfl, Outcome.untouched_of_onlyEvents rfl onlyEvents_opening⟩
  | audit hparse hsettings haudit =>
    rw [run, hparse]
    simp only [perform_of_settings hsettings, auditWith_of_error haudit]
    refine ⟨rfl, Outcome.untouched_of_onlyEvents rfl fun shown hshown => ?_⟩
    rcases List.mem_append.mp hshown with hshown | hshown
    · exact onlyEvents_opening shown hshown
    · exact onlyEvents_events _ shown hshown

/-! ## Runs that come to a report -/

/-- What follows the findings: nothing, or the step that writes the report. -/
def closing (fs : FileSystem) (options : ReportOptions) (report : Report) :
    Option Path → FileSystem × List Shown × Ending
  | none => (fs, [], .success)
  | some output => exportTo fs options.prettyJson report output

theorem Audits.run_eq [ForeignReaders] {settings : Settings} {report : Report}
    (h : Audits fs env now words invocation settings report) :
    run fs env now words =
      ⟨(closing fs settings.report report invocation.json).1, invocation.style,
        opening fs env invocation ++ events (auditOf fs now invocation settings)
          ++ findings settings.report report
          ++ (closing fs settings.report report invocation.json).2.1,
        (closing fs settings.report report invocation.json).2.2⟩ := by
  obtain ⟨progress, haudited⟩ := h.audited
  rw [auditOf] at haudited
  rw [run, h.parsed]
  simp only [perform_of_settings h.settled]
  rw [auditWith, haudited]
  cases invocation.json with
  | none => simp [closing, auditOf]
  | some output => rfl

/-- Where a report is to be written, the run ends as the step that writes it. -/
theorem Audits.of_json [ForeignReaders] {settings : Settings} {report : Report} {output : Path}
    (h : Audits fs env now words invocation settings report)
    (hjson : invocation.json = some output) :
    (run fs env now words).fs = (exportTo fs settings.report.prettyJson report output).1 ∧
      (run fs env now words).code =
        (exportTo fs settings.report.prettyJson report output).2.2.code := by
  rw [h.run_eq, hjson]
  exact ⟨rfl, rfl⟩

theorem text_totals (style : Style) (clock : Clock) (summary : Summary) :
    (Shown.totals summary).text style clock = "\n\n\n" ++ totalsText summary := by
  simp only [Shown.text, lineTexts, Summary.lines, totalsText, List.map_cons, List.map_nil,
    String.join_cons, String.join_nil, String.append_assoc, String.append_empty]
  rfl

/-- There is nothing to prepare for an output file, or it is the directory above it. -/
theorem prepareOutput_cases (output : Path) :
    (∀ fs, Report.prepareOutput fs output = (fs, .ok ())) ∨
      ∃ parent, output.parent? = some parent ∧ parent.isEmpty = false ∧
        ∀ fs, Report.prepareOutput fs output = ((fs.makeDirectories parent).1,
          (fs.makeDirectories parent).2.mapError (.fileOperation parent)) := by
  cases hparent : output.parent? with
  | none => exact .inl fun fs => by rw [Report.prepareOutput, hparent]
  | some parent =>
    cases hempty : parent.isEmpty with
    | true => exact .inl fun fs => by simp [Report.prepareOutput, hparent, hempty]
    | false =>
      exact .inr ⟨parent, rfl, hempty, fun fs => by simp [Report.prepareOutput, hparent, hempty]⟩

theorem fileOperation_of_prepareOutput {output : Path} {made : FileSystem} {e : AuditError}
    (h : Report.prepareOutput fs output = (made, .error e)) :
    ∃ p cause, e = .fileOperation p cause := by
  rcases prepareOutput_cases output with hnothing | ⟨parent, -, -, hprepare⟩
  · simp [hnothing] at h
  · rw [hprepare] at h
    obtain ⟨-, herror⟩ := Prod.mk.inj h
    cases hmade : (fs.makeDirectories parent).2 with
    | ok => simp [hmade, Except.mapError] at herror
    | error cause =>
      rw [hmade] at herror
      exact ⟨parent, cause, (Except.error.inj herror).symm⟩

theorem serialization_of_render {pretty : Bool} {report : Report} {e : AuditError}
    (h : report.render pretty = .error e) : ∃ cause, e = .serialization cause := by
  unfold Report.render at h
  split at h
  case h_1 => simp at h
  case h_2 cause _ => exact ⟨cause, (Except.error.inj h).symm⟩

/-- The step that writes a report ends well just where the report is written, and leaves the file
system with it. -/
theorem exportTo_of_exports {pretty : Bool} {report : Report} {output : Path}
    {written : FileSystem} (h : Exports fs pretty report output written) :
    exportTo fs pretty report output =
      (written, [.event (.writingReport output),
        .event (.exportComplete report.total report.summary.invalid), .written output],
        .success) := by
  obtain ⟨hmade, htext, hwritten⟩ := h
  simp [exportTo, hmade, Report.writeTo, htext, hwritten, events]

/-- The step that writes a report does so, or it fails with no more than the directories made. -/
theorem exports_or_fails (fs : FileSystem) (pretty : Bool) (report : Report) (output : Path) :
    (∃ written, Exports fs pretty report output written) ∨
      ∃ stage e, (exportTo fs pretty report output).1 = (Report.prepareOutput fs output).1 ∧
        (exportTo fs pretty report output).2.2 = .failed stage e ∧
        (e.kind = .serialization ∨ ∃ p, e.kind = .fileOperation p) := by
  cases hprepare : Report.prepareOutput fs output with
  | mk made prepared =>
    cases prepared with
    | error e =>
      have hout : exportTo fs pretty report output = (made, [], .failed .preparing e) := by
        simp [exportTo, hprepare]
      obtain ⟨p, cause, rfl⟩ := fileOperation_of_prepareOutput hprepare
      exact .inr ⟨_, _, by rw [hout], by rw [hout], .inr ⟨p, rfl⟩⟩
    | ok =>
      have hfails : ∀ {e},
          report.writeTo made pretty output = (made, ⟨[.writingReport output], .error e⟩) →
            exportTo fs pretty report output =
              (made, [.event (.writingReport output)], .failed .writing e) := by
        intro e hwrite
        simp [exportTo, hprepare, hwrite, events]
      cases htext : report.render pretty with
      | error e =>
        have hout := hfails (by rw [Report.writeTo, htext])
        obtain ⟨cause, rfl⟩ := serialization_of_render htext
        exact .inr ⟨_, _, by rw [hout], by rw [hout], .inl rfl⟩
      | ok text =>
        cases hwrite : made.write output (Text.toBytes text) with
        | ok written => exact .inl ⟨written, hprepare, htext, hwrite⟩
        | error cause =>
          have hout := hfails (e := .fileOperation output cause)
            (by simp only [Report.writeTo, htext, hwrite])
          exact .inr ⟨_, _, by rw [hout], by rw [hout], .inr ⟨output, rfl⟩⟩

theorem exports_of_code {pretty : Bool} {report : Report} {output : Path}
    (h : (exportTo fs pretty report output).2.2.code = 0) :
    ∃ written, Exports fs pretty report output written := by
  rcases exports_or_fails fs pretty report output with hexports | ⟨stage, e, -, hfailed, -⟩
  · exact hexports
  · simp [hfailed, Ending.code] at h

theorem Exports.holds {pretty : Bool} {report : Report} {output : Path} {written : FileSystem}
    (h : Exports fs pretty report output written) :
    ∃ text, report.render pretty = .ok text ∧ written.Holds output (Text.toBytes text) := by
  obtain ⟨-, htext, hwritten⟩ := h
  exact ⟨_, htext, FileSystem.holds_of_write hwritten⟩

/-! ## The whole -/

/-- A run either fails or comes to a report, unless it was asked for something else. -/
theorem fails_or_audits [ForeignReaders] (hhelp : parse words ≠ .ok .help)
    (hversion : parse words ≠ .ok .version) :
    (∃ code, Fails fs env now words code) ∨
      ∃ invocation settings report, Audits fs env now words invocation settings report := by
  cases hparse : parse words with
  | error e => exact .inl ⟨2, .usage hparse⟩
  | ok request =>
    cases request with
    | help => contradiction
    | version => contradiction
    | audit invocation =>
      cases hsettings : settingsOf fs env invocation with
      | error e => exact .inl ⟨1, .settings hparse (settingsOf_eq_error_iff.mp ⟨e, hsettings⟩)⟩
      | ok settings =>
        cases haudit : (auditOf fs now invocation settings).result with
        | error e => exact .inl ⟨1, .audit hparse hsettings haudit⟩
        | ok audited => exact .inr ⟨_, _, audited.report, hparse, hsettings, _, haudit⟩

theorem Audits.invocation_eq [ForeignReaders] {other : Invocation} {settings : Settings}
    {report : Report} (h : Audits fs env now words other settings report)
    (hparse : parse words = .ok (.audit invocation)) : other = invocation := by
  simpa using h.parsed.symm.trans hparse

/-- A run that was asked for an audit and ends well has come to a report. -/
theorem audits_of_code [ForeignReaders] (hparse : parse words = .ok (.audit invocation))
    (hcode : (run fs env now words).code = 0) :
    ∃ settings report, Audits fs env now words invocation settings report := by
  have hhelp : parse words ≠ .ok .help := by simp [hparse]
  have hversion : parse words ≠ .ok .version := by simp [hparse]
  have hdecided : (∃ code, Fails fs env now words code) ∨
      ∃ invocation settings report, Audits fs env now words invocation settings report :=
    fails_or_audits hhelp hversion
  rcases hdecided with ⟨code, hfails⟩ | ⟨other, settings, report, haudits⟩
  · exact absurd (hfails.untouched.1.symm.trans hcode) hfails.ne_zero
  · obtain rfl := haudits.invocation_eq hparse
    exact ⟨settings, report, haudits⟩

/-- A report that is to be written below a directory yet to be made. -/
def exportWords : List Word :=
  ["ids", "sync", "--marker", "on", "--json", "out/report.json"].map Text.toBytes

def exportInvocation : Invocation where
  ids := .ofString "ids"
  root := .ofString "sync"
  config := defaultConfig
  color := true
  verbose := false
  json := some (.ofString "out/report.json")
  progress := false
  marker := some (.ofString "on")

end SyncAudit.CommandLine
