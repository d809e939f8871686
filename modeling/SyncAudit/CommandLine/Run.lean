import SyncAudit.Audit
import SyncAudit.CommandLine.Transcript
import SyncAudit.Report.Export
import SyncAudit.Settings.Load

/-!
# Runs from the command line

A run loads its settings, audits, shows the report and, where asked, writes it to a file. The
file system is touched by the last step alone, and the findings are shown only after the audit
has succeeded.
-/
namespace SyncAudit.CommandLine

variable [Settings.ForeignReaders]

/-- The settings of a run. A file that leads nowhere is passed over with a warning; what is loaded
in its stead is replaced by the defaults if it has errors. -/
def settingsFor (fs : FileSystem) (env : Environment) (config : Path) : Run Settings :=
  match fs.stat config with
  | .ok _ => do
    Run.log (.loadingSettings config)
    Run.ofExcept (Settings.load fs env (some config))
  | .error _ => do
    Run.log (.settingsFileMissing config)
    match Settings.load fs env none with
    | .ok settings => pure settings
    | .error e =>
      Run.log (.fallingBack e)
      pure .default

/-- The settings with another marker, if one is given. -/
def withMarker (settings : Settings) : Option Path → Except AuditError Settings
  | none => .ok settings
  | some marker =>
    let settings := { settings with audit := { settings.audit with configMarker := marker } }
    match settings.validate with
    | .ok () => .ok settings
    | .error e => .error (.config e)

def events {α : Type} (run : Run α) : List Shown :=
  run.events.map .event

/-- What is shown of a report. -/
def findings (options : ReportOptions) (report : Report) : List Shown :=
  .totals report.summary ::
    (if !options.listStale then []
    else if report.summary.invalid = 0 then [.noStale]
    else [.stale (report.stale.map RepoEntry.path)])

/-- The file system and what is shown after the step that writes the report. -/
def exportTo (fs : FileSystem) (pretty : Bool) (report : Report) (output : Path) :
    FileSystem × List Shown × Ending :=
  match Report.prepareOutput fs output with
  | (fs, .error e) => (fs, [], .failed .preparing e)
  | (fs, .ok ()) =>
    let (fs, run) := report.writeTo fs pretty output
    match run.result with
    | .error e => (fs, events run, .failed .writing e)
    | .ok () => (fs, events run ++ [.written output], .success)

def Invocation.progressStyle (invocation : Invocation) : ProgressStyle :=
  if !invocation.progress then .hidden else if invocation.color then .colored else .plain

def Invocation.style (invocation : Invocation) : Style :=
  ⟨invocation.color, invocation.verbose⟩

/-- The run of an audit under given settings, after what has been shown before. -/
def auditWith (fs : FileSystem) (now : Timestamp) (invocation : Invocation) (settings : Settings)
    (before : List Shown) : Outcome :=
  let run := audit fs settings.audit invocation.progressStyle now invocation.ids invocation.root
  let shown := before ++ events run
  match run.result with
  | .error e => ⟨fs, invocation.style, shown, .failed .audit e⟩
  | .ok audited =>
    let shown := shown ++ findings settings.report audited.report
    match invocation.json with
    | none => ⟨fs, invocation.style, shown, .success⟩
    | some output =>
      let (fs, more, ending) := exportTo fs settings.report.prettyJson audited.report output
      ⟨fs, invocation.style, shown ++ more, ending⟩

/-- The run of an audit. -/
def perform (fs : FileSystem) (env : Environment) (now : Timestamp) (invocation : Invocation) :
    Outcome :=
  let loading := settingsFor fs env invocation.config
  let shown := .event .started :: events loading
  match loading.result with
  | .error e => ⟨fs, invocation.style, shown, .failed .loading e⟩
  | .ok settings =>
    match withMarker settings invocation.marker with
    | .error e => ⟨fs, invocation.style, shown, .failed .marker e⟩
    | .ok settings => auditWith fs now invocation settings shown

/-- The run that a list of arguments asks for. -/
def run (fs : FileSystem) (env : Environment) (now : Timestamp) (words : List Word) : Outcome :=
  match parse words with
  | .error e => ⟨fs, .plain, [], .misused e⟩
  | .ok .help => ⟨fs, .plain, [.help], .success⟩
  | .ok .version => ⟨fs, .plain, [.version], .success⟩
  | .ok (.audit invocation) => perform fs env now invocation

end SyncAudit.CommandLine
