import SyncAudit.CommandLine.Arguments
import SyncAudit.Event
import SyncAudit.Report.Basic
import SyncAudit.Terminal

/-!
# What a run shows

A run shows log lines while it works and its findings at the end. A log line has the time, the
level and the message, in which characters that steer terminals are written as escapes; findings
show paths as they are. How a run ends decides its exit code and what it says about a failure.
-/
namespace SyncAudit.CommandLine

/-- One thing that a run shows. -/
inductive Shown where
  | event (e : Event)
  | totals (summary : Summary)
  | noStale
  | stale (paths : List Path)
  | written (output : Path)
  | help
  | version
  deriving DecidableEq, Repr

/-- The step that an error stopped. -/
inductive Stage where
  | loading
  | marker
  | audit
  | preparing
  | writing
  deriving DecidableEq, Repr

def Stage.text : Stage → String
  | .loading => "Failed to load configuration"
  | .marker => "Invalid --marker"
  | .audit => "Audit failed"
  | .preparing => "Failed to prepare JSON export"
  | .writing => "Failed to write JSON report"

inductive Ending where
  | success
  | failed (stage : Stage) (e : AuditError)
  | misused (e : UsageError)
  deriving DecidableEq, Repr

def Ending.code : Ending → Nat
  | .success => 0
  | .failed _ _ => 1
  | .misused _ => 2

/-! ## Log lines -/

/-- Whether a character steers a terminal: the controls that do not only move on within the text,
and those above ASCII. -/
def isSteering (c : Char) : Bool :=
  c = '\x1b' || c = '\x07' || c = '\x08' || c = '\x0c' || c = '\x7f'
    || (0x80 ≤ c.toNat && c.toNat ≤ 0x9F)

/-- The escape of a character: two hexadecimal digits, or the code point in braces above ASCII. -/
def steeringEscape (c : Char) : List Char :=
  let digits := Nat.toDigits 16 c.toNat
  if c.toNat < 0x80 then ['\\', 'x'] ++ List.replicate (2 - digits.length) '0' ++ digits
  else ['\\', 'u', '\x7b'] ++ digits ++ ['\x7d']

def defuse (s : String) : String :=
  String.ofList (s.toList.flatMap fun c => if isSteering c then steeringEscape c else [c])

def levelHue : Level → List Char
  | .debug => ['3', '4']
  | .info => ['3', '2']
  | .warn => ['3', '3']

/-- A level's name with blanks in front, five characters wide. -/
def levelText (level : Level) : List Char :=
  let name := level.name.toList
  List.replicate (5 - name.length) ' ' ++ name

/-- What is known about time: when a line is logged, and how long an audit took. -/
structure Clock where
  stamp : String
  elapsed : String
  deriving DecidableEq, Repr

/-- How a run shows things. -/
structure Style where
  color : Bool
  verbose : Bool
  deriving DecidableEq, Repr

def Style.plain : Style :=
  ⟨false, false⟩

def Style.paint (style : Style) (hue text : List Char) : List Char :=
  if style.color then Terminal.select hue ++ text ++ Terminal.reset else text

/-- The line of an event. Details are shown only on demand. -/
def eventText (style : Style) (clock : Clock) (e : Event) : String :=
  if e.level = .debug ∧ !style.verbose then ""
  else
    String.ofList (style.paint ['2'] clock.stamp.toList ++ ' ' ::
      style.paint (levelHue e.level) (levelText e.level) ++ ' ' ::
      (defuse (e.message clock.elapsed)).toList ++ ['\n'])

/-! ## Findings -/

def versionText : String :=
  "repo_audit 0.1.0\n"

def helpText : String :=
  "Report which repos under a sync directory are valid, configured, or stale\n\n" ++
  "Usage: repo_audit [OPTIONS] <REPO_IDS> <SYNC_DIR>\n\n" ++
  "Arguments:\n" ++
  "  <REPO_IDS>  Text file with one valid namespace/repo id per line\n" ++
  "  <SYNC_DIR>  Sync root containing namespace/repo directories\n\n" ++
  "Options:\n" ++
  "  -c, --config <FILE>  [default: config/default.toml]\n" ++
  "      --color <COLOR>  [default: true] [possible values: true, false]\n" ++
  "  -v, --verbose        \n" ++
  "      --json <FILE>    Write the full report as JSON\n" ++
  "      --progress       Show a progress bar with running counts\n" ++
  "      --marker <PATH>  Override the config marker path checked inside each valid repo\n" ++
  "  -h, --help           Print help\n" ++
  "  -V, --version        Print version\n"

/-- Lines with a line break behind each. -/
def lineTexts (lines : List String) : String :=
  String.join (lines.map (· ++ "\n"))

def Shown.text (style : Style) (clock : Clock) : Shown → String
  | .event e => eventText style clock e
  | .totals summary => "\n\n\n" ++ lineTexts summary.lines
  | .noStale => "\n" ++ Terminal.Notice.success.line style.color "No stale repos found" ++ "\n"
  | .stale paths =>
    "\n" ++ Terminal.Notice.warning.line style.color "Stale repos:" ++ "\n"
      ++ lineTexts (paths.map fun p => "  " ++ p.display)
  | .written output =>
    Terminal.Notice.info.line style.color s!"Report written to {output.display}" ++ "\n"
  | .help => helpText
  | .version => versionText

/-! ## Failures -/

/-- The messages of the errors beneath a failure, each caused by the next. -/
def causes : AuditError → List String
  | .fileOperation path e => [(AuditError.fileOperation path e).message, e.message]
  | .io e => [(AuditError.io e).message, e.message]
  | .walk e =>
    match e with
    | .io _ cause | .unopened cause =>
      [(AuditError.walk e).message, e.message, cause.message]
    | .loop _ _ => [(AuditError.walk e).message, e.message]
  | e => [e.message]

/-- A message with every line but the first moved in. -/
def indentRest (width : Nat) (message : String) : String :=
  String.ofList (message.toList.flatMap fun c =>
    if c = '\n' then '\n' :: List.replicate width ' ' else [c])

/-- The messages with their numbers, each on a line of its own. -/
def numbered : Nat → List String → String
  | _, [] => ""
  | n, message :: rest =>
    let number := toString n
    let lead := String.ofList (List.replicate (5 - number.length) ' ') ++ number ++ ": "
    "\n" ++ lead ++ indentRest 7 message ++ numbered (n + 1) rest

def causesText : List String → String
  | [message] => "\n    " ++ indentRest 4 message
  | messages => numbered 0 messages

/-- What a run says about its ending, apart from what it shows. -/
def Ending.text : Ending → String
  | .success => ""
  | .failed stage e => s!"Error: {stage.text}\n\nCaused by:{causesText (causes e)}\n"
  | .misused e => s!"{e.message}\n\nFor more information, try '--help'.\n"

/-- All that a run leaves behind. -/
structure Outcome where
  fs : FileSystem
  style : Style
  shown : List Shown
  ending : Ending

namespace Outcome

def stdout (clock : Clock) (outcome : Outcome) : String :=
  String.join (outcome.shown.map (Shown.text outcome.style clock))

def stderr (outcome : Outcome) : String :=
  outcome.ending.text

def code (outcome : Outcome) : Nat :=
  outcome.ending.code

end Outcome
end SyncAudit.CommandLine
