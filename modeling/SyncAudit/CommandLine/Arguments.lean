import SyncAudit.Path

/-!
# Arguments

Two arguments are due, the list of ids and the root; options may stand before, between and behind
them. An option's value is the next argument, or what follows an equals sign, or, behind the
single letter of an option, the rest of the argument. Behind a lone `--` nothing is an option.

Arguments are taken up one by one, and the first fault decides. A value counts as taken up when
the next argument is, so a fault of its own shows after those of the form of the argument behind
it.
-/
namespace SyncAudit.CommandLine

/-- An argument: bytes, not text. -/
abbrev Word := List UInt8

/-- What a value is for. -/
inductive Slot where
  | ids
  | root
  | config
  | color
  | json
  | marker
  deriving DecidableEq, Repr

/-- Options without a value. -/
inductive Flag where
  | verbose
  | progress
  | help
  | version
  deriving DecidableEq, Repr

inductive UsageError where
  | missing (slots : List Slot)
  | unexpected (text : String)
  | valueRequired (slot : Slot)
  | invalidValue (slot : Slot) (text : String)
  | unexpectedValue (flag : Flag) (text : String)
  | repeatedValue (slot : Slot)
  | repeatedFlag (flag : Flag)
  deriving DecidableEq, Repr

def Slot.usage : Slot → String
  | .ids => "<REPO_IDS>"
  | .root => "<SYNC_DIR>"
  | .config => "--config <FILE>"
  | .color => "--color <COLOR>"
  | .json => "--json <FILE>"
  | .marker => "--marker <PATH>"

/-- The values that a slot is limited to, as a line behind an error. -/
def Slot.choices : Slot → String
  | .color => "\n  [possible values: true, false]"
  | _ => ""

def Flag.usage : Flag → String
  | .verbose => "--verbose"
  | .progress => "--progress"
  | .help => "--help"
  | .version => "--version"

def UsageError.message : UsageError → String
  | .missing slots =>
    let lines := slots.map fun slot => "\n  " ++ slot.usage
    s!"error: the following required arguments were not provided:{String.join lines}"
  | .unexpected text => s!"error: unexpected argument '{text}' found"
  | .valueRequired slot =>
    s!"error: a value is required for '{slot.usage}' but none was supplied{slot.choices}"
  | .invalidValue slot text =>
    s!"error: invalid value '{text}' for '{slot.usage}'{slot.choices}"
  | .unexpectedValue flag text =>
    s!"error: unexpected value '{text}' for '{flag.usage}' found; no more were expected"
  | .repeatedValue slot => s!"error: the argument '{slot.usage}' cannot be used multiple times"
  | .repeatedFlag flag => s!"error: the argument '{flag.usage}' cannot be used multiple times"

/-- What the arguments ask for when they ask for an audit. -/
structure Invocation where
  ids : Path
  root : Path
  config : Path
  color : Bool
  verbose : Bool
  json : Option Path
  progress : Bool
  marker : Option Path
  deriving DecidableEq, Repr

inductive Request where
  | audit (invocation : Invocation)
  | help
  | version
  deriving DecidableEq, Repr

/-! ## Taking up values -/

/-- What has been taken up so far. -/
structure Draft where
  values : List (Slot × Path)
  color : Option Bool
  flags : List Flag
  deriving DecidableEq, Repr

/-- Why no further argument is taken up. -/
inductive Stop where
  | usage (e : UsageError)
  | answer (request : Request)
  deriving DecidableEq, Repr

def refuse {α : Type} (e : UsageError) : Except Stop α :=
  .error (.usage e)

def Draft.empty : Draft :=
  ⟨[], none, []⟩

def Draft.value? (draft : Draft) (slot : Slot) : Option Path :=
  draft.values.lookup slot

/-- Whether a slot has its value. -/
def Draft.holds (draft : Draft) : Slot → Bool
  | .color => draft.color.isSome
  | slot => (draft.value? slot).isSome

def trueWord : Word := Text.toBytes "true"

def falseWord : Word := Text.toBytes "false"

/-- The draft with one more value. -/
def Draft.assign (draft : Draft) (slot : Slot) (word : Word) : Except Stop Draft :=
  if draft.holds slot then refuse (.repeatedValue slot)
  else if word.isEmpty then refuse (.valueRequired slot)
  else if slot = .color then
    if word = trueWord then .ok { draft with color := some true }
    else if word = falseWord then .ok { draft with color := some false }
    else refuse (.invalidValue slot (Text.ofBytesLossy word))
  else .ok { draft with values := draft.values ++ [(slot, ⟨word⟩)] }

/-- The draft with one more flag. Help and version are answered at once. -/
def Draft.raiseFlag (draft : Draft) : Flag → Except Stop Draft
  | .help => .error (.answer .help)
  | .version => .error (.answer .version)
  | flag =>
    if flag ∈ draft.flags then refuse (.repeatedFlag flag)
    else .ok { draft with flags := draft.flags ++ [flag] }

/-- How far the arguments have been read. -/
structure Progress where
  draft : Draft
  /-- A slot that is still to be taken up, and its value if that has been read. -/
  pending : Option (Slot × Option Word)
  /-- The slots of the arguments that are no options. -/
  due : List Slot
  /-- Whether options are over. -/
  optionsOver : Bool
  deriving DecidableEq, Repr

namespace Progress

def start : Progress :=
  ⟨.empty, none, [.ids, .root], false⟩

/-- The draft after the pending slot has been taken up. -/
def settled (p : Progress) : Except Stop Draft :=
  match p.pending with
  | none => .ok p.draft
  | some (slot, none) => refuse (.valueRequired slot)
  | some (slot, some word) => p.draft.assign slot word

/-- Reads a value that came with its option. -/
def attach (p : Progress) (slot : Slot) (word : Word) : Except Stop Progress := do
  let draft ← (← p.settled).assign slot word
  .ok { p with draft := draft, pending := none }

/-- Reads an option whose value is the next argument. -/
def await (p : Progress) (slot : Slot) : Except Stop Progress := do
  let draft ← p.settled
  .ok { p with draft := draft, pending := some (slot, none) }

def flag (p : Progress) (flag : Flag) : Except Stop Progress := do
  let draft ← (← p.settled).raiseFlag flag
  .ok { p with draft := draft, pending := none }

/-- Reads an argument that is no option. -/
def plain (p : Progress) (word : Word) : Except Stop Progress :=
  match p.due with
  | [] => refuse (.unexpected (Text.ofBytesLossy word))
  | slot :: due => do
    let draft ← p.settled
    .ok { p with draft := draft, pending := some (slot, some word), due := due }

end Progress

/-! ## Options -/

def dash : UInt8 := 0x2D

def equalsSign : UInt8 := 0x3D

/-- An option, with a value or without one. -/
inductive Switch where
  | valued (slot : Slot)
  | flag (flag : Flag)
  deriving DecidableEq, Repr

def longNames : List (String × Switch) :=
  [("config", .valued .config), ("color", .valued .color), ("json", .valued .json),
    ("marker", .valued .marker), ("verbose", .flag .verbose), ("progress", .flag .progress),
    ("help", .flag .help), ("version", .flag .version)]

def longSwitch? (name : Word) : Option Switch :=
  match Text.ofBytes? name with
  | some s => longNames.lookup s
  | none => none

def shortSwitch? (letter : UInt8) : Option Switch :=
  if letter = 0x63 then some (.valued .config)
  else if letter = 0x76 then some (.flag .verbose)
  else if letter = 0x68 then some (.flag .help)
  else if letter = 0x56 then some (.flag .version)
  else none

/-- The name of a long option and the value behind an equals sign. -/
def splitEquals (word : Word) : Word × Option Word :=
  match word.dropWhile (· ≠ equalsSign) with
  | [] => (word, none)
  | _ :: value => (word.takeWhile (· ≠ equalsSign), some value)

/-- Reads a long option behind its two dashes. -/
def readLong (p : Progress) (word : Word) : Except Stop Progress :=
  let (name, value?) := splitEquals word
  match longSwitch? name, value? with
  | none, _ => refuse (.unexpected ("--" ++ Text.ofBytesLossy name))
  | some (.valued slot), some value => p.attach slot value
  | some (.valued slot), none => p.await slot
  | some (.flag flag), some value => refuse (.unexpectedValue flag (Text.ofBytesLossy value))
  | some (.flag flag), none => p.flag flag

/-- The text of the first letter of an argument, or of all of it if it does not start with a
valid one. -/
def firstLetter (word : Word) : String :=
  match Text.Utf8.pieces word with
  | some c :: _ => c.toString
  | _ => Text.ofBytesLossy word

/-- Reads the letters behind a single dash. The first one that takes a value takes the rest. -/
def readShort (p : Progress) : Word → Except Stop Progress
  | [] => .ok p
  | letter :: rest =>
    match shortSwitch? letter with
    | none => refuse (.unexpected ("-" ++ firstLetter (letter :: rest)))
    | some (.flag flag) => do readShort (← p.flag flag) rest
    | some (.valued slot) =>
      match rest with
      | [] => p.await slot
      | b :: value => p.attach slot (if b = equalsSign then value else b :: value)

/-- Reads an argument that does not have the form of an option: the value of the option before it
if that is still due. -/
def readValue (p : Progress) (word : Word) : Except Stop Progress :=
  match p.pending with
  | some (slot, none) => .ok { p with pending := some (slot, some word) }
  | _ => p.plain word

/-- Reads one argument. -/
def readWord (p : Progress) (word : Word) : Except Stop Progress :=
  if p.optionsOver then p.plain word
  else
    match word with
    | a :: b :: rest =>
      if a = dash ∧ b = dash then
        if rest.isEmpty then .ok { p with optionsOver := true } else readLong p rest
      else if a = dash then readShort p (b :: rest)
      else readValue p word
    | _ => readValue p word

/-! ## The whole -/

def defaultConfig : Path :=
  .ofString "config/default.toml"

/-- The invocation that a complete draft describes. -/
def Draft.finish (draft : Draft) : Except Stop Request :=
  match draft.value? .ids, draft.value? .root with
  | some ids, some root =>
    .ok (.audit
      { ids := ids
        root := root
        config := (draft.value? .config).getD defaultConfig
        color := draft.color.getD true
        verbose := decide (Flag.verbose ∈ draft.flags)
        json := draft.value? .json
        progress := decide (Flag.progress ∈ draft.flags)
        marker := draft.value? .marker })
  | _, _ => refuse (.missing ([Slot.ids, Slot.root].filter fun slot => !draft.holds slot))

def readAll (words : List Word) : Except Stop Request := do
  let p ← words.foldlM readWord Progress.start
  (← p.settled).finish

/-- What a list of arguments asks for. -/
def parse (words : List Word) : Except UsageError Request :=
  match readAll words with
  | .ok request => .ok request
  | .error (.answer request) => .ok request
  | .error (.usage e) => .error e

end SyncAudit.CommandLine
