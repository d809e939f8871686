import SyncAudit.Timestamp.Basic
import SyncAudit.Text.Blank

/-!
# Reading moments

The reader follows the calendar form of internet timestamps and is lenient about it: numbers may
be short, white space may stand before numbers and before separators, a blank may part date and
time, and the offset needs no colon. The result is the same moment in UTC.
-/
namespace SyncAudit.Timestamp

/-- Why a text is not a moment. -/
inductive ReadError where
  | tooShort
  | outOfRange
  | invalid
  | tooLong
  | impossible
  deriving DecidableEq, Repr

def ReadError.message : ReadError → String
  | .tooShort => "premature end of input"
  | .outOfRange => "input is out of range"
  | .invalid => "input contains invalid characters"
  | .tooLong => "trailing input"
  | .impossible => "no possible date and time matching input"

open Text (isBlank)

def skipBlank (cs : List Char) : List Char :=
  cs.dropWhile isBlank

/-- The bound past which a number is out of range, whatever it is read for. -/
def maxNumber : Nat := 0x7FFFFFFFFFFFFFFF

/-- A number of at least one digit at the front of a text, of which at most `width` are read. -/
def readNumber (width : Nat) (cs : List Char) : Except ReadError (Nat × List Char) :=
  match cs with
  | [] => .error .tooShort
  | _ =>
    let digits := (cs.take width).takeWhile isDigit
    if digits.isEmpty then .error .invalid
    else if maxNumber < ofDigits 10 digits then .error .outOfRange
    else .ok (ofDigits 10 digits, cs.drop digits.length)

/-- A number in the given bounds, with white space before it. -/
def readField (width low high : Nat) (cs : List Char) : Except ReadError (Nat × List Char) := do
  let (n, rest) ← readNumber width (skipBlank cs)
  if low ≤ n ∧ n ≤ high then .ok (n, rest) else .error .outOfRange

/-- A separator, with white space before it. -/
def readSeparator (c : Char) (cs : List Char) : Except ReadError (List Char) :=
  match skipBlank cs with
  | [] => .error .tooShort
  | d :: rest => if d = c then .ok rest else .error .invalid

/-- A year: four digits at most, or a sign and any number of digits. -/
def readYear (cs : List Char) : Except ReadError (Int × List Char) := do
  let cs := skipBlank cs
  let (year, rest) ← match cs with
    | '-' :: rest => (readNumber rest.length rest).map fun (n, rest) => (-(n : Int), rest)
    | '+' :: rest => (readNumber rest.length rest).map fun (n, rest) => ((n : Int), rest)
    | _ => (readNumber 4 cs).map fun (n, rest) => ((n : Int), rest)
  if -2147483648 ≤ year ∧ year ≤ 2147483647 then .ok (year, rest) else .error .outOfRange

def readDate (cs : List Char) : Except ReadError (Date × List Char) := do
  let (year, cs) ← readYear cs
  let cs ← readSeparator '-' cs
  let (month, cs) ← readField 2 1 12 cs
  let cs ← readSeparator '-' cs
  let (day, cs) ← readField 2 1 31 cs
  .ok (⟨year, month, day⟩, cs)

/-- The nanoseconds of a fraction, if there is one. Digits past the ninth are dropped. -/
def readFraction (cs : List Char) : Except ReadError (Nat × List Char) :=
  match cs with
  | '.' :: rest => do
    let (n, after) ← readNumber 9 rest
    let count := rest.length - after.length
    .ok (n * Nat.pow 10 (9 - count), after.dropWhile isDigit)
  | _ => .ok (0, cs)

def readTime (cs : List Char) : Except ReadError (TimeOfDay × List Char) := do
  let (hour, cs) ← readField 2 0 23 cs
  let cs ← readSeparator ':' cs
  let (minute, cs) ← readField 2 0 59 cs
  let cs ← readSeparator ':' cs
  let (second, cs) ← readField 2 0 60 cs
  let (nano, cs) ← readFraction cs
  .ok (⟨hour, minute, second, nano⟩, cs)

/-- The number of bytes that a text has in UTF-8. -/
def byteLength (cs : List Char) : Nat :=
  cs.foldr (fun c n => c.utf8Size + n) 0

/-- Two digits at the front of a text of at least two bytes. -/
def readPair (cs : List Char) : Except ReadError (Nat × List Char) :=
  if byteLength cs < 2 then .error .tooShort
  else
    match cs with
    | a :: b :: rest =>
      if isDigit a ∧ isDigit b then .ok (ofDigits 10 [a, b], rest) else .error .invalid
    | _ => .error .invalid

/-- The minutes by which the offset is ahead of UTC: `Z`, the name of UTC, or a sign, hours and
minutes with colons and white space between them. -/
def readOffset (cs : List Char) : Except ReadError (Int × List Char) :=
  match cs with
  | [] => .error .tooShort
  | c :: rest =>
    if (cs.take 3).map Char.toUpper = ['U', 'T', 'C'] then .ok (0, cs.drop 3)
    else if c = 'Z' ∨ c = 'z' then .ok (0, rest)
    else if c = '+' ∨ c = '-' ∨ c = '\u2212' then do
      let (hours, rest) ← readPair rest
      let (minutes, rest) ← readPair (rest.dropWhile fun d => d = ':' || isBlank d)
      if 60 ≤ minutes then .error .outOfRange
      let offset : Int := hours * 60 + minutes
      .ok (if c = '+' then offset else -offset, rest)
    else .error .invalid

/-- The moment in UTC at which clocks ahead by `offset` minutes show a date and time. -/
def ofLocal (date : Date) (time : TimeOfDay) (offset : Int) : Except ReadError Timestamp :=
  if ¬ date.Valid ∨ ¬ time.Valid ∨ offset ≤ -1440 ∨ 1440 ≤ offset then .error .outOfRange
  else
    let minutes : Int := time.hour * 60 + time.minute - offset
    let date :=
      if minutes < 0 then date.previous else if 1440 ≤ minutes then date.next else date
    let minute := (minutes % 1440).toNat
    match ofParts? date { time with hour := minute / 60, minute := minute % 60 } with
    | some t => .ok t
    | none => .error .impossible

/-- The moment that a text names. -/
def parseChars (cs : List Char) : Except ReadError Timestamp := do
  let (date, cs) ← readDate cs
  let cs ← match cs with
    | [] => .error .tooShort
    | c :: rest => if c = 'T' ∨ c = 't' ∨ c = ' ' then .ok rest else .error .invalid
  let (time, cs) ← readTime cs
  let (offset, cs) ← readOffset (skipBlank cs)
  if !(skipBlank cs).isEmpty then .error .tooLong
  ofLocal date time offset

def parse (s : String) : Except ReadError Timestamp :=
  parseChars s.toList

end SyncAudit.Timestamp
