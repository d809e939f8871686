import SyncAudit.Number.Decimal
import SyncAudit.Timestamp.Basic

/-!
# TOML values without quotes

Truth values, integers in four bases, floating point numbers, dates and times. Single underscores
may part the digits of numbers. The parts of a date and time are kept as normalised text.
-/
namespace SyncAudit.Toml

inductive Scalar where
  | string (s : String)
  | bool (b : Bool)
  | integer (n : Int)
  | float (x : Double)
  /-- A decimal beyond the largest floating point number. -/
  | oversized
  | dateTime (text : String)
  deriving DecidableEq, Repr

/-! ## Numbers -/

/-- The digits of a run in which single underscores may stand between digits. -/
def digitRun? (isDigit : Char → Bool) : List Char → Option (List Char)
  | [] => none
  | [c] => if isDigit c then some [c] else none
  | c :: '_' :: rest => if isDigit c then (digitRun? isDigit rest).map (c :: ·) else none
  | c :: rest => if isDigit c then (digitRun? isDigit rest).map (c :: ·) else none

/-- The digits of a number without idle zeros in front. -/
def wholeDigits? (cs : List Char) : Option (List Char) :=
  match digitRun? isDigit cs with
  | some digits => if digits.head? = some '0' ∧ 1 < digits.length then none else some digits
  | none => none

def decimalInteger? (cs : List Char) : Option Int :=
  let (negative, body) := splitSign cs
  (wholeDigits? body).map fun digits =>
    if negative then -(ofDigits 10 digits) else ofDigits 10 digits

def basedInteger? : List Char → Option Int
  | '0' :: 'x' :: rest => (digitRun? (isDigitOf 16) rest).map fun digits => ofDigits 16 digits
  | '0' :: 'o' :: rest => (digitRun? (isDigitOf 8) rest).map fun digits => ofDigits 8 digits
  | '0' :: 'b' :: rest => (digitRun? (isDigitOf 2) rest).map fun digits => ofDigits 2 digits
  | _ => none

/-- The text up to a character of a kind, and the text behind it if there is one. -/
def splitAt (p : Char → Bool) (cs : List Char) : List Char × Option (List Char) :=
  match cs.dropWhile (!p ·) with
  | [] => (cs, none)
  | _ :: rest => (cs.takeWhile (!p ·), some rest)

/-- The exponent behind its letter; an absent one is zero. -/
def exponent? : Option (List Char) → Option Int
  | none => some 0
  | some cs =>
    let (negative, body) := splitSign cs
    (digitRun? isDigit body).map fun digits =>
      if negative then -(ofDigits 10 digits) else ofDigits 10 digits

/-- The digits behind the point; without a point there are none. -/
def fraction? : Option (List Char) → Option (List Char)
  | none => some []
  | some cs => digitRun? isDigit cs

def ofDouble (x : Double) : Scalar :=
  if x.isFinite then .float x else .oversized

def decimalFloat? (cs : List Char) : Option Scalar := do
  let (negative, body) := splitSign cs
  let (mantissa, power) := splitAt (fun c => c = 'e' || c = 'E') body
  let (whole, point) := splitAt (· = '.') mantissa
  if power.isNone && point.isNone then none
  let digits ← wholeDigits? whole
  let fraction ← fraction? point
  let exponent ← exponent? power
  some (ofDouble (Double.ofDecimal negative (ofDigits 10 (digits ++ fraction))
    (exponent - fraction.length)))

def specialFloat? (cs : List Char) : Option Scalar :=
  let (negative, body) := splitSign cs
  if body = ['i', 'n', 'f'] then some (.float (Double.infinity negative))
  else if body = ['n', 'a', 'n'] then some (.float Double.nan)
  else none

def bool? (cs : List Char) : Option Bool :=
  if cs = ['t', 'r', 'u', 'e'] then some true
  else if cs = ['f', 'a', 'l', 's', 'e'] then some false
  else none

/-! ## Dates and times -/

/-- A number of a fixed count of digits at the front of a text, and what follows it. -/
def fixedNumber? (count : Nat) (cs : List Char) : Option (Nat × List Char) :=
  let digits := cs.take count
  if digits.length = count ∧ digits.all isDigit then some (ofDigits 10 digits, cs.drop count)
  else none

/-- The text behind a given character. -/
def after? (c : Char) : List Char → Option (List Char)
  | d :: rest => if d = c then some rest else none
  | [] => none

/-- The text of a date at the front of a text, and what follows it. -/
def date? (cs : List Char) : Option (List Char × List Char) := do
  let (year, cs) ← fixedNumber? 4 cs
  let cs ← after? '-' cs
  let (month, cs) ← fixedNumber? 2 cs
  let cs ← after? '-' cs
  let (day, cs) ← fixedNumber? 2 cs
  if Date.Valid ⟨year, month, day⟩ then
    some (padded 4 year ++ '-' :: padded 2 month ++ '-' :: padded 2 day, cs)
  else none

/-- The text of a fraction of a second: at most nine digits, without idle zeros at the end. -/
def fractionText (digits : List Char) : List Char :=
  match ((digits.take 9).reverse.dropWhile (· = '0')).reverse with
  | [] => ['.', '0']
  | kept => '.' :: kept

/-- The seconds of a time and their fraction, both of which may be absent. -/
def seconds? : List Char → Option (List Char × List Char)
  | ':' :: cs => do
    let (second, cs) ← fixedNumber? 2 cs
    if 60 < second then none
    match cs with
    | '.' :: cs =>
      let digits := cs.takeWhile isDigit
      if digits.isEmpty then none
      some (':' :: padded 2 second ++ fractionText digits, cs.dropWhile isDigit)
    | cs => some (':' :: padded 2 second, cs)
  | cs => some ([], cs)

/-- The text of hours and minutes, and what follows them. -/
def hourMinute? (cs : List Char) : Option (List Char × List Char) := do
  let (hour, cs) ← fixedNumber? 2 cs
  let cs ← after? ':' cs
  let (minute, cs) ← fixedNumber? 2 cs
  if hour < 24 ∧ minute < 60 then some (padded 2 hour ++ ':' :: padded 2 minute, cs) else none

def time? (cs : List Char) : Option (List Char × List Char) := do
  let (clock, cs) ← hourMinute? cs
  let (seconds, cs) ← seconds? cs
  some (clock ++ seconds, cs)

/-- The text of an offset from UTC up to the end of a text. An offset of nothing is positive. -/
def offset? : List Char → Option (List Char)
  | [] => some []
  | ['Z'] | ['z'] => some ['Z']
  | c :: cs => do
    if c ≠ '+' ∧ c ≠ '-' then none
    let (clock, rest) ← hourMinute? cs
    if !rest.isEmpty then none
    some ((if clock = ['0', '0', ':', '0', '0'] then '+' else c) :: clock)

def isDateSeparator (c : Char) : Bool :=
  c = 'T' || c = 't' || c = ' '

/-- The normalised text of a date, of a time, or of both with an offset that may be absent. -/
def dateTime? (cs : List Char) : Option (List Char) :=
  match date? cs with
  | some (date, []) => some date
  | some (date, c :: rest) => do
    if !isDateSeparator c then none
    let (time, rest) ← time? rest
    let offset ← offset? rest
    some (date ++ 'T' :: time ++ offset)
  | none =>
    match time? cs with
    | some (time, []) => some time
    | _ => none

/-! ## Tokens -/

/-- Whether a character can stand in a value without quotes. -/
def isTokenChar (c : Char) : Bool :=
  c.isAlphanum || c = '+' || c = '-' || c = '_' || c = '.' || c = ':'

/-- The token at the front of a text, and what follows it. A date goes on behind a single blank
if a digit follows there. -/
def splitToken (cs : List Char) : List Char × List Char :=
  let token := cs.takeWhile isTokenChar
  let rest := cs.dropWhile isTokenChar
  match date? token, rest with
  | some (_, []), ' ' :: c :: more =>
    if isDigit c then
      (token ++ ' ' :: (c :: more).takeWhile isTokenChar, (c :: more).dropWhile isTokenChar)
    else (token, rest)
  | _, _ => (token, rest)

def ofToken? (token : List Char) : Option Scalar :=
  ((bool? token).map .bool).or <|
  ((decimalInteger? token).map .integer).or <|
  ((basedInteger? token).map .integer).or <|
  (specialFloat? token).or <|
  (decimalFloat? token).or <|
  (dateTime? token).map fun text => .dateTime (String.ofList text)

/-- The scalar at the front of a text, and what follows it. -/
def readScalar (cs : List Char) : Option (Scalar × List Char) :=
  let (token, rest) := splitToken cs
  (ofToken? token).map (·, rest)

end SyncAudit.Toml
