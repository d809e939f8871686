import SyncAudit.Json.Basic
import SyncAudit.Number.Digits

/-!
# Reading JSON

Values may be nested up to 127 deep. A numeral without fraction and exponent is a whole number if
it fits 64 bits, signed or unsigned; every other numeral is a floating point number, and one that
is too large for that is refused.
-/
namespace SyncAudit.Json

def isSpace (c : Char) : Bool :=
  c = ' ' || c = '\n' || c = '\t' || c = '\r'

def skipSpace (cs : List Char) : List Char :=
  cs.dropWhile isSpace

/-! ## Strings -/

/-- The code unit of four hexadecimal digits. -/
def unit? (a b c d : Char) : Option Nat :=
  if [a, b, c, d].all (isDigitOf 16) then some (ofDigits 16 [a, b, c, d]) else none

/-- The character of a one-letter escape. -/
def escaped? (c : Char) : Option Char :=
  if c = '"' ∨ c = '\\' ∨ c = '/' then some c
  else if c = 'b' then some '\x08'
  else if c = 'f' then some '\x0c'
  else if c = 'n' then some '\n'
  else if c = 'r' then some '\r'
  else if c = 't' then some '\t'
  else none

/-- The characters of a string up to its closing quote, and what follows the quote. -/
def readChars : List Char → Option (List Char × List Char)
  | [] => none
  | '"' :: rest => some ([], rest)
  | '\\' :: 'u' :: a :: b :: c :: d :: rest =>
    match unit? a b c d with
    | none => none
    | some high =>
      if 0xD800 ≤ high ∧ high < 0xDC00 then
        match rest with
        | '\\' :: 'u' :: e :: f :: g :: h :: rest =>
          match unit? e f g h with
          | none => none
          | some low =>
            if 0xDC00 ≤ low ∧ low < 0xE000 then
              (readChars rest).map fun (s, rest) =>
                (Char.ofNat (0x10000 + (high - 0xD800) * 0x400 + (low - 0xDC00)) :: s, rest)
            else none
        | _ => none
      else if 0xDC00 ≤ high ∧ high < 0xE000 then none
      else (readChars rest).map fun (s, rest) => (Char.ofNat high :: s, rest)
  | '\\' :: c :: rest =>
    match escaped? c with
    | none => none
    | some e => (readChars rest).map fun (s, rest) => (e :: s, rest)
  | c :: rest =>
    if c.toNat < 0x20 ∨ c = '\\' then none
    else (readChars rest).map fun (s, rest) => (c :: s, rest)

/-! ## Numerals -/

/-- A number under way: the digits taken up so far and the power of ten that they stand for. -/
structure Scaled where
  digits : Nat
  exponent : Int

def maxDigits : Nat := 0xFFFFFFFFFFFFFFFF

/-- Takes up the digits before the point while they fit; each later one raises the exponent. -/
def Scaled.whole (s : Scaled) : List Char → Scaled
  | [] => s
  | c :: rest =>
    if s.digits * 10 + digitValue c ≤ maxDigits
    then Scaled.whole ⟨s.digits * 10 + digitValue c, 0⟩ rest
    else ⟨s.digits, rest.length + 1⟩

/-- Takes up the digits after the point while they fit and drops the others. -/
def Scaled.fraction (s : Scaled) : List Char → Scaled
  | [] => s
  | c :: rest =>
    if s.digits * 10 + digitValue c ≤ maxDigits
    then Scaled.fraction ⟨s.digits * 10 + digitValue c, s.exponent - 1⟩ rest
    else s

/-- The floating point number of the digits and the power of ten, each rounded first. Powers
beyond the largest are infinite upwards and taken in steps of `10 ^ 308` downwards. -/
def Scaled.toDouble (negative : Bool) (s : Scaled) : Double :=
  let start := Double.ofDecimal negative s.digits 0
  if s.exponent < -1000 then Double.ofMagnitude negative 0
  else
    let start := if s.exponent < -308 then start.divide (Double.ofDecimal false 1 308) else start
    let exponent := if s.exponent < -308 then s.exponent + 308 else s.exponent
    let start := if exponent < -308 then start.divide (Double.ofDecimal false 1 308) else start
    let exponent := if exponent < -308 then exponent + 308 else exponent
    if s.digits = 0 then start
    else if 308 < exponent then Double.infinity negative
    else if 0 ≤ exponent then start.multiply (Double.ofDecimal false 1 exponent)
    else start.divide (Double.ofDecimal false 1 (-exponent))

/-- The whole number of a numeral without fraction and exponent, if it fits 64 bits. Minus zero
is a floating point number. -/
def wholeNumber? (negative : Bool) (n : Nat) : Option Int :=
  if negative then if 0 < n ∧ n ≤ 0x8000000000000000 then some (-n) else none
  else if n ≤ maxDigits then some n else none

def floatValue? (negative : Bool) (s : Scaled) : Option Json :=
  let x := s.toDouble negative
  if x.isFinite then some (.float x) else none

/-- The exponent after its letter, and what follows it. -/
def readExponent : List Char → Option (Int × List Char)
  | cs =>
    let (negative, cs) := match cs with
      | '-' :: rest => (true, rest)
      | '+' :: rest => (false, rest)
      | _ => (false, cs)
    let digits := cs.takeWhile isDigit
    if digits.isEmpty then none
    else
      let n : Int := ofDigits 10 digits
      some (if negative then -n else n, cs.dropWhile isDigit)

/-- The exponent that a numeral may end with. -/
def readTail (negative : Bool) (s : Scaled) : List Char → Option (Json × List Char)
  | 'e' :: rest | 'E' :: rest =>
    match readExponent rest with
    | none => none
    | some (e, rest) => (floatValue? negative ⟨s.digits, s.exponent + e⟩).map (·, rest)
  | rest => (floatValue? negative s).map (·, rest)

/-- A numeral after its sign, and what follows it. -/
def readUnsigned (negative : Bool) (cs : List Char) : Option (Json × List Char) :=
  let digits := cs.takeWhile isDigit
  let rest := cs.dropWhile isDigit
  if digits.isEmpty ∨ (digits.head? = some '0' ∧ 1 < digits.length) then none
  else
    let whole := Scaled.whole ⟨0, 0⟩ digits
    match rest with
    | '.' :: rest =>
      let fraction := rest.takeWhile isDigit
      if fraction.isEmpty then none
      else readTail negative (whole.fraction fraction) (rest.dropWhile isDigit)
    | 'e' :: _ | 'E' :: _ => readTail negative whole rest
    | _ =>
      match wholeNumber? negative (ofDigits 10 digits) with
      | some n => some (.int n, rest)
      | none => (floatValue? negative whole).map (·, rest)

def readNumber : List Char → Option (Json × List Char)
  | '-' :: rest => readUnsigned true rest
  | cs => readUnsigned false cs

/-! ## Values -/

mutual

/-- A value at the front of a text without leading white space. `depth` is how many brackets may
still be opened inside each other. -/
def readValue : Nat → Nat → List Char → Option (Json × List Char)
  | 0, _, _ => none
  | fuel + 1, depth, cs =>
    match cs with
    | 'n' :: 'u' :: 'l' :: 'l' :: rest => some (.null, rest)
    | 't' :: 'r' :: 'u' :: 'e' :: rest => some (.bool true, rest)
    | 'f' :: 'a' :: 'l' :: 's' :: 'e' :: rest => some (.bool false, rest)
    | '"' :: rest => (readChars rest).map fun (s, rest) => (.string (String.ofList s), rest)
    | '[' :: rest =>
      if depth = 0 then none
      else
        match skipSpace rest with
        | ']' :: rest => some (.array [], rest)
        | rest => (readItems fuel (depth - 1) rest).map fun (vs, rest) => (.array vs, rest)
    | '\x7b' :: rest =>
      if depth = 0 then none
      else
        match skipSpace rest with
        | '\x7d' :: rest => some (.object [], rest)
        | rest => (readMembers fuel (depth - 1) rest).map fun (ms, rest) => (.object ms, rest)
    | cs => readNumber cs

/-- The items of an array from the first of them up to the closing bracket. -/
def readItems : Nat → Nat → List Char → Option (List Json × List Char)
  | 0, _, _ => none
  | fuel + 1, depth, cs =>
    match readValue fuel depth cs with
    | none => none
    | some (v, rest) =>
      match skipSpace rest with
      | ']' :: rest => some ([v], rest)
      | ',' :: rest =>
        (readItems fuel depth (skipSpace rest)).map fun (vs, rest) => (v :: vs, rest)
      | _ => none

/-- The members of an object from the first of them up to the closing brace. -/
def readMembers : Nat → Nat → List Char → Option (List (String × Json) × List Char)
  | 0, _, _ => none
  | fuel + 1, depth, cs =>
    match cs with
    | '"' :: rest =>
      match readChars rest with
      | none => none
      | some (name, rest) =>
        match skipSpace rest with
        | ':' :: rest =>
          match readValue fuel depth (skipSpace rest) with
          | none => none
          | some (v, rest) =>
            match skipSpace rest with
            | '\x7d' :: rest => some ([(String.ofList name, v)], rest)
            | ',' :: rest =>
              (readMembers fuel depth (skipSpace rest)).map fun (ms, rest) =>
                ((String.ofList name, v) :: ms, rest)
            | _ => none
        | _ => none
    | _ => none

end

/-- How many brackets may be opened inside each other. -/
def maxDepth : Nat := 127

/-- The value that a text holds, white space around it allowed. Each step of the reader takes up
at least one character, so the fuel never runs out. -/
def parseChars (cs : List Char) : Option Json :=
  match readValue (2 * cs.length + 2) maxDepth (skipSpace cs) with
  | some (v, rest) => if (skipSpace rest).isEmpty then some v else none
  | none => none

def parse (text : String) : Option Json :=
  parseChars text.toList

end SyncAudit.Json
