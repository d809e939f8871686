import SyncAudit.Number.Digits
import SyncAudit.Number.Double

/-!
# Plain numerals

Numbers as they stand alone in a setting: an integer with a sign that may be absent, and a
floating point number whose point may stand first or last, with an exponent that may be absent.
Infinity and the value that is no number have names, in either case.
-/
namespace SyncAudit

/-- Whether a sign makes a number negative, and what follows the sign. -/
def splitSign : List Char → Bool × List Char
  | '-' :: rest => (true, rest)
  | '+' :: rest => (false, rest)
  | cs => (false, cs)

/-- The integer that a numeral denotes if it fits a signed word of 64 bits. -/
def word64? (cs : List Char) : Option Int :=
  let (negative, body) := splitSign cs
  let n : Int := if negative then -(ofDigits 10 body) else ofDigits 10 body
  if body ≠ [] ∧ body.all isDigit ∧ -0x8000000000000000 ≤ n ∧ n < 0x8000000000000000 then some n
  else none

/-- The exponent of a numeral with its letter, up to the end. -/
def exponentPart? : List Char → Option Int
  | [] => some 0
  | c :: rest =>
    let (negative, digits) := splitSign rest
    if (c = 'e' ∨ c = 'E') ∧ digits ≠ [] ∧ digits.all isDigit then
      some (if negative then -(ofDigits 10 digits) else ofDigits 10 digits)
    else none

namespace Double

/-- The number that has a name. -/
def named? (negative : Bool) (cs : List Char) : Option Double :=
  let name := cs.map Char.toLower
  if name = ['i', 'n', 'f'] ∨ name = ['i', 'n', 'f', 'i', 'n', 'i', 't', 'y'] then
    some (infinity negative)
  else if name = ['n', 'a', 'n'] then some nan
  else none

/-- The number nearest to a decimal without a sign. -/
def decimal? (negative : Bool) (cs : List Char) : Option Double :=
  let whole := cs.takeWhile isDigit
  let rest := cs.dropWhile isDigit
  let (fraction, rest) := match rest with
    | '.' :: rest => (rest.takeWhile isDigit, rest.dropWhile isDigit)
    | _ => ([], rest)
  if whole.isEmpty ∧ fraction.isEmpty then none
  else
    (exponentPart? rest).map fun exponent =>
      ofDecimal negative (ofDigits 10 (whole ++ fraction)) (exponent - fraction.length)

/-- The floating point number that a numeral denotes. -/
def parse? (cs : List Char) : Option Double :=
  let (negative, body) := splitSign cs
  (decimal? negative body).or (named? negative body)

end Double
end SyncAudit
