import SyncAudit.Number.Double

/-!
# The shortest decimal of a floating point number

A finite number is shown by the fewest decimal digits from which it can be read back, and by the
nearest of the decimals with that many digits.
-/
namespace SyncAudit

/-- The decimal `0.d₁d₂… * 10 ^ point`. -/
structure Decimal where
  digits : List Char
  point : Int
  deriving DecidableEq, Repr

namespace Double

/-- A positive magnitude as a fraction, in quarters of the unit in its last place, together with
the fraction's ends of the interval that rounds to it. -/
structure Interval where
  den : Nat
  low : Nat
  mid : Nat
  high : Nat
  closed : Bool

/-- The interval of decimals that are read back as `x`. Below a power of two the numbers lie
twice as close. -/
def interval (x : Double) : Interval :=
  let m := x.significand
  let factor := Nat.pow 2 (x.scale - 1074)
  let below := if x.fractionField = 0 ∧ 1 < x.exponentField then 1 else 2
  { den := 4 * Nat.pow 2 (1074 - x.scale)
    low := (4 * m - below) * factor
    mid := 4 * m * factor
    high := (4 * m + 2) * factor
    closed := m % 2 = 0 }

def Interval.holds (i : Interval) (num den : Nat) : Bool :=
  if i.closed then i.low * den ≤ num * i.den && num * i.den ≤ i.high * den
  else i.low * den < num * i.den && num * i.den < i.high * den

/-- The least `k` from `start` on with `mid / den < 10 ^ k`. -/
def decimalPoint (num den : Nat) : Nat → Int → Int
  | 0, k => k
  | fuel + 1, k =>
    if num * Nat.pow 10 (-k).toNat < den * Nat.pow 10 k.toNat then k
    else decimalPoint num den fuel (k + 1)

/-- The decimal with `count` digits that is nearest to the middle of the interval and lies inside
it, if one does. -/
def candidate? (i : Interval) (point : Int) (count : Nat) : Option Nat :=
  let up := Nat.pow 10 (count - point).toNat
  let down := Nat.pow 10 (point - count).toNat
  let floor := i.mid * up / (i.den * down)
  let inside (d : Nat) := i.holds (d * down) up
  let twice := 2 * (i.mid * up % (i.den * down))
  let nearer :=
    if twice < i.den * down then floor
    else if twice > i.den * down then floor + 1
    else floor + floor % 2
  let other := if nearer = floor then floor + 1 else floor
  if inside nearer then some nearer else if inside other then some other else none

/-- A first answer for rising digit counts. -/
def firstCandidate (i : Interval) (point : Int) : Nat → Nat → Nat × Nat
  | 0, count => ((candidate? i point count).getD 0, count)
  | fuel + 1, count =>
    match candidate? i point count with
    | some d => (d, count)
    | none => firstCandidate i point fuel (count + 1)

/-- The shortest decimal of a positive finite magnitude. -/
def shortest (x : Double) : Decimal :=
  let i := x.interval
  let point := decimalPoint i.mid i.den 640 (-325)
  let (d, count) := firstCandidate i point 16 1
  let digits := Nat.toDigits 10 d
  { digits := (digits.reverse.dropWhile (· = '0')).reverse
    point := point + ((digits.length : Int) - count) }

/-- A decimal without an exponent: `0.00d`, `d00` or `d.d`. -/
def positional (d : Decimal) : List Char :=
  let count : Int := d.digits.length
  if d.point ≤ 0 then ['0', '.'] ++ List.replicate (-d.point).toNat '0' ++ d.digits
  else if count ≤ d.point then d.digits ++ List.replicate (d.point - count).toNat '0'
  else d.digits.take d.point.toNat ++ ['.'] ++ d.digits.drop d.point.toNat

/-- The text of a number in which no exponent ever appears. -/
def plainText (x : Double) : String :=
  if x.isNaN then "NaN"
  else
    let sign := if x.isNegative then ['-'] else []
    let body :=
      if !x.isFinite then ['i', 'n', 'f']
      else if x.isZero then ['0']
      else positional x.shortest
    String.ofList (sign ++ body)

/-- The plain text, with `.0` after a whole number. -/
def pointedText (x : Double) : String :=
  let text := x.plainText
  if x.isFinite ∧ !text.toList.contains '.' then text ++ ".0" else text

/-- A decimal with one digit before the point and a signed exponent of at least two digits. -/
def scientific (d : Decimal) : List Char :=
  let exponent := d.point - 1
  let lead := d.digits.take 1
  let rest := d.digits.drop 1
  let digits := Nat.toDigits 10 exponent.natAbs
  lead ++ (if rest.isEmpty then [] else '.' :: rest)
    ++ ['e', if exponent < 0 then '-' else '+']
    ++ (if digits.length < 2 then '0' :: digits else digits)

/-- The pointed text where the exponent of the first digit is from -5 to 15, and the scientific
form elsewhere. -/
def generalText (x : Double) : String :=
  if x.isFinite ∧ !x.isZero then
    let d := x.shortest
    if -5 ≤ d.point - 1 ∧ d.point - 1 < 16 then x.pointedText
    else String.ofList ((if x.isNegative then ['-'] else []) ++ scientific d)
  else x.pointedText

end Double
end SyncAudit
