/-!
# Binary floating point numbers of 64 bits

A number is kept as its bit pattern, so that equality, sign and the special values are exact.
Reading a decimal rounds once, to the nearest number and to an even fraction between two.
-/
namespace SyncAudit

/-- A binary floating point number by its bits: a sign, eleven bits of exponent and fifty-two of
fraction. -/
structure Double where
  bits : UInt64
  deriving DecidableEq, Repr

namespace Double

def signBit : Nat := Nat.pow 2 63

def isNegative (x : Double) : Bool :=
  signBit ≤ x.bits.toNat

/-- The bits below the sign. -/
def magnitude (x : Double) : Nat :=
  x.bits.toNat % signBit

def exponentField (x : Double) : Nat :=
  x.magnitude / Nat.pow 2 52

def fractionField (x : Double) : Nat :=
  x.magnitude % Nat.pow 2 52

def isFinite (x : Double) : Bool :=
  x.exponentField < 2047

def isNaN (x : Double) : Bool :=
  x.exponentField = 2047 && x.fractionField ≠ 0

def isZero (x : Double) : Bool :=
  x.magnitude = 0

/-- The whole number `m` of a finite magnitude `m * 2 ^ (q - 1074)`. -/
def significand (x : Double) : Nat :=
  if x.exponentField = 0 then x.fractionField else Nat.pow 2 52 + x.fractionField

/-- The whole number `q` of a finite magnitude `m * 2 ^ (q - 1074)`. -/
def scale (x : Double) : Nat :=
  x.exponentField - 1

/-- The number with the given sign and magnitude bits. -/
def ofMagnitude (negative : Bool) (magnitude : Nat) : Double :=
  ⟨UInt64.ofNat (if negative then signBit + magnitude else magnitude)⟩

def infinityMagnitude : Nat := 2047 * Nat.pow 2 52

def infinity (negative : Bool) : Double :=
  ofMagnitude negative infinityMagnitude

def nan : Double :=
  ofMagnitude false (infinityMagnitude + Nat.pow 2 51)

/-- The quotient rounded to the nearest whole number, and to the even one between two. -/
def roundQuotient (num den : Nat) : Nat :=
  let quotient := num / den
  let twice := 2 * (num % den)
  if twice < den then quotient
  else if twice > den then quotient + 1
  else quotient + quotient % 2

/-- The magnitude bits of the number nearest to `num / den`. The scale is the one at which the
significand has fifty-three bits, or the least one; a significand rounded up to the next power
of two carries into the exponent. -/
def nearestMagnitude (num den : Nat) : Nat :=
  if num = 0 then 0
  else
    -- `num / den` lies between `2 ^ (up - 1 - 1074)` and `2 ^ (up + 1 - 1074)`
    let up : Int := num.log2 - den.log2 + 1074
    let up :=
      if num * Nat.pow 2 (1074 - up).toNat < den * Nat.pow 2 (up - 1074).toNat then up - 1 else up
    let scale := (up - 52).toNat
    let m :=
      if scale ≤ 1074 then roundQuotient (num * Nat.pow 2 (1074 - scale)) den
      else roundQuotient num (den * Nat.pow 2 (scale - 1074))
    min (scale * Nat.pow 2 52 + m) infinityMagnitude

/-- The number nearest to `digits * 10 ^ exponent`. Exponents that can only give zero or infinity
are decided without computing the power. -/
def ofDecimal (negative : Bool) (digits : Nat) (exponent : Int) : Double :=
  let places := (Nat.toDigits 10 digits).length
  if digits = 0 then ofMagnitude negative 0
  else if exponent + places > 310 then infinity negative
  else if exponent + places < -330 then ofMagnitude negative 0
  else if 0 ≤ exponent then
    ofMagnitude negative (nearestMagnitude (digits * Nat.pow 10 exponent.toNat) 1)
  else ofMagnitude negative (nearestMagnitude digits (Nat.pow 10 (-exponent).toNat))

/-- The sign of a product or a quotient. -/
def signOf (x y : Double) : Bool :=
  x.isNegative != y.isNegative

/-- The rounded product of two finite numbers. -/
def multiply (x y : Double) : Double :=
  let num := x.significand * y.significand * Nat.pow 2 (x.scale + y.scale)
  ofMagnitude (signOf x y) (nearestMagnitude num (Nat.pow 2 2148))

/-- The rounded quotient of a finite number by a finite number other than zero. -/
def divide (x y : Double) : Double :=
  ofMagnitude (signOf x y)
    (nearestMagnitude (x.significand * Nat.pow 2 x.scale) (y.significand * Nat.pow 2 y.scale))

end Double
end SyncAudit
