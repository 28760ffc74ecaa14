/-!
# The nearest binary64 number

A nonnegative rational number is rounded to the nearest binary64 number, and to the one with the even
significand if two are equally near. The work is done on natural numbers, so it is exact for numerators
and denominators of any size.

Up to its sign, a finite binary64 number is `significand * 2 ^ exponent` with a significand below
`2 ^ 53`, where the exponent is at least `minExponent` and the significand at least `2 ^ 52` unless the
exponent is `minExponent`. Its bits are then `(exponent - minExponent) * 2 ^ 52 + significand`, read as a
natural number. A significand that is rounded up to `2 ^ 53` gives the bits of the next power of two by
the same formula, and the first power of two beyond the range gives the bits of infinity.
-/

namespace Calculator.Binary64

/-- The exponent of the least positive binary64 number. -/
def minExponent : Int := -1074

/-- The least significand of 53 binary digits, `2 ^ 52`. Its place in the bits belongs to the exponent. -/
def hiddenBit : Nat := 1 <<< 52

/-- The bits of infinity: every finite number without a sign has lesser bits. -/
def infinityBits : Nat := 2047 * hiddenBit

def signBit : Nat := 1 <<< 63

/-- The natural number nearest to a quotient, and of two the even one. -/
def roundHalfEven (num den : Nat) : Nat :=
  let floor := num / den
  let rest := num % den
  if 2 * rest < den then floor
  else if den < 2 * rest then floor + 1
  else if floor % 2 = 0 then floor
  else floor + 1

/-- A quotient in units of `2 ^ exponent`, again as a quotient. -/
def inUnits (num den : Nat) (exponent : Int) : Nat × Nat :=
  (num <<< (-exponent).toNat, den <<< exponent.toNat)

/-- The exponent at which a positive quotient is rounded: with 53 binary digits before the point if that
is possible, and with fewer at the least exponent. -/
def roundingExponent (num den : Nat) : Int :=
  let estimate := (num.log2 : Int) - den.log2
  let (n, d) := inUnits num den estimate
  max ((if n < d then estimate - 1 else estimate) - 52) minExponent

/-- The bits of the number nearest to a quotient. -/
def nearestBits (num den : Nat) : Nat :=
  if num = 0 then 0
  else
    let exponent := roundingExponent num den
    let (n, d) := inUnits num den exponent
    (exponent - minExponent).toNat * hiddenBit + roundHalfEven n d

def ofBits (negative : Bool) (bits : Nat) : Float :=
  Float.ofBits (UInt64.ofNat (if negative then signBit + bits else bits))

/-- The float nearest to a quotient, unless that is beyond the range of the finite ones. -/
def nearest? (negative : Bool) (num den : Nat) : Option Float :=
  let bits := nearestBits num den
  if bits < infinityBits then some (ofBits negative bits) else none

def infinity (negative : Bool) : Float := ofBits negative infinityBits

def nan : Float := ofBits false (infinityBits + 1 <<< 51)

def ofInt? (value : Int) : Option Float :=
  nearest? (value < 0) value.natAbs 1

/-- The float nearest to the quotient of two whole numbers, the second of them not zero. A quotient of
zero has the sign that the two would give it. -/
def ofQuotient? (num den : Int) : Option Float :=
  nearest? (decide (num < 0) != decide (den < 0)) num.natAbs den.natAbs

end Calculator.Binary64
