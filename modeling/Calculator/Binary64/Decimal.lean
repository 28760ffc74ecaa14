import Calculator.Binary64.Nearest

/-!
# Decimals and binary64 numbers

A decimal is a natural number of digits times a power of ten. It is rounded to the nearest float, and to
infinity beyond their range.
-/

namespace Calculator.Binary64

/-- The number `digits * 10 ^ exponent`. -/
structure Decimal where
  digits : Nat
  exponent : Int
  deriving DecidableEq, Repr

namespace Decimal

/-- A decimal with more places before its point than this is beyond all floats, and one with more zeros
behind its point is nearer to zero than to any other float. -/
def maxPlaces : Int := 400

/-- The number of digits before the decimal point, negative if there are zeros behind it. -/
def places (decimal : Decimal) : Int :=
  (Nat.toDigits 10 decimal.digits).length + decimal.exponent

/-- The nearest float, with a sign. No power of ten is computed where the places decide already. -/
def toFloat (negative : Bool) (decimal : Decimal) : Float :=
  if decimal.digits = 0 ∨ decimal.places < -maxPlaces then ofBits negative 0
  else if maxPlaces < decimal.places then infinity negative
  else
    let num := decimal.digits * Nat.pow 10 decimal.exponent.toNat
    let den := Nat.pow 10 (-decimal.exponent).toNat
    (nearest? negative num den).getD (infinity negative)

end Decimal

end Calculator.Binary64
