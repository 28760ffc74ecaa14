import Calculator.Binary64.Decimal

/-!
# The shortest decimal of a binary64 number

Of all decimals that round to a positive finite binary64 number, `shortest` finds those with the fewest
digits and of these the nearest one; if two are equally near, the one with an even last digit.

The decimals that round to a number lie between the midpoints to its two neighbours, the midpoints
included if its significand is even. For each count of digits in turn, the decimals just below and just
above the number are the only ones to be tried: if any decimal with that many digits lies between the
midpoints, then one of the two does. Seventeen digits always suffice.
-/

namespace Calculator.Binary64

/-- A positive finite number: `significand * 2 ^ exponent`. -/
structure Magnitude where
  significand : Nat
  exponent : Int
  deriving DecidableEq, Repr

/-- The number with the given bits, those of a finite number without its sign. -/
def Magnitude.ofBits (bits : Nat) : Magnitude :=
  let fraction := bits % hiddenBit
  let biased : Nat := bits / hiddenBit
  if biased = 0 then ⟨fraction, minExponent⟩ else ⟨hiddenBit + fraction, minExponent - 1 + biased⟩

namespace Magnitude

/-- The numbers that round to a magnitude, in quarters of its unit: the midpoint below, the magnitude
and the midpoint above. The neighbour below a power of two is at half the distance. -/
def quarters (x : Magnitude) : Nat × Nat × Nat :=
  let value := 4 * x.significand
  let below := if x.significand = hiddenBit ∧ minExponent < x.exponent then 1 else 2
  (value - below, value, value + 2)

/-- The greatest `e` with `10 ^ e` not above the magnitude. -/
def decimalExponent (x : Magnitude) : Int :=
  let scaled := (x.significand * Nat.pow 10 324) <<< x.exponent.toNat >>> (-x.exponent).toNat
  ((Nat.toDigits 10 scaled).length : Int) - 325

/-- The better of the two multiples of `10 ^ exponent` around a magnitude, if one of them rounds to it. -/
def nearestMultiple? (x : Magnitude) (exponent : Int) : Option Decimal :=
  let (low, value, high) := x.quarters
  let quarter := Nat.pow 10 (-exponent).toNat <<< (x.exponent - 2).toNat
  let step := Nat.pow 10 exponent.toNat <<< (2 - x.exponent).toNat
  let floor := value * quarter / step
  let rest := value * quarter % step
  let closed := x.significand % 2 = 0
  let floorFits := low * quarter < floor * step ∨ closed ∧ low * quarter = floor * step
  let ceilingFits := (floor + 1) * step < high * quarter ∨ closed ∧ (floor + 1) * step = high * quarter
  let floorIsBetter := 2 * rest < step ∨ 2 * rest = step ∧ floor % 2 = 0
  if floorFits ∧ (floorIsBetter ∨ ¬ ceilingFits) then some ⟨floor, exponent⟩
  else if ceilingFits then some ⟨floor + 1, exponent⟩
  else none

def shortest (x : Magnitude) : Decimal :=
  let leading := x.decimalExponent
  let found := (List.range 17).findSome? fun count : Nat => x.nearestMultiple? (leading - count)
  found.getD ⟨0, 0⟩

end Magnitude

end Calculator.Binary64
