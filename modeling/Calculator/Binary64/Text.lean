import Calculator.Binary64.Shortest

/-!
# The text of a binary64 number

A float is written with the fewest digits that read back as the same float. `Layout` holds the decisions
about their arrangement: from which power of ten on, and up to which, the digits stand around a decimal
point in their places, and how wide the exponent of all other numbers is.
-/

namespace Calculator.Binary64

structure Layout where
  /-- The least decimal exponent with positional digits. -/
  positionalFrom : Int
  /-- The least decimal exponent beyond those with positional digits. -/
  positionalBelow : Int
  /-- The least number of digits of an exponent. -/
  exponentDigits : Nat

/-- Numbers from `0.0001` up to `1e16` are written positionally and always with a decimal point. -/
def layout : Layout := ⟨-4, 16, 2⟩

/-- Digits around a decimal point. The first of them counts powers of ten to the given exponent. -/
def positional (digits : List Char) (exponent : Int) : List Char :=
  if exponent < 0 then
    '0' :: '.' :: (List.replicate (-exponent - 1).toNat '0' ++ digits)
  else
    let places := exponent.toNat + 1
    let whole := digits.take places
    let fraction := digits.drop places
    whole ++ List.replicate (places - whole.length) '0' ++ '.' :: (if fraction.isEmpty then ['0'] else fraction)

/-- One digit before the point and the exponent behind an `e`. -/
def scientific (exponentDigits : Nat) (digits : List Char) (exponent : Int) : List Char :=
  let fraction := digits.drop 1
  let power := Nat.toDigits 10 exponent.natAbs
  digits.take 1 ++ (if fraction.isEmpty then [] else '.' :: fraction) ++
    'e' :: (if exponent < 0 then '-' else '+') :: (List.replicate (exponentDigits - power.length) '0' ++ power)

/-- A decimal, without the zeros at the end of its digits. -/
def Layout.write (layout : Layout) (decimal : Decimal) : List Char :=
  let allDigits := Nat.toDigits 10 decimal.digits
  let exponent := decimal.exponent + (allDigits.length - 1)
  let digits := (allDigits.reverse.dropWhile (· = '0')).reverse
  if layout.positionalFrom ≤ exponent ∧ exponent < layout.positionalBelow then positional digits exponent
  else scientific layout.exponentDigits digits exponent

/-- The text of a float without its sign. -/
def unsignedText (bits : Nat) : List Char :=
  if bits = 0 then positional ['0'] 0
  else layout.write (Magnitude.ofBits bits).shortest

def text (value : Float) : String :=
  if value.isNaN then "nan"
  else
    let bits := value.toBits.toNat
    let sign := if bits < signBit then [] else ['-']
    let magnitude := bits % signBit
    if value.isInf then String.ofList (sign ++ ['i', 'n', 'f'])
    else String.ofList (sign ++ unsignedText magnitude)

end Calculator.Binary64
