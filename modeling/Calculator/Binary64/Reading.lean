import Calculator.Binary64.Decimal
import Calculator.Text.Blank
import Calculator.Text.Digit

/-!
# Reading a binary64 number

A float is typed as a decimal, with a sign, a point and an exponent if need be, or as the name of an
infinity or of NaN in small or capital letters. Blanks around it are ignored, the digits may be those of
any script, and a single underscore may stand between two digits.
-/

namespace Calculator.Binary64

def startsWithDigit : List Char → Bool
  | c :: _ => c.isDigit
  | [] => false

/-- The text without its underscores, if each of them stands between two digits. The flag tells whether a
digit came before the text. -/
def withoutUnderscores? (afterDigit : Bool) : List Char → Option (List Char)
  | [] => some []
  | c :: rest =>
    if c = '_' then
      if afterDigit && startsWithDigit rest then withoutUnderscores? false rest else none
    else (c :: ·) <$> withoutUnderscores? c.isDigit rest

/-- A sign, if there is one, and the text behind it. -/
def takeSign : List Char → Bool × List Char
  | '-' :: rest => (true, rest)
  | '+' :: rest => (false, rest)
  | text => (false, text)

/-- The power of ten behind the digits: nothing, or a letter `e` and a whole number. -/
def exponent? : List Char → Option Int
  | [] => some 0
  | e :: rest =>
    let (negative, digits) := takeSign rest
    if (e = 'e' ∨ e = 'E') ∧ digits ≠ [] ∧ digits.all Char.isDigit then
      let value : Int := Nat.ofDigitChars 10 digits 0
      some (if negative then -value else value)
    else none

/-- The digits behind a decimal point, if there is one, and the text behind them. -/
def takeFraction : List Char → List Char × List Char
  | '.' :: rest => (rest.takeWhile Char.isDigit, rest.dropWhile Char.isDigit)
  | text => ([], text)

/-- A decimal without its sign. There has to be a digit before or behind the point. -/
def decimal? (text : List Char) : Option Decimal :=
  let whole := text.takeWhile Char.isDigit
  let (fraction, rest) := takeFraction (text.dropWhile Char.isDigit)
  if whole.isEmpty ∧ fraction.isEmpty then none
  else (exponent? rest).map fun exponent =>
    ⟨Nat.ofDigitChars 10 (whole ++ fraction) 0, exponent - fraction.length⟩

/-- The special value that a name in small letters stands for. -/
def special? (negative : Bool) (name : String) : Option Float :=
  match name with
  | "inf" | "infinity" => some (infinity negative)
  | "nan" => some nan
  | _ => none

/-- The float that a text stands for. -/
def read? (text : List Char) : Option Float := do
  let plain ← withoutUnderscores? false ((Text.trim Text.isBlank text).map Text.plainDigit)
  let (negative, unsigned) := takeSign plain
  match special? negative (String.ofList (unsigned.map Char.toLower)) with
  | some value => return value
  | none => return (← decimal? unsigned).toFloat negative

end Calculator.Binary64
