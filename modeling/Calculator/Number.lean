import Calculator.Arithmetic
import Calculator.Binary64.Nearest
import Calculator.Binary64.Text
import Calculator.Numeral

/-!
# Numbers

A number is a whole number of any size or a binary64 float. Whole numbers stay whole and exact under
every operation but division, which rounds the exact quotient once. A whole number that meets a float is
rounded to a float first. Dividing by a zero of either kind fails, and so does leaving the range of the
floats by rounding; inside float arithmetic infinities and NaNs arise without failure.
-/

namespace Calculator

inductive Number where
  | int (value : Int)
  | float (value : Float)

inductive ArithmeticError where
  /-- A whole number was divided by the whole number zero. -/
  | intDivisionByZero
  /-- A zero float was the divisor, or a zero of any kind the divisor of a float. -/
  | floatDivisionByZero
  /-- A whole number beyond the range of the floats met a float. -/
  | intTooLarge
  /-- The quotient of two whole numbers is beyond the range of the floats. -/
  | quotientTooLarge
  deriving DecidableEq, Repr

namespace ArithmeticError

def message : ArithmeticError → String
  | intDivisionByZero => "division by zero"
  | floatDivisionByZero => "float division by zero"
  | intTooLarge => "int too large to convert to float"
  | quotientTooLarge => "integer division result too large for a float"

/-- Whether the range of the floats was left, rather than a division by zero tried. -/
def isOverflow : ArithmeticError → Bool
  | intDivisionByZero | floatDivisionByZero => false
  | intTooLarge | quotientTooLarge => true

end ArithmeticError

namespace Number

def toFloat : Number → Except ArithmeticError Float
  | int value => (Binary64.ofInt? value).elim (.error .intTooLarge) .ok
  | float value => .ok value

def neg : Number → Number
  | int value => .int (-value)
  | float value => .float (-value)

def applyInts (op : BinaryOp) (left right : Int) : Except ArithmeticError Number :=
  match op with
  | .add => .ok (.int (left + right))
  | .sub => .ok (.int (left - right))
  | .mul => .ok (.int (left * right))
  | .div =>
    if right = 0 then .error .intDivisionByZero
    else (Binary64.ofQuotient? left right).elim (.error .quotientTooLarge) (.ok ∘ .float)

def applyFloats (op : BinaryOp) (left right : Float) : Except ArithmeticError Number :=
  match op with
  | .add => .ok (.float (left + right))
  | .sub => .ok (.float (left - right))
  | .mul => .ok (.float (left * right))
  | .div => if right == 0 then .error .floatDivisionByZero else .ok (.float (left / right))

def apply (op : BinaryOp) : Number → Number → Except ArithmeticError Number
  | int left, int right => applyInts op left right
  | left, right => do
    let leftFloat ← left.toFloat
    let rightFloat ← right.toFloat
    applyFloats op leftFloat rightFloat

def arithmetic : Arithmetic Number ArithmeticError where
  ofInt := .int
  neg := .ok ∘ neg
  apply := apply

def text : Number → Except NumeralError String
  | int value => Numeral.write value
  | float value => .ok (Binary64.text value)

end Number

end Calculator
