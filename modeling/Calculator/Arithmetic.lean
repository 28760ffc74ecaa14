import Calculator.Operator

/-!
# Arithmetics

What evaluation needs to know of the values it computes with: how a whole number is one of them, and
what the operators do, each of which may fail.
-/

namespace Calculator

structure Arithmetic (ν ε : Type) where
  ofInt : Int → ν
  neg : ν → Except ε ν
  apply : BinaryOp → ν → ν → Except ε ν

end Calculator
