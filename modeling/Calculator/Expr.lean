import Calculator.Token
import Calculator.Text.Quoted

/-!
# Expressions

An expression is a tree of operators over numbers and variables. Where a line of input had nothing to
offer for an operand, or nothing at all, the tree has `absent` in its place: such a tree can be built,
shown and compared, and only its evaluation fails.
-/

namespace Calculator

inductive Expr where
  | absent
  | number (value : Int)
  | variable (name : String)
  | neg (operand : Expr)
  | binary (op : BinaryOp) (left right : Expr)
  deriving DecidableEq, Repr

namespace Expr

/-- The operand under a number of signs. -/
def negTimes (signs : Nat) (operand : Expr) : Expr :=
  Nat.repeat neg signs operand

/-- Nothing is absent. -/
def Complete : Expr → Prop
  | absent => False
  | number _ | .variable _ => True
  | neg operand => operand.Complete
  | binary _ left right => left.Complete ∧ right.Complete

instance decidableComplete : (expr : Expr) → Decidable expr.Complete
  | absent => .isFalse id
  | number _ | .variable _ => .isTrue trivial
  | neg operand => decidableComplete operand
  | binary _ left right =>
    have := decidableComplete left
    have := decidableComplete right
    inferInstanceAs (Decidable (left.Complete ∧ right.Complete))

/-- The text that stands for the root alone, if there is one. -/
def label : Expr → Except NumeralError (Option String)
  | absent => return none
  | number value => return some (← Numeral.write value)
  | .variable name => return some name
  | neg _ => return some Operator.neg.symbol
  | binary op _ _ => return some op.symbol

/-- A text with the whole structure of an expression written behind it. -/
def describeAfter (text : String) : Expr → Except NumeralError String
  | absent => return text ++ "None"
  | number value => return text ++ "NumberConstant(value=" ++ (← Numeral.write value) ++ ")"
  | .variable name => return text ++ "Variable(name=" ++ Text.quoted name ++ ")"
  | neg operand => do
    let text ← operand.describeAfter (text ++ "UnaryOperation(operator=NEG, operand=")
    return text ++ ")"
  | binary op left right => do
    let text ← left.describeAfter (text ++ "BinaryOperation(operator=" ++ op.name ++ ", left=")
    let text ← right.describeAfter (text ++ ", right=")
    return text ++ ")"

/-- The whole structure of an expression on one line. -/
def describe (expr : Expr) : Except NumeralError String :=
  expr.describeAfter ""

end Expr

end Calculator
