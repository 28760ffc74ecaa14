/-!
# Operators

The four binary operators and the sign. An operator of a larger precedence binds its operands less
tightly, so it is the one at which an expression is split first.
-/

namespace Calculator

inductive BinaryOp where
  | mul
  | div
  | add
  | sub
  deriving DecidableEq, Repr

inductive Operator where
  /-- The sign of one operand, as in `-x`. -/
  | neg
  | binary (op : BinaryOp)
  deriving DecidableEq, Repr

namespace BinaryOp

def precedence : BinaryOp → Nat
  | mul | div => 2
  | add | sub => 3

/-- How the operator is spelled in a line of input. -/
def spelling : BinaryOp → String
  | mul => "*"
  | div => "/"
  | add => "+"
  | sub => "-"

/-- How the operator is shown as the label of a node. -/
def symbol : BinaryOp → String
  | mul => "⋅"
  | div => "/"
  | add => "+"
  | sub => "-"

def name : BinaryOp → String
  | mul => "MUL"
  | div => "DIV"
  | add => "ADD"
  | sub => "SUB"

theorem one_lt_precedence (op : BinaryOp) : 1 < op.precedence := by
  cases op <;> decide

end BinaryOp

namespace Operator

def precedence : Operator → Nat
  | neg => 1
  | binary op => op.precedence

/-- How the operator is spelled in a line of input: a sign and a subtraction look the same. -/
def spelling : Operator → String
  | neg => "-"
  | binary op => op.spelling

/-- How the operator is shown as the label of a node, where a sign is no hyphen. -/
def symbol : Operator → String
  | neg => "−"
  | binary op => op.symbol

def name : Operator → String
  | neg => "NEG"
  | binary op => op.name

def ofName? : String → Option Operator
  | "NEG" => some neg
  | "MUL" => some (binary .mul)
  | "DIV" => some (binary .div)
  | "ADD" => some (binary .add)
  | "SUB" => some (binary .sub)
  | _ => none

theorem ofName?_name (op : Operator) : ofName? op.name = some op := by
  rcases op with _ | (_ | _ | _ | _) <;> rfl

end Operator

end Calculator
