import Calculator.Evaluation
import Calculator.Expr.Tokens
import Calculator.Number
import Calculator.Token.Text

/-!
# Calculations

A line of input is cut into tokens, made an expression and evaluated over numbers. `Failure` collects
what can go wrong on the way, with the message of each.
-/

namespace Calculator

inductive Failure where
  | numeral (error : NumeralError)
  | parse (error : ParseError)
  | eval (error : EvalError ArithmeticError)
  deriving DecidableEq, Repr

namespace EvalError

/-- The fault of the expression, in the words that its message has behind the heading. -/
def reason : EvalError ArithmeticError → String
  | empty => "Empty expression"
  | missingOperand op => "Operand missing for " ++ Text.quoted op.symbol
  | unbound name => "Reference to unbound variable " ++ Text.quoted name
  | arithmetic error => error.message

/-- The reason, under a heading unless it is an operator that failed. -/
def message (error : EvalError ArithmeticError) : String :=
  match error with
  | arithmetic error => error.message
  | error => "[Runtime error] " ++ error.reason

end EvalError

namespace Failure

def message : Failure → Except NumeralError String
  | numeral error => return error.message
  | parse (.unmatchedClosing error) => error.message
  | parse (.range error) => return error.message
  | eval error => return error.message

end Failure

def parse (text : String) : Except Failure Expr := do
  let tokens ← (tokenize text).mapError .numeral
  (Expr.ofTokens tokens).mapError .parse

theorem parse_of_tokenize {text : String} {tokens : List Token} (h : tokenize text = .ok tokens) :
    parse text = (Expr.ofTokens tokens).mapError .parse := by
  rw [parse, h]
  rfl

def Expr.compute (bindings : Bindings Number) (expr : Expr) : Except Failure Number :=
  (expr.eval Number.arithmetic bindings).mapError .eval

def calculate (bindings : Bindings Number) (text : String) : Except Failure Number := do
  (← parse text).compute bindings

end Calculator
