import Calculator.Expr.Items

/-!
# The expression of a list of tokens

The tokens are nested by their brackets and the items of the top level are the range of the whole
expression.
-/

namespace Calculator

/-- Why a list of tokens has no expression. -/
inductive ParseError where
  | unmatchedClosing (error : UnmatchedClosing)
  | range (error : RangeError)
  deriving DecidableEq, Repr

namespace Expr

def ofTokens (tokens : List Token) : Except ParseError Expr := do
  let items ← (nest tokens).mapError .unmatchedClosing
  (ofItems items).mapError .range

/-- A note on how the tokens were grouped, for those who follow the construction of an expression. -/
def groupingNote (items : List Item) : Except NumeralError String :=
  return "Grouped expression: " ++ (← (Item.group items).outline)

end Expr

end Calculator
