import Calculator.Numeral
import Calculator.Operator

/-!
# Tokens

A line of input is a list of tokens. `Token.spelling` writes a token the way it is typed and `spell` a
whole list of them, without spaces; `Token.tagged` shows what kind of token it is.
-/

namespace Calculator

inductive Bracket where
  | opening
  | closing
  deriving DecidableEq, Repr

def Bracket.spelling : Bracket → String
  | opening => "("
  | closing => ")"

def Bracket.name : Bracket → String
  | opening => "OPEN"
  | closing => "CLOSE"

inductive Token where
  | variable (name : String)
  | number (value : Int)
  | operator (op : Operator)
  | bracket (side : Bracket)
  deriving DecidableEq, Repr

namespace Token

/-- Only a number can be too long to be spelled. -/
def spelling : Token → Except NumeralError String
  | .variable name => .ok name
  | .number value => Numeral.write value
  | .operator op => .ok op.spelling
  | .bracket side => .ok side.spelling

/-- The spelling behind the kind of the token, which stands in angle brackets. A bracket is just named. -/
def tagged : Token → Except NumeralError String
  | .variable name => .ok ("<VARIABLE>" ++ name)
  | .number value => return "<NUMBER>" ++ (← Numeral.write value)
  | .operator op => .ok ("<" ++ op.name ++ ">" ++ op.spelling)
  | .bracket side => .ok side.name

end Token

def spell (tokens : List Token) : Except NumeralError String :=
  String.join <$> tokens.mapM Token.spelling

end Calculator
