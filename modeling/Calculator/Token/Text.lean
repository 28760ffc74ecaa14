import Calculator.Token
import Calculator.Lexeme

/-!
# The tokens of a text

Spaces are dropped first, so the digits of one numeral may stand apart. Then every lexeme is a token,
and only a minus depends on the lexeme before it. A character without a meaning of its own is the name of
a variable, so the one thing refused is a numeral with too many digits.
-/

namespace Calculator

namespace Token

/-- The token of a character that is neither a space nor a digit. The flag is for a minus. -/
def ofMark (isSign : Bool) : Char → Token
  | '+' => .operator (.binary .add)
  | '*' | '⋅' => .operator (.binary .mul)
  | '/' => .operator (.binary .div)
  | '-' => .operator (if isSign then .neg else .binary .sub)
  | '(' => .bracket .opening
  | ')' => .bracket .closing
  | c => .variable (String.singleton c)

def ofLexeme (before : Option Lexeme) : Lexeme → Except NumeralError Token
  | .numeral digits => return .number (← Numeral.read digits)
  | .mark c => return ofMark (Lexeme.opensOperand before) c

/-- The tokens of the lexemes that follow `before`. -/
def ofLexemes (before : Option Lexeme) : List Lexeme → Except NumeralError (List Token)
  | [] => return []
  | lexeme :: rest => do
    let token ← ofLexeme before lexeme
    let tokens ← ofLexemes (some lexeme) rest
    return token :: tokens

def significant (text : String) : List Char :=
  text.toList.filter (· ≠ ' ')

end Token

def tokenize (text : String) : Except NumeralError (List Token) :=
  Token.ofLexemes none (Lexeme.cut (Token.significant text))

end Calculator
