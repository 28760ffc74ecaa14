import Calculator.Calculation

/-!
# A tour of the calculator

A few lines of input, each shown with its tokens, its expression and its value or what is wrong with it.
-/

namespace Calculator.Tour

def samples : List String :=
  ["5", "-1", "1 + 1", "-1 + 1", "1 + -1", "4 + 6 * 3", "(4 + 6)", "(4+6) * 3", "80225/-2", "7/6/2000",
    "2-3-4", "--3", "2⋅x + y", "2 +", "()", "(1 + 2", "1 + 2)", "z * 2"]

def bindings : Bindings Number
  | "x" => some (.float 2)
  | "y" => some (.float 0.5)
  | _ => none

/-- The lines on the value of an expression. -/
def valueLines (expr : Expr) : Except NumeralError (List String) := do
  let structureLine := "ast: " ++ (← expr.describe)
  match expr.compute bindings with
  | .ok value => return [structureLine, "result: " ++ (← value.text)]
  | .error failure => return [structureLine, ← failure.message]

/-- The lines on one sample, behind a rule. -/
def sampleLines (sample : String) : Except NumeralError (List String) := do
  let tokens ← tokenize sample
  let tagged ← tokens.mapM Token.tagged
  let heading :=
    ["".pushn '=' 10, "code: " ++ Text.quoted sample, "tokens: " ++ " ".intercalate tagged]
  match Expr.ofTokens tokens with
  | .ok expr => return heading ++ (← valueLines expr)
  | .error error => return heading ++ (← (Failure.parse error).message).splitOn "\n"

def lines : Except NumeralError (List String) :=
  List.flatten <$> samples.mapM sampleLines

end Calculator.Tour
