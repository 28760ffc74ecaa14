import Calculator.Session
import Calculator.Tour

/-!
# The command line

Without arguments a session on standard input, and with `tour` the tour.
-/

namespace Calculator

def prompt : String := "> "

/-- Read lines to the end of input, and print what the session prints. A failure that ends the session is
printed on standard error. -/
partial def converse (session : Session) : IO UInt32 := do
  IO.print prompt
  (← IO.getStdout).flush
  let line ← (← IO.getStdin).getLine
  if line.isEmpty then return 0
  match session.step (line.dropSuffix "\n").toString with
  | .ok (next, texts) =>
    texts.forM fun text => IO.println text
    converse next
  | .error failure =>
    match failure.message with
    | .ok message => IO.eprintln message
    | .error error => IO.eprintln error.message
    return 1

def showTour : IO UInt32 := do
  match Tour.lines with
  | .ok lines =>
    lines.forM fun line => IO.println line
    return 0
  | .error error =>
    IO.eprintln error.message
    return 1

end Calculator

def main : List String → IO UInt32
  | [] => Calculator.converse .start
  | ["tour"] => Calculator.showTour
  | _ => do
    IO.eprintln "usage: calculator [tour]"
    return 2
