import Calculator.Binary64.Reading
import Calculator.Calculation

/-!
# Sessions

A session reads lines. A line with an equals sign binds the name before it to the float behind it, and
prints nothing unless it is refused. Any other line is evaluated under the bindings made so far, and its
value or the message of its failure is printed. Two kinds of failure end the session instead: numerals
that are too long, and leaving the range of the floats.
-/

namespace Calculator

/-- The variables bound so far, the latest binding first. -/
structure Session where
  bound : List (Char × Float)

namespace Session

def start : Session := ⟨[]⟩

def bind (name : Char) (value : Float) (session : Session) : Session :=
  ⟨(name, value) :: session.bound⟩

/-- The bindings of a session: its names are single characters, its values floats. -/
def bindings (session : Session) : Bindings Number := fun name =>
  match name.toList with
  | [c] => (session.bound.lookup c).map .float
  | _ => none

inductive Request where
  | bind (name value : List Char)
  | compute (text : String)

/-- A line with an equals sign is cut at the first one. -/
def Request.ofLine (line : String) : Request :=
  match line.toList.span (· ≠ '=') with
  | (name, _ :: value) => .bind name value
  | (_, []) => .compute line

/-- Bind a name, or print why it cannot be bound. -/
def tryBind (name value : List Char) (session : Session) : Session × List String :=
  match Text.trim Text.isBlankOrSeparator name with
  | [c] =>
    match Binary64.read? value with
    | some float => (session.bind c float, [])
    | none =>
      let shown := String.ofList (Text.trim Text.isBlankOrSeparator value)
      (session, ["Not a number: " ++ Text.quoted shown])
  | name =>
    let shown := String.ofList name
    (session, ["Variable names are single characters, got " ++ Text.quoted shown])

/-- Whether a failure ends a session instead of being printed. -/
def isFatal : Failure → Bool
  | .numeral _ => true
  | .parse (.unmatchedClosing _) => false
  | .parse (.range _) => true
  | .eval (.arithmetic error) => error.isOverflow
  | .eval _ => false

/-- What is printed for a line without an equals sign. -/
def answer (session : Session) (text : String) : Except Failure String :=
  match calculate session.bindings text with
  | .ok value => value.text.mapError .numeral
  | .error failure => if isFatal failure then .error failure else failure.message.mapError .numeral

/-- Read one line: the session afterwards and what was printed. -/
def step (session : Session) (line : String) : Except Failure (Session × List String) :=
  match Request.ofLine line with
  | .bind name value => .ok (session.tryBind name value)
  | .compute text => do
    let printed ← session.answer text
    return (session, [printed])

/-- What happened in a session: the texts printed for every line that was read, and the failure that
ended it before its lines did. The line that failed is the last one read. -/
structure Transcript where
  printed : List (List String)
  failure : Option Failure

/-- Read lines until they end or one of them ends the session. -/
def run (session : Session) : List String → Transcript
  | [] => ⟨[], none⟩
  | line :: rest =>
    match session.step line with
    | .ok (next, texts) =>
      let transcript := next.run rest
      { transcript with printed := texts :: transcript.printed }
    | .error failure => ⟨[[]], some failure⟩

end Session

end Calculator
