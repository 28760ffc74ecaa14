import Calculator.Token

/-!
# Items

Brackets turn a list of tokens into a list of items, each a token or the group of items between a
pair of brackets. A bracket that is never closed is closed by the end of the list. A closing
bracket that nothing opened is the one thing refused: `nest` then tells where it stands.
-/

namespace Calculator

inductive Item where
  | token (token : Token)
  | group (items : List Item)

namespace Item

mutual
/-- The tokens of an item: a group is written with its brackets. -/
def tokens : Item → List Token
  | token t => [t]
  | group items => .bracket .opening :: (allTokens items ++ [.bracket .closing])

def allTokens : List Item → List Token
  | [] => []
  | item :: rest => item.tokens ++ allTokens rest
end

mutual
/-- An item on one line: tokens with their kinds, groups in square brackets. -/
def outline : Item → Except NumeralError String
  | token t => t.tagged
  | group items => return "[" ++ " ".intercalate (← outlines items) ++ "]"

def outlines : List Item → Except NumeralError (List String)
  | [] => return []
  | item :: rest => do
    let first ← item.outline
    let others ← outlines rest
    return first :: others
end

end Item

/-- The levels of brackets that are open somewhere in a list of tokens. Every level holds its items
with the last one first, and the enclosing levels come with the innermost first. -/
structure Levels where
  current : List Item
  enclosing : List (List Item)

namespace Levels

/-- The top level, before anything was read. -/
def start : Levels := ⟨[], []⟩

def push (item : Item) (levels : Levels) : Levels :=
  { levels with current := item :: levels.current }

def enter (levels : Levels) : Levels :=
  ⟨[], levels.current :: levels.enclosing⟩

/-- Close the current level, unless it is the top one. -/
def leave? : Levels → Option Levels
  | ⟨_, []⟩ => none
  | ⟨current, outer :: enclosing⟩ => some ⟨.group current.reverse :: outer, enclosing⟩

def read? (levels : Levels) : Token → Option Levels
  | .bracket .opening => some levels.enter
  | .bracket .closing => levels.leave?
  | token => some (levels.push (.token token))

/-- Read tokens, the first of which has the given index. The error is the index of a closing bracket
on the top level. -/
def readAll (levels : Levels) (index : Nat) : List Token → Except Nat Levels
  | [] => .ok levels
  | token :: rest =>
    match levels.read? token with
    | some next => next.readAll (index + 1) rest
    | none => .error index

/-- The items of the top level once all others are closed. -/
def items : Levels → List Item
  | ⟨current, enclosing⟩ =>
    (enclosing.foldl (fun inner outer => .group inner.reverse :: outer) current).reverse

end Levels

/-- A closing bracket that nothing opened: all the tokens, and its index among them. -/
structure UnmatchedClosing where
  tokens : List Token
  index : Nat
  deriving DecidableEq, Repr

namespace UnmatchedClosing

def reason : String := "Unmatched closing bracket"

/-- The reason, the tokens, and below them a caret that points at the bracket. -/
def message (error : UnmatchedClosing) : Except NumeralError String := do
  let before ← spell (error.tokens.take error.index)
  let line ← spell error.tokens
  let caret := "".pushn ' ' before.length ++ "^"
  return "\n".intercalate ["Parser error: " ++ reason, line, caret]

end UnmatchedClosing

def nest (tokens : List Token) : Except UnmatchedClosing (List Item) :=
  match Levels.start.readAll 0 tokens with
  | .ok levels => .ok levels.items
  | .error index => .error ⟨tokens, index⟩

end Calculator
