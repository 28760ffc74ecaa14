/-!
# Lexemes

A text without spaces falls into lexemes: the longest runs of digits, and every other character alone.
Nothing is lost on the way (`flatMap_chars_cut`), every lexeme is of one of the two kinds
(`wellFormed_of_mem_cut`) and no two numerals are neighbours (`separated_cut`). Together these determine
the cut (`cut_flatMap_chars`).
-/

namespace Calculator

inductive Lexeme where
  /-- A longest run of the digits `0` to `9`. -/
  | numeral (digits : List Char)
  /-- A single character that is no such digit. -/
  | mark (c : Char)
  deriving DecidableEq, Repr

namespace Lexeme

def chars : Lexeme → List Char
  | numeral digits => digits
  | mark c => [c]

/-- A digit in front belongs to the numeral that follows, or is a numeral of its own. -/
def consDigit (c : Char) : List Lexeme → List Lexeme
  | numeral digits :: rest => numeral (c :: digits) :: rest
  | rest => numeral [c] :: rest

def cut : List Char → List Lexeme
  | [] => []
  | c :: rest => if c.isDigit then consDigit c (cut rest) else mark c :: cut rest

/-- A minus is the sign of what follows at the start of a text and after an opening bracket, `*`, `+`,
`/` or `-`. After anything else, the multiplication dot included, it subtracts. -/
def opensOperand (before : Option Lexeme) : Bool :=
  match before with
  | none => true
  | some (mark c) => c ∈ ['(', '*', '+', '/', '-']
  | some (numeral _) => false

theorem flatMap_chars_consDigit (c : Char) (lexemes : List Lexeme) :
    (consDigit c lexemes).flatMap chars = c :: lexemes.flatMap chars := by
  unfold consDigit
  split <;> rfl

theorem flatMap_chars_cut (text : List Char) : (cut text).flatMap chars = text := by
  induction text with
  | nil => rfl
  | cons c rest ih =>
    rw [cut]
    split
    · rw [flatMap_chars_consDigit, ih]
    · rw [List.flatMap_cons, ih]
      rfl

/-- A numeral is not empty and has only digits, a mark is no digit. -/
def WellFormed : Lexeme → Prop
  | numeral digits => digits ≠ [] ∧ ∀ c ∈ digits, c.isDigit
  | mark c => ¬ c.isDigit

theorem wellFormed_of_mem_consDigit {c : Char} {lexemes : List Lexeme} (hc : c.isDigit)
    (h : ∀ l ∈ lexemes, l.WellFormed) : ∀ l ∈ consDigit c lexemes, l.WellFormed := by
  unfold consDigit
  split
  · rename_i digits rest
    intro l hl
    rcases List.mem_cons.1 hl with rfl | hl
    · refine ⟨List.cons_ne_nil c digits, fun d hd => ?_⟩
      rcases List.mem_cons.1 hd with rfl | hd
      · exact hc
      · exact (h _ List.mem_cons_self).2 d hd
    · exact h l (List.mem_cons_of_mem _ hl)
  · intro l hl
    rcases List.mem_cons.1 hl with rfl | hl
    · exact ⟨List.cons_ne_nil c [], fun d hd => List.mem_singleton.1 hd ▸ hc⟩
    · exact h l hl

theorem wellFormed_of_mem_cut (text : List Char) : ∀ l ∈ cut text, l.WellFormed := by
  induction text with
  | nil => exact fun l hl => nomatch hl
  | cons c rest ih =>
    rw [cut]
    split
    · rename_i hc
      exact wellFormed_of_mem_consDigit hc ih
    · rename_i hc
      intro l hl
      rcases List.mem_cons.1 hl with rfl | hl
      · exact hc
      · exact ih l hl

def IsNumeral : Lexeme → Prop
  | numeral _ => True
  | mark _ => False

/-- Two neighbours are not both numerals. -/
def Separated : List Lexeme → Prop
  | [] => True
  | lexeme :: rest => (lexeme.IsNumeral → ∀ next ∈ rest.head?, ¬ next.IsNumeral) ∧ Separated rest

theorem separated_consDigit {c : Char} :
    ∀ {lexemes : List Lexeme}, Separated lexemes → Separated (consDigit c lexemes)
  | [], h => ⟨fun _ _ hnext => (nomatch hnext), h⟩
  | numeral _ :: _, h => h
  | mark _ :: _, h => ⟨fun _ _ hnext => Option.some.inj hnext ▸ fun hmark => hmark, h⟩

theorem separated_cut (text : List Char) : Separated (cut text) := by
  induction text with
  | nil => trivial
  | cons c rest ih =>
    rw [cut]
    split
    · exact separated_consDigit ih
    · exact ⟨fun hmark => hmark.elim, ih⟩

/-! ### The cut is the only one -/

theorem cut_cons_mark {c : Char} (hc : ¬ c.isDigit) (rest : List Char) : cut (c :: rest) = mark c :: cut rest := by
  rw [cut, if_neg hc]

theorem consDigit_append_mark (digit c : Char) (front back : List Lexeme) :
    consDigit digit (front ++ mark c :: back) = consDigit digit front ++ mark c :: back := by
  cases front with
  | nil => rfl
  | cons lexeme front => cases lexeme <;> rfl

/-- A character that is no digit keeps what is in front of it apart from what is behind it. -/
theorem cut_append_mark {c : Char} (hc : ¬ c.isDigit) (front back : List Char) :
    cut (front ++ c :: back) = cut front ++ mark c :: cut back := by
  induction front with
  | nil => exact cut_cons_mark hc back
  | cons first front ih =>
    rw [List.cons_append, cut, cut, ih]
    split
    · exact consDigit_append_mark first c (cut front) (cut back)
    · rfl

theorem cut_digits_append {digits rest : List Char} (hne : digits ≠ []) (hdigits : ∀ c ∈ digits, c.isDigit)
    (hrest : ∀ next ∈ (cut rest).head?, ¬ next.IsNumeral) : cut (digits ++ rest) = numeral digits :: cut rest := by
  induction digits with
  | nil => exact absurd rfl hne
  | cons c digits ih =>
    rw [List.cons_append, cut, if_pos (hdigits c List.mem_cons_self)]
    cases digits with
    | nil =>
      rw [List.nil_append]
      cases hcut : cut rest with
      | nil => rfl
      | cons next lexemes =>
        cases next with
        | numeral others =>
          have hnot := hrest (numeral others) (by rw [hcut]; rfl)
          exact (hnot trivial).elim
        | mark _ => rfl
    | cons d digits =>
      rw [ih (List.cons_ne_nil d digits) fun e he => hdigits e (List.mem_cons_of_mem c he)]
      rfl

theorem cut_flatMap_chars {lexemes : List Lexeme} (hwf : ∀ l ∈ lexemes, l.WellFormed) (hsep : Separated lexemes) :
    cut (lexemes.flatMap chars) = lexemes := by
  induction lexemes with
  | nil => rfl
  | cons lexeme rest ih =>
    have hrest := ih (fun l hl => hwf l (List.mem_cons_of_mem lexeme hl)) hsep.2
    have hlexeme := hwf lexeme List.mem_cons_self
    rw [List.flatMap_cons]
    cases lexeme with
    | numeral digits =>
      rw [chars, cut_digits_append hlexeme.1 hlexeme.2 (hrest.symm ▸ hsep.1 trivial), hrest]
    | mark c => rw [chars, List.singleton_append, cut_cons_mark hlexeme, hrest]

end Lexeme

end Calculator
