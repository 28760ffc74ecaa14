import Mathlib.Data.List.DropRight
import Calculator.Proofs.Balance
import Calculator.Proofs.Spelling

/-!
# The caret under a bracket

The message about a closing bracket that nothing opened shows the tokens of the text once more and, on the
line below, a caret. The tokens are refused at a place among the tokens, while the caret stands under a
character, and the characters are not those of the text: spaces and leading zeros are gone and every
multiplication is an asterisk. Nevertheless the caret stands under a closing bracket, and it is the first
one that closes more than was opened, in the line that is shown as in the text that was read
(`caret_below_first_excess`).

Tokens have the brackets of their spelling, in the same order (`filterMap_bracket?_of_writtenAs`). So the
spelling of the tokens in front of the bracket is as long as the caret is far from the margin, and it
closes no more than it opens.
-/

namespace Calculator

/-- What stands behind the last line break of a text. -/
def lastLine (text : String) : List Char :=
  text.toList.rtakeWhile (· ≠ '\n')

theorem lastLine_append {line : String} (h : '\n' ∉ line.toList) (text : String) :
    lastLine (text ++ "\n" ++ line) = line.toList := by
  have hkept : ∀ c ∈ line.toList.reverse, decide (c ≠ '\n') = true := by
    intro c hc
    exact decide_eq_true fun heq => h (heq ▸ List.mem_reverse.1 hc)
  rw [lastLine, String.toList_append, List.rtakeWhile, List.reverse_append, List.takeWhile_append_of_pos hkept]
  simp

/-- At this place stands a closing bracket, and with it more brackets are closed than opened for the first
time. -/
structure IsFirstExcess (chars : List Char) (place : Nat) : Prop where
  closing : chars[place]? = some ')'
  excess : (chars.take (place + 1)).count '(' < (chars.take (place + 1)).count ')'
  first : ∀ earlier < place, (chars.take (earlier + 1)).count ')' ≤ (chars.take (earlier + 1)).count '('

/-! ### The spelling of the tokens in front of a bracket -/

section Written

variable {tokens front back : List Token} {lexemes frontLexemes backLexemes : List Lexeme}

theorem Token.WrittenAs.filterMap_bracket? {token : Token} {lexeme : Lexeme} (h : token.WrittenAs lexeme) :
    [token].filterMap bracket? = lexeme.chars.filterMap Bracket.ofChar? := by
  cases h with
  | @name c hc =>
    have hnone : Bracket.ofChar? c = none := by
      unfold Bracket.ofChar?
      split <;> simp_all [IsNameChar]
    simp [bracket?, Lexeme.chars, hnone]
  | @number n hn =>
    refine (List.filterMap_eq_nil_iff.2 fun c hc => ?_).symm
    exact Bracket.ofChar?_of_isDigit (Nat.isDigit_of_mem_toDigits (by decide) (by decide) hc)
  | operator op => rcases op with _ | (_ | _ | _ | _) <;> rfl
  | bracket side => cases side <;> rfl

theorem filterMap_bracket?_of_writtenAs (h : List.Forall₂ Token.WrittenAs tokens lexemes) :
    tokens.filterMap Token.bracket? = (lexemes.flatMap Lexeme.chars).filterMap Bracket.ofChar? := by
  induction h with
  | nil => rfl
  | @cons token lexeme tokens lexemes htoken _ ih =>
    rw [List.flatMap_cons, List.filterMap_append, ← ih, ← htoken.filterMap_bracket?, ← List.filterMap_append,
      List.singleton_append]

/-- The first closing bracket in excess stands behind the spelling of the tokens in front of it. -/
theorem isFirstExcess_of_writtenAs (hfront : List.Forall₂ Token.WrittenAs front frontLexemes)
    (hover : Overclosed (front ++ [.bracket .closing])) (hfewer : ∀ fewer, fewer <+: front → ¬ Overclosed fewer)
    (behind : List Char) :
    IsFirstExcess (frontLexemes.flatMap Lexeme.chars ++ ')' :: behind) (frontLexemes.flatMap Lexeme.chars).length where
  closing := by simp
  excess := by
    have hbrackets := filterMap_bracket?_of_writtenAs (List.rel_append hfront (.cons (.bracket .closing) .nil))
    rw [List.flatMap_append] at hbrackets
    rw [List.append_cons, List.take_left' (by simp)]
    exact (overclosed_iff_of_brackets hbrackets).1 hover
  first earlier hearlier := by
    rw [List.take_append_of_le_length hearlier]
    exact count_le_of_brackets (filterMap_bracket?_of_writtenAs hfront) hfewer (List.take_prefix _ _)

end Written

/-! ### The message -/

theorem toList_pushn (text : String) (c : Char) (count : Nat) :
    (text.pushn c count).toList = text.toList ++ List.replicate count c := by
  induction count with
  | zero => simp [String.pushn_eq_repeat_push, Nat.repeat]
  | succ count ih =>
    rw [String.pushn_eq_repeat_push] at ih ⊢
    rw [Nat.repeat, String.toList_push, ih, List.replicate_succ', List.append_assoc]

namespace UnmatchedClosing

theorem exists_caret (error : UnmatchedClosing) {before line : String}
    (hbefore : spell (error.tokens.take error.index) = .ok before) (hline : spell error.tokens = .ok line) :
    ∃ caret, error.message = .ok ("Parser error: " ++ reason ++ "\n" ++ line ++ "\n" ++ caret) ∧
      caret.toList = List.replicate before.length ' ' ++ ['^'] := by
  refine ⟨"".pushn ' ' before.length ++ "^", ?_, ?_⟩
  · rw [message, hbefore, hline]
    rfl
  · rw [String.toList_append, toList_pushn]
    rfl

end UnmatchedClosing

/-- A text that is read as tokens has no expression exactly if at some point it closes more brackets than it
opens. The message shows the tokens, and the caret on the line below is under the first place where they
do so. -/
theorem caret_below_first_excess {text : String} {tokens : List Token} (htokens : tokenize text = .ok tokens) :
    ((∃ error, Expr.ofTokens tokens = .error (.unmatchedClosing error)) ↔
        ∃ front, front <+: text.toList ∧ front.count '(' < front.count ')') ∧
      ∀ error, Expr.ofTokens tokens = .error (.unmatchedClosing error) →
        ∃ shown message place, spell tokens = .ok shown ∧ error.message = .ok message ∧
          message = "Parser error: Unmatched closing bracket" ++ "\n" ++ shown ++ "\n" ++
            String.ofList (lastLine message) ∧
          (lastLine message).length = place + 1 ∧ IsFirstExcess shown.toList place := by
  simp only [Expr.ofTokens_eq_unmatchedClosing_iff]
  constructor
  · have hmatched := not_congr (closingsMatched_iff htokens)
    simp only [ClosingsMatched, not_forall, Nat.not_le, not_not, exists_prop] at hmatched
    rw [exists_nest_eq_error_iff]
    exact hmatched.symm
  · intro error herror
    obtain ⟨front, back, rfl, rfl, hover, hfewer⟩ := exists_of_nest_eq_error herror
    obtain ⟨frontLexemes, hfront⟩ := Token.exists_forall₂_writtenAs fun token htoken =>
      exists_writtenAs_of_tokenize htokens (List.mem_append_left _ htoken)
    obtain ⟨backLexemes, hback⟩ := Token.exists_forall₂_writtenAs fun token htoken =>
      exists_writtenAs_of_tokenize htokens (List.mem_append_right _ (List.mem_cons_of_mem _ htoken))
    have hshown := Token.spell_of_writtenAs (List.rel_append hfront (.cons (.bracket .closing) hback))
    have htake : (front ++ .bracket .closing :: back).take front.length = front := List.take_left
    have hbefore := Token.spell_of_writtenAs hfront
    rw [← htake] at hbefore
    obtain ⟨caret, hmessage, hcaret⟩ := UnmatchedClosing.exists_caret ⟨_, front.length⟩ hbefore hshown
    have hplain : '\n' ∉ caret.toList := by
      rw [hcaret]
      simp
    have hlast := lastLine_append hplain
    refine ⟨_, _, (frontLexemes.flatMap Lexeme.chars).length, hshown, hmessage, ?_, ?_, ?_⟩
    · rw [hlast, String.ofList_toList]
      rfl
    · rw [hlast, hcaret]
      simp
    · rw [String.toList_ofList, List.flatMap_append, List.flatMap_cons]
      exact isFirstExcess_of_writtenAs hfront hover hfewer _

/-- The second of two closing brackets, in a text with spaces, leading zeros and a dot. It is the token with
the index 7, and the caret is under the place 8. -/
theorem caret_below_bracket_behind_product :
    let tokens : List Token := [.number 12, .operator (.binary .mul), .bracket .opening, .number 7,
      .operator (.binary .sub), .variable "x", .bracket .closing, .bracket .closing, .operator (.binary .add),
      .number 1]
    let message := "Parser error: Unmatched closing bracket\n12*(7-x))+1\n        ^"
    tokenize "12⋅(007 - x))+1" = .ok tokens ∧
      Expr.ofTokens tokens = .error (.unmatchedClosing ⟨tokens, 7⟩) ∧
      spell tokens = .ok "12*(7-x))+1" ∧ UnmatchedClosing.message ⟨tokens, 7⟩ = .ok message ∧
      (lastLine message).length = 9 ∧ IsFirstExcess "12*(7-x))+1".toList 8 := by
  intro tokens message
  have htokens : tokenize "12⋅(007 - x))+1" = .ok tokens := by decide +kernel
  have hrefused : Expr.ofTokens tokens = .error (.unmatchedClosing ⟨tokens, 7⟩) := by decide +kernel
  have hspell : spell tokens = .ok "12*(7-x))+1" := by decide +kernel
  have hmessage : UnmatchedClosing.message ⟨tokens, 7⟩ = .ok message := by decide +kernel
  have hlength : (lastLine message).length = 9 := by decide +kernel
  obtain ⟨shown, found, place, hshown, hfound, -, hplace, hfirst⟩ := (caret_below_first_excess htokens).2 _ hrefused
  obtain rfl := Except.ok.inj (hspell.symm.trans hshown)
  obtain rfl := Except.ok.inj (hmessage.symm.trans hfound)
  obtain rfl : place = 8 := by omega
  exact ⟨htokens, hrefused, hspell, hmessage, hlength, hfirst⟩

end Calculator
