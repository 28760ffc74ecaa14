import Calculator.Calculation
import Calculator.Proofs.Lexing

/-!
# The two signs of multiplication

The dot `⋅` and the asterisk are one operator, yet a text may mean something else when its dots are
replaced by asterisks: a minus behind an asterisk is a sign and behind a dot it subtracts. This is the
only difference. A text that is refused stays refused, for the same reason, and any other text keeps its
tokens exactly if no dot has a minus behind it, spaces aside (`withAsterisks_eq_iff`).
-/

namespace Calculator

def asterisk (c : Char) : Char :=
  if c = '⋅' then '*' else c

/-- The text with every multiplication dot replaced by an asterisk. -/
def withAsterisks (text : String) : String :=
  text.map asterisk

@[simp] theorem asterisk_dot : asterisk '⋅' = '*' :=
  rfl

theorem asterisk_of_ne {c : Char} (h : c ≠ '⋅') : asterisk c = c :=
  if_neg h

theorem isDigit_asterisk (c : Char) : (asterisk c).isDigit = c.isDigit := by
  by_cases hc : c = '⋅'
  · subst hc
    decide
  · rw [asterisk_of_ne hc]

theorem asterisk_eq_space_iff {c : Char} : asterisk c = ' ' ↔ c = ' ' := by
  by_cases hc : c = '⋅'
  · subst hc
    decide
  · rw [asterisk_of_ne hc]

theorem significant_withAsterisks (text : String) :
    Token.significant (withAsterisks text) = (Token.significant text).map asterisk := by
  rw [Token.significant, Token.significant, withAsterisks, String.toList_map, List.filter_map]
  congr 2
  funext c
  simp [asterisk_eq_space_iff]

/-! ### Lexemes -/

namespace Lexeme

def withAsterisk : Lexeme → Lexeme
  | numeral digits => numeral digits
  | mark c => mark (asterisk c)

theorem consDigit_map_withAsterisk (c : Char) (lexemes : List Lexeme) :
    consDigit c (lexemes.map withAsterisk) = (consDigit c lexemes).map withAsterisk := by
  cases lexemes with
  | nil => rfl
  | cons lexeme rest => cases lexeme <;> rfl

theorem cut_map_asterisk (chars : List Char) : cut (chars.map asterisk) = (cut chars).map withAsterisk := by
  induction chars with
  | nil => rfl
  | cons c rest ih =>
    rw [List.map_cons, cut, cut, ih, isDigit_asterisk]
    by_cases hc : c.isDigit
    · have hdot : c ≠ '⋅' := by
        rintro rfl
        exact absurd hc (by decide)
      rw [if_pos hc, if_pos hc, asterisk_of_ne hdot, consDigit_map_withAsterisk]
    · rw [if_neg hc, if_neg hc]
      rfl

theorem opensOperand_map_withAsterisk {before : Option Lexeme} :
    opensOperand (before.map withAsterisk) = opensOperand before ↔ before ≠ some (mark '⋅') := by
  match before with
  | none => simp
  | some (numeral digits) => simp [withAsterisk, opensOperand]
  | some (mark c) =>
    by_cases hc : c = '⋅'
    · subst hc
      simp [withAsterisk, opensOperand]
    · simp [withAsterisk, asterisk_of_ne hc, hc]

/-! ### Neighbours -/

theorem singleton_prefix_cut_iff {d : Char} (hd : ¬ d.isDigit) {chars : List Char} :
    [mark d] <+: cut chars ↔ [d] <+: chars := by
  cases chars with
  | nil => simp [cut]
  | cons c rest =>
    rw [cut]
    by_cases hc : c.isDigit
    · have hne : d ≠ c := by
        rintro rfl
        exact hd hc
      rw [if_pos hc]
      unfold consDigit
      split <;> simp [List.cons_prefix_cons, hne]
    · rw [if_neg hc]
      simp [List.cons_prefix_cons]

theorem pair_infix_consDigit_iff {c d digit : Char} {lexemes : List Lexeme} :
    [mark c, mark d] <:+: consDigit digit lexemes ↔ [mark c, mark d] <:+: lexemes := by
  unfold consDigit
  split <;> simp [List.infix_cons_iff, List.cons_prefix_cons]

theorem pair_infix_cut_iff {c d : Char} (hc : ¬ c.isDigit) (hd : ¬ d.isDigit) {chars : List Char} :
    [mark c, mark d] <:+: cut chars ↔ [c, d] <:+: chars := by
  induction chars with
  | nil => simp [cut]
  | cons first rest ih =>
    rw [cut]
    by_cases hfirst : first.isDigit
    · have hne : c ≠ first := by
        rintro rfl
        exact hc hfirst
      rw [if_pos hfirst, pair_infix_consDigit_iff, ih, List.infix_cons_iff, List.cons_prefix_cons]
      simp [hne]
    · rw [if_neg hfirst, List.infix_cons_iff, List.infix_cons_iff, List.cons_prefix_cons, List.cons_prefix_cons,
        singleton_prefix_cut_iff hd, ih, mark.injEq]

end Lexeme

/-! ### Tokens -/

namespace Token

theorem ofMark_of_ne_minus {c : Char} (h : c ≠ '-') (isSign other : Bool) : ofMark isSign c = ofMark other c := by
  unfold ofMark
  split <;> first | rfl | exact absurd rfl h

theorem ofMark_asterisk (isSign : Bool) (c : Char) : ofMark isSign (asterisk c) = ofMark isSign c := by
  by_cases hc : c = '⋅'
  · subst hc
    rfl
  · rw [asterisk_of_ne hc]

theorem ofMark_minus_inj {isSign other : Bool} : ofMark isSign '-' = ofMark other '-' ↔ isSign = other := by
  cases isSign <;> cases other <;> simp [ofMark]

/-- A lexeme is the same token as before, unless it is a minus behind a dot. -/
theorem ofLexeme_withAsterisk_iff {before : Option Lexeme} {lexeme : Lexeme} :
    ofLexeme (before.map Lexeme.withAsterisk) lexeme.withAsterisk = ofLexeme before lexeme ↔
      ¬ (before = some (.mark '⋅') ∧ lexeme = .mark '-') := by
  cases lexeme with
  | numeral digits => simp [Lexeme.withAsterisk, ofLexeme]
  | mark c =>
    rw [Lexeme.withAsterisk, ofLexeme_mark, ofLexeme_mark, Except.ok.injEq, ofMark_asterisk]
    by_cases hc : c = '-'
    · subst hc
      rw [ofMark_minus_inj, Lexeme.opensOperand_map_withAsterisk]
      simp
    · rw [ofMark_of_ne_minus hc _ (Lexeme.opensOperand before)]
      simp [hc]

theorem ofLexeme_withAsterisk_eq_error_iff {before : Option Lexeme} {lexeme : Lexeme} {error : NumeralError} :
    ofLexeme (before.map Lexeme.withAsterisk) lexeme.withAsterisk = .error error ↔
      ofLexeme before lexeme = .error error := by
  cases lexeme with
  | numeral digits => rfl
  | mark c => simp [Lexeme.withAsterisk, ofLexeme_mark]

theorem ofLexemes_withAsterisk_eq_error_iff {before : Option Lexeme} {lexemes : List Lexeme} {error : NumeralError} :
    ofLexemes (before.map Lexeme.withAsterisk) (lexemes.map Lexeme.withAsterisk) = .error error ↔
      ofLexemes before lexemes = .error error := by
  induction lexemes generalizing before with
  | nil => simp [ofLexemes_nil]
  | cons lexeme rest ih =>
    have hrest := @ih (some lexeme)
    rw [Option.map_some] at hrest
    simp only [List.map_cons, ofLexemes_cons_eq_error_iff, ne_eq, ofLexeme_withAsterisk_eq_error_iff, hrest]

theorem ofLexemes_withAsterisk_iff {before : Option Lexeme} {lexemes : List Lexeme} :
    ofLexemes (before.map Lexeme.withAsterisk) (lexemes.map Lexeme.withAsterisk) = ofLexemes before lexemes ↔
      (∃ error, ofLexemes before lexemes = .error error) ∨
        ¬ [.mark '⋅', .mark '-'] <:+: before.toList ++ lexemes := by
  cases hall : ofLexemes before lexemes with
  | error error =>
    rw [ofLexemes_withAsterisk_eq_error_iff.2 hall]
    simp
  | ok tokens =>
    simp only [reduceCtorEq, exists_false, false_or]
    induction lexemes generalizing before tokens with
    | nil =>
      rw [ofLexemes_nil] at hall
      cases before <;> simp [ofLexemes_nil, Except.ok.inj hall, List.infix_cons_iff]
    | cons lexeme rest ih =>
      obtain ⟨token, others, htoken, hothers, rfl⟩ := ofLexemes_cons_eq_ok_iff.1 hall
      obtain ⟨newToken, hnewToken⟩ := exists_ok_of_error_iff (fun _ => ofLexeme_withAsterisk_eq_error_iff) htoken
      obtain ⟨newOthers, hnewOthers⟩ :=
        exists_ok_of_error_iff (fun _ => ofLexemes_withAsterisk_eq_error_iff) hothers
      have hnew := ofLexemes_cons_eq_ok_iff.2 ⟨newToken, newOthers, hnewToken, hnewOthers, rfl⟩
      have hfirst := @ofLexeme_withAsterisk_iff before lexeme
      rw [hnewToken, htoken, Except.ok.injEq] at hfirst
      have hrest := ih others hothers
      rw [hnewOthers, Except.ok.injEq] at hrest
      rw [List.map_cons, hnew, Except.ok.injEq, List.cons.injEq, hfirst, hrest]
      cases before with
      | none => simp
      | some lexeme => simp [List.infix_cons_iff, List.cons_prefix_cons, eq_comm]

end Token

/-! ### Texts -/

theorem tokenize_withAsterisks_eq_iff (text : String) :
    tokenize (withAsterisks text) = tokenize text ↔
      (∃ error, tokenize text = .error error) ∨ ¬ ['⋅', '-'] <:+: Token.significant text := by
  have hlexemes := @Token.ofLexemes_withAsterisk_iff none (Lexeme.cut (Token.significant text))
  rw [Option.toList_none, List.nil_append, Lexeme.pair_infix_cut_iff (by decide) (by decide)] at hlexemes
  rw [tokenize, tokenize, significant_withAsterisks, Lexeme.cut_map_asterisk]
  exact hlexemes

/-- The asterisk may stand in the place of the dot exactly if the text is refused in any case or none of
its dots has a minus behind it. -/
theorem withAsterisks_eq_iff (text : String) :
    (tokenize (withAsterisks text) = tokenize text ∧ parse (withAsterisks text) = parse text) ↔
      (∃ error, tokenize text = .error error) ∨ ¬ ['⋅', '-'] <:+: Token.significant text := by
  rw [← tokenize_withAsterisks_eq_iff]
  constructor
  · intro h
    exact h.1
  · intro h
    have hparse : parse (withAsterisks text) = parse text := by rw [parse, parse, h]
    exact ⟨h, hparse⟩

/-- Behind the dot the minus subtracts, so the product lacks its second operand. -/
theorem parse_dot_minus_ne :
    tokenize (withAsterisks "2⋅-x") ≠ tokenize "2⋅-x" ∧
      parse "2⋅-x" = .ok (.binary .sub (.binary .mul (.number 2) .absent) (.variable "x")) ∧
      parse (withAsterisks "2⋅-x") = .ok (.binary .mul (.number 2) (.neg (.variable "x"))) := by
  refine ⟨?_, ?_, ?_⟩ <;> decide +kernel

end Calculator
