import Mathlib.Data.List.Chain
import Mathlib.Data.List.Infix
import Calculator.Token.Text
import Calculator.Proofs.Nesting
import Calculator.Proofs.Except

/-!
# What the tokens of a text have in common

Not every list of tokens comes from a text. A minus is only read as a sign at the start, behind an
opening bracket or behind another operator (`signsPlaced_of_tokenize`), and the brackets of a text are
those of its tokens, in the same order (`filterMap_bracket?_of_tokenize`). The second fact carries
questions of nesting over to the text: `ClosingsMatched` and `unclosed` count characters, and
`exists_nest_of_tokenize` is what they say of the items.
-/

namespace Calculator

namespace Token

theorem ofLexemes_cons_eq_ok_iff {before : Option Lexeme} {lexeme : Lexeme} {rest : List Lexeme}
    {tokens : List Token} :
    ofLexemes before (lexeme :: rest) = .ok tokens ↔
      ∃ token others, ofLexeme before lexeme = .ok token ∧ ofLexemes (some lexeme) rest = .ok others ∧
        tokens = token :: others := by
  simp only [ofLexemes, bind_eq_ok_iff, pure_eq_ok_iff]
  constructor
  · rintro ⟨token, htoken, others, hothers, rfl⟩
    exact ⟨token, others, htoken, hothers, rfl⟩
  · rintro ⟨token, others, htoken, hothers, rfl⟩
    exact ⟨token, htoken, others, hothers, rfl⟩

theorem ofLexemes_cons_eq_error_iff {before : Option Lexeme} {lexeme : Lexeme} {rest : List Lexeme}
    {error : NumeralError} :
    ofLexemes before (lexeme :: rest) = .error error ↔
      ofLexeme before lexeme = .error error ∨
        (∀ other, ofLexeme before lexeme ≠ .error other) ∧ ofLexemes (some lexeme) rest = .error error := by
  rw [ofLexemes, bind_eq_error_iff]
  cases ofLexeme before lexeme with
  | error _ => simp
  | ok token => simp [bind_eq_error_iff, pure, Except.pure]

theorem ofLexemes_nil (before : Option Lexeme) : ofLexemes before [] = .ok [] := by
  rw [ofLexemes]
  rfl

theorem eq_nil_of_ofLexemes {before : Option Lexeme} {tokens : List Token} (h : ofLexemes before [] = .ok tokens) :
    tokens = [] := by
  rw [ofLexemes_nil] at h
  exact (Except.ok.inj h).symm

theorem ofLexeme_mark (before : Option Lexeme) (c : Char) :
    ofLexeme before (.mark c) = .ok (ofMark (Lexeme.opensOperand before) c) :=
  rfl

theorem exists_number_of_ofLexeme {before : Option Lexeme} {digits : List Char} {token : Token}
    (h : ofLexeme before (.numeral digits) = .ok token) : ∃ value : Nat, token = .number value := by
  rw [ofLexeme, bind_eq_ok_iff] at h
  obtain ⟨value, -, hvalue⟩ := h
  exact ⟨value, (pure_eq_ok_iff.1 hvalue).symm⟩

theorem exists_mark_of_ofLexeme {before : Option Lexeme} {lexeme : Lexeme} {token : Token}
    (h : ofLexeme before lexeme = .ok token) (hnumber : ∀ value, token ≠ .number value) :
    ∃ c, lexeme = .mark c ∧ ofMark (Lexeme.opensOperand before) c = token := by
  cases lexeme with
  | numeral digits =>
    obtain ⟨value, hvalue⟩ := exists_number_of_ofLexeme h
    exact absurd hvalue (hnumber value)
  | mark c =>
    rw [ofLexeme_mark] at h
    exact ⟨c, rfl, Except.ok.inj h⟩

/-! ### Tokens and their lexemes -/

theorem ofLexemes_congr {before other : Option Lexeme} (h : Lexeme.opensOperand before = Lexeme.opensOperand other)
    (lexemes : List Lexeme) : ofLexemes before lexemes = ofLexemes other lexemes := by
  cases lexemes with
  | nil => rfl
  | cons lexeme rest =>
    have hlexeme : ofLexeme before lexeme = ofLexeme other lexeme := by
      cases lexeme with
      | numeral digits => rfl
      | mark c => rw [ofLexeme_mark, ofLexeme_mark, h]
    rw [ofLexemes, ofLexemes, hlexeme]

/-- Behind lexemes that are read, the others are read by the last one of them. -/
theorem ofLexemes_append {before : Option Lexeme} {front back : List Lexeme} {frontTokens : List Token}
    (hfront : ofLexemes before front = .ok frontTokens) :
    ofLexemes before (front ++ back) = (frontTokens ++ ·) <$> ofLexemes (front.getLast?.or before) back := by
  induction front generalizing before frontTokens with
  | nil =>
    obtain rfl := eq_nil_of_ofLexemes hfront
    exact (id_map _).symm
  | cons lexeme front ih =>
    obtain ⟨token, others, htoken, hothers, rfl⟩ := ofLexemes_cons_eq_ok_iff.1 hfront
    have hlast : (lexeme :: front).getLast?.or before = front.getLast?.or (some lexeme) := by
      rw [List.getLast?_cons]
      cases front.getLast? <;> rfl
    rw [List.cons_append, ofLexemes, htoken, hlast]
    show ofLexemes (some lexeme) (front ++ back) >>= _ = _
    rw [ih hothers]
    cases ofLexemes (front.getLast?.or (some lexeme)) back <;> rfl

theorem length_of_ofLexemes {before : Option Lexeme} {lexemes : List Lexeme} {tokens : List Token}
    (h : ofLexemes before lexemes = .ok tokens) : tokens.length = lexemes.length := by
  induction lexemes generalizing before tokens with
  | nil =>
    obtain rfl := eq_nil_of_ofLexemes h
    rfl
  | cons lexeme rest ih =>
    obtain ⟨token, others, -, hothers, rfl⟩ := ofLexemes_cons_eq_ok_iff.1 h
    rw [List.length_cons, List.length_cons, ih hothers]

theorem exists_ofLexeme_of_mem {before : Option Lexeme} {lexemes : List Lexeme} {tokens : List Token} {token : Token}
    (h : ofLexemes before lexemes = .ok tokens) (hmem : token ∈ tokens) :
    ∃ left, ∃ lexeme ∈ lexemes, ofLexeme left lexeme = .ok token := by
  induction lexemes generalizing before tokens with
  | nil =>
    obtain rfl := eq_nil_of_ofLexemes h
    nomatch hmem
  | cons lexeme rest ih =>
    obtain ⟨first, others, hfirst, hothers, rfl⟩ := ofLexemes_cons_eq_ok_iff.1 h
    rcases List.mem_cons.1 hmem with rfl | hmem
    · exact ⟨before, lexeme, List.mem_cons_self, hfirst⟩
    · obtain ⟨left, other, hother, htoken⟩ := ih hothers hmem
      exact ⟨left, other, List.mem_cons_of_mem _ hother, htoken⟩

/-- What holds of the tokens of any two neighbouring lexemes holds of any two neighbouring tokens. -/
theorem isChain_of_ofLexemes {R : Token → Token → Prop} {before : Option Lexeme} {lexemes : List Lexeme}
    {tokens : List Token} (h : ofLexemes before lexemes = .ok tokens)
    (hpair : ∀ before left right first second, [left, right] <:+: lexemes → ofLexeme before left = .ok first →
      ofLexeme (some left) right = .ok second → R first second) : tokens.IsChain R := by
  induction lexemes generalizing before tokens with
  | nil =>
    obtain rfl := eq_nil_of_ofLexemes h
    exact .nil
  | cons lexeme rest ih =>
    obtain ⟨token, others, htoken, hothers, rfl⟩ := ofLexemes_cons_eq_ok_iff.1 h
    refine List.isChain_cons.2 ⟨?_, ih hothers ?_⟩
    · intro next hnext
      cases rest with
      | nil =>
        obtain rfl := eq_nil_of_ofLexemes hothers
        nomatch hnext
      | cons second rest =>
        obtain ⟨other, _, hother, _, rfl⟩ := ofLexemes_cons_eq_ok_iff.1 hothers
        obtain rfl := Option.some.inj hnext
        exact hpair before lexeme second token other ⟨[], rest, rfl⟩ htoken hother
    · intro before left right first second hneighbours
      exact hpair before left right first second (List.infix_cons hneighbours)

/-! ### Signs -/

/-- What an operand can follow: an opening bracket or an operator. -/
def OpensOperand : Token → Prop
  | operator _ => True
  | bracket .opening => True
  | _ => False

/-- No sign stands behind an operand. -/
def SignsPlaced (tokens : List Token) : Prop :=
  tokens.IsChain fun left right => right = operator .neg → left.OpensOperand

theorem ofMark_eq_neg {isSign : Bool} {c : Char} (h : ofMark isSign c = operator .neg) :
    c = '-' ∧ isSign = true := by
  unfold ofMark at h
  split at h <;> simp_all

theorem opensOperand_of_ofLexeme {before : Option Lexeme} {lexeme : Lexeme} {token : Token}
    (h : ofLexeme before lexeme = .ok token) (hopens : Lexeme.opensOperand (some lexeme) = true) :
    token.OpensOperand := by
  cases lexeme with
  | numeral digits => nomatch hopens
  | mark c =>
    rw [ofLexeme_mark] at h
    obtain rfl := Except.ok.inj h
    simp only [Lexeme.opensOperand, List.mem_cons, List.not_mem_nil, or_false, decide_eq_true_eq] at hopens
    rcases hopens with rfl | rfl | rfl | rfl | rfl <;> trivial

theorem signsPlaced_of_ofLexemes {before : Option Lexeme} {lexemes : List Lexeme} {tokens : List Token}
    (h : ofLexemes before lexemes = .ok tokens) : SignsPlaced tokens := by
  refine isChain_of_ofLexemes h ?_
  rintro before left right token _ - htoken hsign rfl
  obtain ⟨c, -, hc⟩ := exists_mark_of_ofLexeme hsign (by simp)
  exact opensOperand_of_ofLexeme htoken (ofMark_eq_neg hc).2

/-! ### Brackets -/

def bracket? : Token → Option Bracket
  | bracket side => some side
  | _ => none

theorem count_filterMap_bracket? (side : Bracket) (tokens : List Token) :
    (tokens.filterMap bracket?).count side = tokens.count (.bracket side) := by
  rw [List.count_filterMap, List.count]
  apply List.countP_congr
  intro token _
  cases token <;> simp [bracket?]

end Token

def Bracket.char : Bracket → Char
  | opening => '('
  | closing => ')'

def Bracket.ofChar? : Char → Option Bracket
  | '(' => some opening
  | ')' => some closing
  | _ => none

theorem Bracket.ofChar?_of_isDigit {c : Char} (h : c.isDigit) : ofChar? c = none := by
  unfold ofChar?
  split
  · nomatch h
  · nomatch h
  · rfl

theorem Bracket.count_filterMap_ofChar? (side : Bracket) (chars : List Char) :
    (chars.filterMap ofChar?).count side = chars.count side.char := by
  rw [List.count_filterMap, List.count]
  apply List.countP_congr
  intro c _
  unfold ofChar?
  cases side <;> split <;> simp_all [char]

namespace Token

theorem filterMap_bracket?_of_ofLexeme {before : Option Lexeme} {lexeme : Lexeme} {token : Token}
    (hwf : lexeme.WellFormed) (h : ofLexeme before lexeme = .ok token) :
    [token].filterMap bracket? = lexeme.chars.filterMap Bracket.ofChar? := by
  cases lexeme with
  | numeral digits =>
    obtain ⟨value, rfl⟩ := exists_number_of_ofLexeme h
    exact (List.filterMap_eq_nil_iff.2 fun c hc => Bracket.ofChar?_of_isDigit (hwf.2 c hc)).symm
  | mark c =>
    rw [ofLexeme_mark] at h
    obtain rfl := Except.ok.inj h
    rw [Lexeme.chars]
    unfold ofMark
    split <;> simp_all [bracket?, Bracket.ofChar?]

theorem filterMap_bracket?_of_ofLexemes {before : Option Lexeme} {lexemes : List Lexeme} {tokens : List Token}
    (hwf : ∀ lexeme ∈ lexemes, lexeme.WellFormed) (h : ofLexemes before lexemes = .ok tokens) :
    tokens.filterMap bracket? = (lexemes.flatMap Lexeme.chars).filterMap Bracket.ofChar? := by
  induction lexemes generalizing before tokens with
  | nil =>
    obtain rfl := eq_nil_of_ofLexemes h
    rfl
  | cons lexeme rest ih =>
    obtain ⟨token, others, htoken, hothers, rfl⟩ := ofLexemes_cons_eq_ok_iff.1 h
    obtain ⟨hlexeme, hrest⟩ := List.forall_mem_cons.1 hwf
    rw [List.flatMap_cons, List.filterMap_append, ← ih hrest hothers,
      ← filterMap_bracket?_of_ofLexeme hlexeme htoken, ← List.filterMap_append, List.singleton_append]

end Token

theorem filterMap_ofChar?_significant (text : String) :
    (Token.significant text).filterMap Bracket.ofChar? = text.toList.filterMap Bracket.ofChar? := by
  rw [Token.significant, List.filterMap_filter]
  congr 1
  funext c
  by_cases hc : c = ' '
  · subst hc
    rfl
  · simp [hc]

section Tokenize

variable {text : String} {tokens : List Token}

theorem signsPlaced_of_tokenize (h : tokenize text = .ok tokens) : Token.SignsPlaced tokens :=
  Token.signsPlaced_of_ofLexemes h

theorem filterMap_bracket?_of_tokenize (h : tokenize text = .ok tokens) :
    tokens.filterMap Token.bracket? = text.toList.filterMap Bracket.ofChar? := by
  have hbrackets := Token.filterMap_bracket?_of_ofLexemes (Lexeme.wellFormed_of_mem_cut _) h
  rw [hbrackets, Lexeme.flatMap_chars_cut, filterMap_ofChar?_significant]

end Tokenize

/-! ### Nesting, seen from the text -/

/-- No closing bracket of a text comes before its opening one. -/
def ClosingsMatched (text : String) : Prop :=
  ∀ front, front <+: text.toList → front.count ')' ≤ front.count '('

instance (text : String) : Decidable (ClosingsMatched text) :=
  decidable_of_iff (∀ front ∈ text.toList.inits, front.count ')' ≤ front.count '(') <| by
    simp only [List.mem_inits, ClosingsMatched]

/-- How many brackets are left open at the end of a text. -/
def unclosed (text : String) : Nat :=
  text.toList.count '(' - text.toList.count ')'

section Tokenize

variable {text : String} {tokens : List Token}

theorem count_closing_le_of_prefix (h : tokenize text = .ok tokens) (hmatched : ClosingsMatched text)
    {front : List Token} (hfront : front <+: tokens) :
    front.count (.bracket .closing) ≤ front.count (.bracket .opening) := by
  have hbrackets := hfront.filterMap Token.bracket?
  rw [filterMap_bracket?_of_tokenize h] at hbrackets
  obtain ⟨chars, hchars, hsame⟩ := List.prefix_filterMap_iff.1 hbrackets
  have hcount : chars.count Bracket.closing.char ≤ chars.count Bracket.opening.char := hmatched chars hchars
  simpa only [← Bracket.count_filterMap_ofChar?, ← hsame, Token.count_filterMap_bracket?] using hcount

theorem unclosed_eq_of_tokenize (h : tokenize text = .ok tokens) :
    unclosed text = tokens.count (.bracket .opening) - tokens.count (.bracket .closing) := by
  show text.toList.count Bracket.opening.char - text.toList.count Bracket.closing.char = _
  simp only [← Bracket.count_filterMap_ofChar?, ← filterMap_bracket?_of_tokenize h, Token.count_filterMap_bracket?]

theorem exists_nest_of_tokenize (h : tokenize text = .ok tokens) (hmatched : ClosingsMatched text) :
    ∃ items, nest tokens = .ok items ∧ Item.AllNested items ∧
      Item.allTokens items = tokens ++ List.replicate (unclosed text) (.bracket .closing) := by
  rw [unclosed_eq_of_tokenize h]
  exact exists_nest_eq_ok fun front hfront => count_closing_le_of_prefix h hmatched hfront

end Tokenize

end Calculator
