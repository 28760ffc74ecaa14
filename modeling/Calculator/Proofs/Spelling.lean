import Mathlib.Data.List.Forall2
import Calculator.Proofs.Lexing

/-!
# Tokens that can be read back

Tokens spelled one after the other are read as the same tokens if and only if they are canonical
(`spell_eq_and_tokenize_eq_iff_canonical`): each of them has a spelling of its own, which is that of one
lexeme (`Token.WrittenAs`), and its neighbours do not change what the spelling means. Numbers must not
touch, and a minus is a sign or subtracts according to what is in front of it. With the lexemes at hand
both directions are facts about neighbours: spelled tokens are cut into these lexemes
(`tokenize_of_writtenAs`), and tokens that were read are in such an order because their lexemes are.
-/

namespace Calculator

/-- What lexing takes for the name of a variable. -/
def IsNameChar (c : Char) : Prop :=
  ¬ c.isDigit ∧ c ∉ [' ', '+', '-', '*', '/', '(', ')', '⋅']

instance (c : Char) : Decidable (IsNameChar c) :=
  inferInstanceAs (Decidable (_ ∧ _))

def Operator.char : Operator → Char
  | neg | binary .sub => '-'
  | binary .mul => '*'
  | binary .div => '/'
  | binary .add => '+'

theorem Operator.not_isDigit_char (op : Operator) : ¬ op.char.isDigit := by
  rcases op with _ | (_ | _ | _ | _) <;> decide

theorem Bracket.not_isDigit_char (side : Bracket) : ¬ side.char.isDigit := by
  cases side <;> decide

namespace Token

theorem ofMark_of_notMem {c : Char} (hc : c ∉ ['+', '-', '*', '/', '(', ')', '⋅']) (isSign : Bool) :
    ofMark isSign c = .variable (String.singleton c) := by
  unfold ofMark
  split <;> first | rfl | exact absurd (by decide) hc

theorem ofMark_of_isNameChar {c : Char} (hc : IsNameChar c) (isSign : Bool) :
    ofMark isSign c = .variable (String.singleton c) :=
  ofMark_of_notMem (fun hmem => hc.2 (List.mem_cons_of_mem ' ' hmem)) isSign

def IsNumber : Token → Prop
  | number _ => True
  | _ => False

/-- The last token of an operand: a number, a variable or a closing bracket. -/
def EndsOperand : Token → Prop
  | number _ | .variable _ => True
  | bracket .closing => True
  | _ => False

theorem endsOperand_iff_not_opensOperand {token : Token} : token.EndsOperand ↔ ¬ token.OpensOperand := by
  rcases token with _ | _ | _ | (_ | _) <;> simp [EndsOperand, OpensOperand]

/-- A token with a spelling of its own, and the lexeme that is its spelling. -/
inductive WrittenAs : Token → Lexeme → Prop where
  | name {c : Char} (hc : IsNameChar c) : WrittenAs (.variable (String.singleton c)) (.mark c)
  | number {n : Nat} (hn : n < Numeral.bound) : WrittenAs (.number n) (.numeral (Nat.toDigits 10 n))
  | operator (op : Operator) : WrittenAs (.operator op) (.mark op.char)
  | bracket (side : Bracket) : WrittenAs (.bracket side) (.mark side.char)

namespace WrittenAs

variable {token : Token} {lexeme : Lexeme}

theorem spelling_eq (h : WrittenAs token lexeme) : token.spelling = .ok (String.ofList lexeme.chars) := by
  cases h with
  | name hc => rfl
  | number hn => exact Numeral.write_natCast hn
  | operator op => rcases op with _ | (_ | _ | _ | _) <;> rfl
  | bracket side => cases side <;> rfl

theorem wellFormed (h : WrittenAs token lexeme) : lexeme.WellFormed := by
  cases h with
  | name hc => exact hc.1
  | number hn => exact ⟨Nat.toDigits_ne_nil, fun c hc => Nat.isDigit_of_mem_toDigits (by decide) (by decide) hc⟩
  | operator op => exact op.not_isDigit_char
  | bracket side => exact side.not_isDigit_char

theorem not_mem_chars (h : WrittenAs token lexeme) : ' ' ∉ lexeme.chars ∧ '⋅' ∉ lexeme.chars := by
  cases h with
  | @name c hc =>
    have hspace : c ≠ ' ' := fun heq => hc.2 (by simp [heq])
    have hdot : c ≠ '⋅' := fun heq => hc.2 (by simp [heq])
    simp [Lexeme.chars, hspace.symm, hdot.symm]
  | @number n hn =>
    have hdigit : ∀ c ∈ Nat.toDigits 10 n, c.isDigit := fun c hc =>
      Nat.isDigit_of_mem_toDigits (by decide) (by decide) hc
    exact ⟨fun hmem => absurd (hdigit _ hmem) (by decide), fun hmem => absurd (hdigit _ hmem) (by decide)⟩
  | operator op => rcases op with _ | (_ | _ | _ | _) <;> decide
  | bracket side => cases side <;> decide

theorem isNumber_of_isNumeral (h : WrittenAs token lexeme) (hnumeral : lexeme.IsNumeral) : token.IsNumber := by
  cases h with
  | number hn => trivial
  | name hc => nomatch hnumeral
  | operator op => nomatch hnumeral
  | bracket side => nomatch hnumeral

theorem opensOperand_iff (h : WrittenAs token lexeme) :
    Lexeme.opensOperand (some lexeme) = true ↔ token.OpensOperand := by
  cases h with
  | name hc =>
    have hmark := hc.2
    simp only [List.mem_cons, not_or] at hmark
    simp [Lexeme.opensOperand, OpensOperand, hmark]
  | number hn => simp [Lexeme.opensOperand, OpensOperand]
  | operator op => rcases op with _ | (_ | _ | _ | _) <;> simp [Lexeme.opensOperand, OpensOperand, Operator.char]
  | bracket side => cases side <;> simp [Lexeme.opensOperand, OpensOperand, Bracket.char]

theorem ofLexeme_eq {before : Option Lexeme} (h : WrittenAs token lexeme)
    (hneg : token = .operator .neg → Lexeme.opensOperand before = true)
    (hsub : token = .operator (.binary .sub) → Lexeme.opensOperand before = false) :
    ofLexeme before lexeme = .ok token := by
  cases h with
  | name hc => rw [ofLexeme_mark, ofMark_of_isNameChar hc]
  | number hn =>
    rw [ofLexeme, Numeral.read_toDigits hn]
    rfl
  | operator op =>
    rw [ofLexeme_mark]
    rcases op with _ | (_ | _ | _ | _)
    · rw [hneg rfl]; rfl
    · rfl
    · rfl
    · rfl
    · rw [hsub rfl]; rfl
  | bracket side => cases side <;> rfl

end WrittenAs

/-! ### Lists of tokens -/

section Written

variable {tokens : List Token} {lexemes : List Lexeme}

theorem exists_forall₂_writtenAs (h : ∀ token ∈ tokens, ∃ lexeme, WrittenAs token lexeme) :
    ∃ lexemes, List.Forall₂ WrittenAs tokens lexemes := by
  induction tokens with
  | nil => exact ⟨[], .nil⟩
  | cons token rest ih =>
    obtain ⟨⟨lexeme, hlexeme⟩, hrest⟩ := List.forall_mem_cons.1 h
    obtain ⟨lexemes, hlexemes⟩ := ih hrest
    exact ⟨lexeme :: lexemes, .cons hlexeme hlexemes⟩

theorem mapM_spelling_of_writtenAs (h : List.Forall₂ WrittenAs tokens lexemes) :
    tokens.mapM spelling = .ok (lexemes.map fun lexeme => String.ofList lexeme.chars) := by
  induction h with
  | nil => rfl
  | cons htoken _ ih =>
    rw [List.mapM_cons, htoken.spelling_eq, ih]
    rfl

theorem spell_of_writtenAs (h : List.Forall₂ WrittenAs tokens lexemes) :
    spell tokens = .ok (String.ofList (lexemes.flatMap Lexeme.chars)) := by
  rw [spell, mapM_spelling_of_writtenAs h]
  refine congrArg Except.ok (String.toList_inj.1 ?_)
  rw [String.toList_join, String.toList_ofList, List.flatMap_map]
  simp only [String.toList_ofList]

theorem wellFormed_of_writtenAs (h : List.Forall₂ WrittenAs tokens lexemes) :
    ∀ lexeme ∈ lexemes, lexeme.WellFormed := by
  induction h with
  | nil => simp
  | cons htoken _ ih => exact List.forall_mem_cons.2 ⟨htoken.wellFormed, ih⟩

theorem not_mem_flatMap_chars (h : List.Forall₂ WrittenAs tokens lexemes) :
    ' ' ∉ lexemes.flatMap Lexeme.chars ∧ '⋅' ∉ lexemes.flatMap Lexeme.chars := by
  induction h with
  | nil => simp
  | cons htoken _ ih =>
    obtain ⟨hspace, hdot⟩ := htoken.not_mem_chars
    simp [hspace, hdot, ih]

theorem separated_of_writtenAs (h : List.Forall₂ WrittenAs tokens lexemes)
    (hapart : tokens.IsChain fun left right => left.IsNumber → ¬ right.IsNumber) : Lexeme.Separated lexemes := by
  induction h with
  | nil => trivial
  | @cons token lexeme rest lexemes htoken hrest ih =>
    obtain ⟨hnext, hapart⟩ := List.isChain_cons.1 hapart
    refine ⟨fun hnumeral next hmem hnextNumeral => ?_, ih hapart⟩
    cases hrest with
    | nil => nomatch hmem
    | cons hsecond _ =>
      obtain rfl := Option.some.inj hmem
      exact hnext _ rfl (htoken.isNumber_of_isNumeral hnumeral) (hsecond.isNumber_of_isNumeral hnextNumeral)

/-- Behind an operand a minus subtracts. -/
def SubtractionsPlaced (tokens : List Token) : Prop :=
  tokens.IsChain fun left right => right = operator (.binary .sub) → left.EndsOperand

theorem ofLexemes_of_writtenAs {before : Option Lexeme} (h : List.Forall₂ WrittenAs tokens lexemes)
    (hneg : tokens.head? = some (operator .neg) → Lexeme.opensOperand before = true)
    (hsub : tokens.head? = some (operator (.binary .sub)) → Lexeme.opensOperand before = false)
    (hsigns : SignsPlaced tokens) (hsubtractions : SubtractionsPlaced tokens) :
    ofLexemes before lexemes = .ok tokens := by
  induction h generalizing before with
  | nil => exact ofLexemes_nil before
  | @cons token lexeme rest lexemes htoken _ ih =>
    obtain ⟨hnextSign, hsigns⟩ := List.isChain_cons.1 hsigns
    obtain ⟨hnextSub, hsubtractions⟩ := List.isChain_cons.1 hsubtractions
    refine ofLexemes_cons_eq_ok_iff.2 ⟨token, rest, ?_, ?_, rfl⟩
    · exact htoken.ofLexeme_eq (fun heq => hneg (congrArg some heq)) fun heq => hsub (congrArg some heq)
    · refine ih (fun hhead => ?_) (fun hhead => ?_) hsigns hsubtractions
      · exact htoken.opensOperand_iff.2 (hnextSign _ hhead rfl)
      · have hends := endsOperand_iff_not_opensOperand.1 (hnextSub _ hhead rfl)
        rwa [← htoken.opensOperand_iff, Bool.not_eq_true] at hends

/-- Tokens with the right neighbours are read from any text that is their spelling without its spaces. -/
theorem tokenize_of_writtenAs {text : String} (h : List.Forall₂ WrittenAs tokens lexemes)
    (hapart : tokens.IsChain fun left right => left.IsNumber → ¬ right.IsNumber) (hsigns : SignsPlaced tokens)
    (hfirst : tokens.head? ≠ some (operator (.binary .sub))) (hsubtractions : SubtractionsPlaced tokens)
    (htext : significant text = lexemes.flatMap Lexeme.chars) : tokenize text = .ok tokens := by
  rw [tokenize, htext, Lexeme.cut_flatMap_chars (wellFormed_of_writtenAs h) (separated_of_writtenAs h hapart)]
  exact ofLexemes_of_writtenAs h (fun _ => rfl) (fun hhead => absurd hhead hfirst) hsigns hsubtractions

end Written

end Token

/-- The tokens that come back when they are spelled and read. -/
structure Canonical (tokens : List Token) : Prop where
  names : ∀ name, .variable name ∈ tokens → ∃ c, IsNameChar c ∧ name = String.singleton c
  numbers : ∀ value : Int, .number value ∈ tokens →
    ∃ n : Nat, value = n ∧ (Nat.toDigits 10 n).length ≤ Numeral.maxDigits
  numbersApart : tokens.IsChain fun left right => left.IsNumber → ¬ right.IsNumber
  signs : Token.SignsPlaced tokens
  noSubtractionFirst : tokens.head? ≠ some (.operator (.binary .sub))
  subtractions : Token.SubtractionsPlaced tokens

section Canonical

variable {tokens : List Token} {text : String}

theorem Canonical.exists_writtenAs (h : Canonical tokens) :
    ∃ lexemes, List.Forall₂ Token.WrittenAs tokens lexemes := by
  refine Token.exists_forall₂_writtenAs fun token htoken => ?_
  cases token with
  | «variable» name =>
    obtain ⟨c, hc, rfl⟩ := h.names name htoken
    exact ⟨_, .name hc⟩
  | number value =>
    obtain ⟨n, rfl, hlength⟩ := h.numbers value htoken
    exact ⟨_, .number (Numeral.length_toDigits_le_maxDigits_iff.1 hlength)⟩
  | operator op => exact ⟨_, .operator op⟩
  | bracket side => exact ⟨_, .bracket side⟩

/-! ### What is read is canonical -/

theorem mem_significant_of_mark_mem {c : Char} (h : .mark c ∈ Lexeme.cut (Token.significant text)) :
    c ∈ Token.significant text := by
  rw [← Lexeme.flatMap_chars_cut (Token.significant text)]
  exact List.mem_flatMap.2 ⟨_, h, List.mem_singleton_self c⟩

theorem isNameChar_of_ofMark {c : Char} {isSign : Bool} {name : String}
    (h : Token.ofMark isSign c = .variable name) (hdigit : ¬ c.isDigit) (hspace : c ≠ ' ') :
    IsNameChar c ∧ name = String.singleton c := by
  unfold Token.ofMark at h
  split at h <;> simp_all [IsNameChar]

theorem exists_writtenAs_of_tokenize (h : tokenize text = .ok tokens) {token : Token} (htoken : token ∈ tokens) :
    ∃ lexeme, token.WrittenAs lexeme := by
  obtain ⟨before, lexeme, hmem, hlexeme⟩ := Token.exists_ofLexeme_of_mem h htoken
  have hwf := Lexeme.wellFormed_of_mem_cut _ lexeme hmem
  cases lexeme with
  | numeral digits =>
    rw [Token.ofLexeme, bind_eq_ok_iff] at hlexeme
    obtain ⟨n, hn, hvalue⟩ := hlexeme
    obtain rfl := pure_eq_ok_iff.1 hvalue
    exact ⟨_, .number (Numeral.lt_bound_of_read hwf.2 hn)⟩
  | mark c =>
    rw [Token.ofLexeme_mark] at hlexeme
    have hmark := Except.ok.inj hlexeme
    cases token with
    | «variable» name =>
      have hspace : c ≠ ' ' := by simpa using (List.mem_filter.1 (mem_significant_of_mark_mem hmem)).2
      obtain ⟨hc, rfl⟩ := isNameChar_of_ofMark hmark hwf hspace
      exact ⟨_, .name hc⟩
    | number value =>
      unfold Token.ofMark at hmark
      split at hmark <;> simp at hmark
    | operator op => exact ⟨_, .operator op⟩
    | bracket side => exact ⟨_, .bracket side⟩

theorem not_isNumber_ofMark (isSign : Bool) (c : Char) : ¬ (Token.ofMark isSign c).IsNumber := by
  unfold Token.ofMark
  split <;> exact id

theorem isNumeral_of_ofLexeme {before : Option Lexeme} {lexeme : Lexeme} {token : Token}
    (h : Token.ofLexeme before lexeme = .ok token) (hnumber : token.IsNumber) : lexeme.IsNumeral := by
  cases lexeme with
  | numeral digits => trivial
  | mark c =>
    rw [Token.ofLexeme_mark] at h
    obtain rfl := Except.ok.inj h
    exact not_isNumber_ofMark _ c hnumber

theorem ofMark_eq_sub {isSign : Bool} {c : Char} (h : Token.ofMark isSign c = .operator (.binary .sub)) :
    c = '-' ∧ isSign = false := by
  unfold Token.ofMark at h
  split at h <;> simp_all

theorem endsOperand_of_ofLexeme {before : Option Lexeme} {lexeme : Lexeme} {token : Token}
    (h : Token.ofLexeme before lexeme = .ok token) (hopens : Lexeme.opensOperand (some lexeme) = false)
    (hdot : lexeme ≠ .mark '⋅') : token.EndsOperand := by
  cases lexeme with
  | numeral digits =>
    obtain ⟨value, rfl⟩ := Token.exists_number_of_ofLexeme h
    trivial
  | mark c =>
    rw [Token.ofLexeme_mark] at h
    obtain rfl := Except.ok.inj h
    unfold Token.ofMark
    split <;> simp_all [Lexeme.opensOperand, Token.EndsOperand]

theorem Lexeme.Separated.not_isNumeral_of_infix {lexemes : List Lexeme} {left right : Lexeme}
    (h : Lexeme.Separated lexemes) (hpair : [left, right] <:+: lexemes) (hleft : left.IsNumeral) :
    ¬ right.IsNumeral := by
  induction lexemes with
  | nil => simp at hpair
  | cons lexeme rest ih =>
    rcases List.infix_cons_iff.1 hpair with hinit | hpair
    · obtain ⟨rfl, next, rfl⟩ := List.cons_prefix_cons.1 hinit
      exact h.1 hleft right rfl
    · exact ih h.2 hpair

theorem canonical_of_tokenize (h : tokenize text = .ok tokens) (hdot : '⋅' ∉ Token.significant text) :
    Canonical tokens where
  names name hname := by
    obtain ⟨lexeme, hlexeme⟩ := exists_writtenAs_of_tokenize h hname
    cases hlexeme with
    | name hc => exact ⟨_, hc, rfl⟩
  numbers value hvalue := by
    obtain ⟨lexeme, hlexeme⟩ := exists_writtenAs_of_tokenize h hvalue
    cases hlexeme with
    | number hn => exact ⟨_, rfl, Numeral.length_toDigits_le_maxDigits_iff.2 hn⟩
  numbersApart := by
    refine Token.isChain_of_ofLexemes h ?_
    intro before left right first second hpair hfirst hsecond hnumber hnext
    have hseparated := Lexeme.separated_cut (Token.significant text)
    exact hseparated.not_isNumeral_of_infix hpair (isNumeral_of_ofLexeme hfirst hnumber)
      (isNumeral_of_ofLexeme hsecond hnext)
  signs := signsPlaced_of_tokenize h
  noSubtractionFirst := by
    intro hhead
    cases hcut : Lexeme.cut (Token.significant text) with
    | nil =>
      rw [tokenize, hcut, Token.ofLexemes_nil] at h
      obtain rfl := Except.ok.inj h
      nomatch hhead
    | cons lexeme rest =>
      rw [tokenize, hcut] at h
      obtain ⟨token, others, htoken, -, rfl⟩ := Token.ofLexemes_cons_eq_ok_iff.1 h
      obtain rfl := Option.some.inj hhead
      -- At the start of a text every minus is a sign.
      obtain ⟨c, -, hc⟩ := Token.exists_mark_of_ofLexeme htoken (by simp)
      nomatch (ofMark_eq_sub hc).2
  subtractions := by
    refine Token.isChain_of_ofLexemes h ?_
    rintro before left right token _ hpair htoken hsub rfl
    have hleft : left ∈ Lexeme.cut (Token.significant text) := hpair.subset (by simp)
    have hne : left ≠ .mark '⋅' := by
      rintro rfl
      exact hdot (mem_significant_of_mark_mem hleft)
    obtain ⟨c, -, hc⟩ := Token.exists_mark_of_ofLexeme hsub (by simp)
    exact endsOperand_of_ofLexeme htoken (ofMark_eq_sub hc).2 hne

end Canonical

/-- Tokens have a spelling from which they are read back exactly if they are canonical. -/
theorem spell_eq_and_tokenize_eq_iff_canonical (tokens : List Token) :
    (∃ text, spell tokens = .ok text ∧ tokenize text = .ok tokens) ↔ Canonical tokens := by
  constructor
  · rintro ⟨text, hspell, htokenize⟩
    obtain ⟨lexemes, hwritten⟩ :=
      Token.exists_forall₂_writtenAs fun token htoken => exists_writtenAs_of_tokenize htokenize htoken
    obtain rfl := Except.ok.inj ((Token.spell_of_writtenAs hwritten).symm.trans hspell)
    refine canonical_of_tokenize htokenize fun hmem => ?_
    have hchars := (List.mem_filter.1 hmem).1
    rw [String.toList_ofList] at hchars
    exact (Token.not_mem_flatMap_chars hwritten).2 hchars
  · intro h
    obtain ⟨lexemes, hwritten⟩ := h.exists_writtenAs
    refine ⟨_, Token.spell_of_writtenAs hwritten, Token.tokenize_of_writtenAs hwritten h.numbersApart h.signs
      h.noSubtractionFirst h.subtractions ?_⟩
    rw [Token.significant, String.toList_ofList, List.filter_eq_self]
    intro c hc
    have hspace : c ≠ ' ' := by
      rintro rfl
      exact (Token.not_mem_flatMap_chars hwritten).1 hc
    simpa using hspace

end Calculator
