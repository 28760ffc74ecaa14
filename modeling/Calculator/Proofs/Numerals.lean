import Calculator.Proofs.Spelling

/-!
# Numerals that are too long

There is one reason to refuse a text as a list of tokens: spaces aside, it has a run of digits that is
longer than a numeral may be. The first such run is the one that is reported
(`tokenize_eq_error_iff`). Runs are told by the characters around them (`IsRun`), and they are just the
numerals among the lexemes (`Lexeme.cut_append_run`, `Lexeme.isRun_of_cut`).
-/

namespace Calculator

/-- A longest run of digits, with the text in front of it and the text behind it. -/
structure IsRun (front digits back : List Char) : Prop where
  ne_nil : digits ≠ []
  isDigit : ∀ c ∈ digits, c.isDigit
  front_end : ∀ c ∈ front.getLast?, ¬ c.isDigit
  back_start : ∀ c ∈ back.head?, ¬ c.isDigit

/-- The first run of digits that is too long to be read has this length. -/
def FirstLongRun (text : List Char) (length : Nat) : Prop :=
  ∃ front digits back, text = front ++ digits ++ back ∧ IsRun front digits back ∧
    digits.length = length ∧ Numeral.maxDigits < length ∧
    ∀ before run after, front = before ++ run ++ after → IsRun before run after →
      run.length ≤ Numeral.maxDigits

namespace Lexeme

/-! ### Runs and numerals -/

theorem not_isNumeral_of_head?_cut {text : List Char} (h : ∀ c ∈ text.head?, ¬ c.isDigit) :
    ∀ lexeme ∈ (cut text).head?, ¬ lexeme.IsNumeral := by
  cases text with
  | nil => simp [cut]
  | cons c rest =>
    rw [cut_cons_mark (h c rfl)]
    simp [IsNumeral]

theorem cut_append_run {front digits back : List Char} (h : IsRun front digits back) :
    cut (front ++ digits ++ back) = cut front ++ numeral digits :: cut back := by
  have hrun := cut_digits_append h.ne_nil h.isDigit (not_isNumeral_of_head?_cut h.back_start)
  rcases List.eq_nil_or_concat front with rfl | ⟨init, c, rfl⟩
  · rw [List.nil_append, hrun]
    rfl
  · have hc : ¬ c.isDigit := h.front_end c (by simp)
    rw [List.concat_eq_append, List.append_assoc, List.append_assoc, List.singleton_append, cut_append_mark hc,
      cut_append_mark hc, hrun, List.append_assoc]
    rfl

theorem isDigit_getLast?_flatMap_chars {lexemes : List Lexeme} (hwf : ∀ lexeme ∈ lexemes, lexeme.WellFormed)
    (hlast : ∀ lexeme ∈ lexemes.getLast?, ¬ lexeme.IsNumeral) :
    ∀ c ∈ (lexemes.flatMap chars).getLast?, ¬ c.isDigit := by
  rcases List.eq_nil_or_concat lexemes with rfl | ⟨init, lexeme, rfl⟩
  · simp
  · rw [List.concat_eq_append] at hwf hlast ⊢
    cases lexeme with
    | numeral digits => exact (hlast (numeral digits) (by simp) trivial).elim
    | mark c =>
      have hc : ¬ c.isDigit := hwf (mark c) (by simp)
      simpa [chars] using hc

theorem isDigit_head?_flatMap_chars {lexemes : List Lexeme} (hwf : ∀ lexeme ∈ lexemes, lexeme.WellFormed)
    (hhead : ∀ lexeme ∈ lexemes.head?, ¬ lexeme.IsNumeral) :
    ∀ c ∈ (lexemes.flatMap chars).head?, ¬ c.isDigit := by
  cases lexemes with
  | nil => simp
  | cons lexeme rest =>
    cases lexeme with
    | numeral digits => exact (hhead (numeral digits) rfl trivial).elim
    | mark c =>
      have hc : ¬ c.isDigit := hwf (mark c) List.mem_cons_self
      simpa [chars] using hc

theorem Separated.left {front back : List Lexeme} (h : Separated (front ++ back)) : Separated front := by
  induction front with
  | nil => trivial
  | cons lexeme front ih =>
    refine ⟨fun hnumeral next hnext => ?_, ih h.2⟩
    exact h.1 hnumeral next (List.mem_head?_append_of_mem_head? hnext)

/-- A numeral among the lexemes is a run of the text, and in front of it are the lexemes of the text
there. -/
theorem isRun_of_cut {text digits : List Char} {front back : List Lexeme}
    (h : cut text = front ++ numeral digits :: back) :
    text = front.flatMap chars ++ digits ++ back.flatMap chars ∧
      IsRun (front.flatMap chars) digits (back.flatMap chars) ∧ cut (front.flatMap chars) = front := by
  have htext := flatMap_chars_cut text
  have hwf := wellFormed_of_mem_cut text
  have hseparated := separated_cut text
  rw [h] at htext hwf hseparated
  have hdigits : (numeral digits).WellFormed := hwf _ (by simp)
  refine ⟨?_, ⟨hdigits.1, hdigits.2, ?_, ?_⟩, ?_⟩
  · rw [← htext, List.flatMap_append, List.flatMap_cons, List.append_assoc]
    rfl
  · refine isDigit_getLast?_flatMap_chars (fun lexeme hlexeme => hwf lexeme (by simp [hlexeme])) ?_
    intro lexeme hlast hnumeral
    obtain ⟨init, rfl⟩ := List.getLast?_eq_some_iff.1 hlast
    have hpair : [lexeme, numeral digits] <:+: init ++ [lexeme] ++ numeral digits :: back := ⟨init, back, by simp⟩
    exact hseparated.not_isNumeral_of_infix hpair hnumeral trivial
  · refine isDigit_head?_flatMap_chars (fun lexeme hlexeme => hwf lexeme (by simp [hlexeme])) ?_
    intro lexeme hhead hnumeral
    obtain ⟨rest, rfl⟩ := List.head?_eq_some_iff.1 hhead
    have hpair : [numeral digits, lexeme] <:+: front ++ numeral digits :: lexeme :: rest := ⟨front, rest, by simp⟩
    exact hseparated.not_isNumeral_of_infix hpair trivial hnumeral
  · exact cut_flatMap_chars (fun lexeme hlexeme => hwf lexeme (by simp [hlexeme])) hseparated.left

/-! ### Lexemes that are no tokens -/

/-- A numeral is short enough to be read. -/
def Readable : Lexeme → Prop
  | numeral digits => digits.length ≤ Numeral.maxDigits
  | mark _ => True

end Lexeme

namespace Token

theorem ofLexeme_eq_error_iff {before : Option Lexeme} {lexeme : Lexeme} {error : NumeralError} :
    ofLexeme before lexeme = .error error ↔
      ∃ digits, lexeme = .numeral digits ∧ Numeral.maxDigits < digits.length ∧
        error = .tooLongToRead digits.length := by
  cases lexeme with
  | mark c => simp [ofLexeme_mark]
  | numeral digits =>
    rw [ofLexeme, bind_eq_error_iff]
    by_cases hlength : digits.length ≤ Numeral.maxDigits
    · simp [Numeral.read, hlength, pure, Except.pure]
    · simp [Numeral.read, hlength, Nat.lt_of_not_le hlength, pure, Except.pure, eq_comm]

theorem ofLexeme_ne_error_iff {before : Option Lexeme} {lexeme : Lexeme} :
    (∀ error, ofLexeme before lexeme ≠ .error error) ↔ lexeme.Readable := by
  simp only [ne_eq, ofLexeme_eq_error_iff]
  cases lexeme with
  | mark c => simp [Lexeme.Readable]
  | numeral digits => simp [Lexeme.Readable]

theorem ofLexemes_eq_error_iff {before : Option Lexeme} {lexemes : List Lexeme} {error : NumeralError} :
    ofLexemes before lexemes = .error error ↔
      ∃ front digits back, lexemes = front ++ .numeral digits :: back ∧ (∀ lexeme ∈ front, lexeme.Readable) ∧
        Numeral.maxDigits < digits.length ∧ error = .tooLongToRead digits.length := by
  induction lexemes generalizing before with
  | nil => simp [ofLexemes_nil]
  | cons lexeme rest ih =>
    rw [ofLexemes_cons_eq_error_iff, ofLexeme_eq_error_iff, ofLexeme_ne_error_iff, ih]
    constructor
    · rintro (⟨digits, rfl, hlong, rfl⟩ | ⟨hlexeme, front, digits, back, rfl, hfront, hlong, rfl⟩)
      · exact ⟨[], digits, rest, rfl, by simp, hlong, rfl⟩
      · exact ⟨lexeme :: front, digits, back, rfl, List.forall_mem_cons.2 ⟨hlexeme, hfront⟩, hlong, rfl⟩
    · rintro ⟨front, digits, back, hlexemes, hfront, hlong, rfl⟩
      cases front with
      | nil =>
        obtain ⟨rfl, rfl⟩ := List.cons.inj hlexemes
        exact .inl ⟨digits, rfl, hlong, rfl⟩
      | cons first front =>
        obtain ⟨rfl, rfl⟩ := List.cons.inj hlexemes
        obtain ⟨hlexeme, hfront⟩ := List.forall_mem_cons.1 hfront
        exact .inr ⟨hlexeme, front, digits, back, rfl, hfront, hlong, rfl⟩

end Token

theorem Numeral.write_eq_error_iff {value : Int} {error : NumeralError} :
    Numeral.write value = .error error ↔
      Numeral.maxDigits < (Nat.toDigits 10 value.natAbs).length ∧ error = .tooLongToWrite := by
  rw [← Nat.not_le, Numeral.length_toDigits_le_maxDigits_iff, Numeral.write]
  split <;> simp_all [eq_comm]

section Tokenize

variable {text : String}

/-- A text is refused exactly at its first run of digits that is too long. -/
theorem tokenize_eq_error_iff {error : NumeralError} :
    tokenize text = .error error ↔
      ∃ length, FirstLongRun (Token.significant text) length ∧ error = .tooLongToRead length := by
  rw [tokenize, Token.ofLexemes_eq_error_iff]
  constructor
  · rintro ⟨front, digits, back, hcut, hfront, hlong, rfl⟩
    obtain ⟨htext, hrun, hsame⟩ := Lexeme.isRun_of_cut hcut
    refine ⟨digits.length, ⟨_, digits, _, htext, hrun, rfl, hlong, ?_⟩, rfl⟩
    intro before run after hbefore hinner
    rw [hbefore, Lexeme.cut_append_run hinner] at hsame
    have hmem : Lexeme.numeral run ∈ front := by
      rw [← hsame]
      simp
    exact hfront _ hmem
  · rintro ⟨length, ⟨front, digits, back, htext, hrun, rfl, hlong, hfirst⟩, rfl⟩
    refine ⟨Lexeme.cut front, digits, Lexeme.cut back, ?_, ?_, hlong, rfl⟩
    · rw [htext, Lexeme.cut_append_run hrun]
    · intro lexeme hlexeme
      cases lexeme with
      | mark c => trivial
      | numeral run =>
        obtain ⟨ahead, behind, hcut⟩ := List.append_of_mem hlexeme
        obtain ⟨hfront, hinner, -⟩ := Lexeme.isRun_of_cut hcut
        exact hfirst _ _ _ hfront hinner

end Tokenize

end Calculator
