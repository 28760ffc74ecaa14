import Calculator.Proofs.Cursor

/-!
# Two texts one behind the other

A text that is put behind another one keeps its tokens, and so does the one in front, unless the seam
changes what the characters beside it mean. There are two ways in which it can. Digits on both sides are
one numeral, so there is a token less than before. And a minus that was a sign because its text started
with it has something in front of it now, behind which it may subtract. There is no third
(`tokenize_append_eq_iff`).

The lexemes tell the two apart. Only digits on both sides keep the whole from being cut at the seam
(`Lexeme.cut_append`, `Lexeme.length_cut_append_lt`), and of the lexeme in front of the seam only its last
character matters, to nothing but a minus (`Token.ofLexemes_eq_ok_iff_of_none`).
-/

namespace Calculator

theorem significant_append (left right : String) :
    Token.significant (left ++ right) = Token.significant left ++ Token.significant right := by
  rw [Token.significant, String.toList_append, List.filter_append]
  rfl

namespace Lexeme

section Cut

variable {front back : List Char}

theorem cut_append (h : ∀ last ∈ front.getLast?, ∀ first ∈ back.head?, ¬ (last.isDigit ∧ first.isDigit)) :
    cut (front ++ back) = cut front ++ cut back := by
  rcases List.eq_nil_or_concat front with rfl | ⟨init, last, rfl⟩
  · rfl
  · rw [List.concat_eq_append] at h ⊢
    by_cases hlast : last.isDigit
    · cases back with
      | nil => rw [List.append_nil, cut, List.append_nil]
      | cons first back =>
        have hfirst : ¬ first.isDigit := fun hfirst => h last (by simp) first rfl ⟨hlast, hfirst⟩
        rw [cut_append_mark hfirst, cut_cons_mark hfirst]
    · rw [List.append_assoc, List.singleton_append, cut_append_mark hlast, cut_append_mark hlast, cut,
        List.append_assoc, List.singleton_append]

theorem exists_cut_eq_numeral_cons {c : Char} (hc : c.isDigit) (rest : List Char) :
    ∃ digits lexemes, cut (c :: rest) = numeral digits :: lexemes := by
  rw [cut, if_pos hc]
  unfold consDigit
  split
  · exact ⟨_, _, rfl⟩
  · exact ⟨_, _, rfl⟩

theorem length_cut_singleton (c : Char) : (cut [c]).length = 1 := by
  rw [cut]
  split <;> rfl

theorem length_cut_cons_cons (c d : Char) (rest : List Char) :
    (cut (c :: d :: rest)).length = (cut (d :: rest)).length + if c.isDigit ∧ d.isDigit then 0 else 1 := by
  by_cases hpair : c.isDigit ∧ d.isDigit
  · obtain ⟨digits, lexemes, hcut⟩ := exists_cut_eq_numeral_cons hpair.2 rest
    rw [if_pos hpair, cut, if_pos hpair.1, hcut]
    rfl
  · have hseam : cut ([c] ++ d :: rest) = cut [c] ++ cut (d :: rest) := cut_append (by simpa using hpair)
    rw [List.singleton_append] at hseam
    rw [if_neg hpair, hseam, List.length_append, length_cut_singleton, Nat.add_comm]

/-- Digits on both sides are one numeral. -/
theorem length_cut_append_lt {last first : Char} (hlast : front.getLast? = some last)
    (hfirst : back.head? = some first) (hdigits : last.isDigit ∧ first.isDigit) :
    (cut (front ++ back)).length < (cut front).length + (cut back).length := by
  obtain ⟨back, rfl⟩ := List.head?_eq_some_iff.1 hfirst
  induction front with
  | nil => nomatch hlast
  | cons c front ih =>
    cases front with
    | nil =>
      obtain rfl : c = last := by simpa using hlast
      rw [List.singleton_append, length_cut_cons_cons, if_pos hdigits, length_cut_singleton]
      omega
    | cons d front =>
      -- The first character counts for the whole as it counts for the text in front.
      have hrest := ih hlast
      simp only [List.cons_append] at hrest ⊢
      rw [length_cut_cons_cons, length_cut_cons_cons]
      omega

theorem head?_cut_eq_mark_iff {text : List Char} {c : Char} (hc : ¬ c.isDigit) :
    (cut text).head? = some (mark c) ↔ text.head? = some c := by
  cases text with
  | nil => simp [cut]
  | cons first rest =>
    by_cases hfirst : first.isDigit
    · obtain ⟨digits, lexemes, hcut⟩ := exists_cut_eq_numeral_cons hfirst rest
      rw [hcut]
      simp only [List.head?_cons, Option.some.injEq, reduceCtorEq, false_iff]
      rintro rfl
      exact hc hfirst
    · rw [cut_cons_mark hfirst]
      simp

theorem opensOperand_getLast?_cut (text : List Char) : opensOperand (cut text).getLast? = true ↔ SignBehind text := by
  have htext := flatMap_chars_cut text
  have hwf := wellFormed_of_mem_cut text
  rcases List.eq_nil_or_concat (cut text) with hnil | ⟨init, lexeme, hcut⟩
  · rw [hnil] at htext ⊢
    rw [← htext]
    exact opensOperand_none_iff
  · rw [hcut, List.concat_eq_append] at htext hwf ⊢
    rw [List.getLast?_concat, opensOperand_some_iff (hwf lexeme (by simp)) (init.flatMap chars), ← htext]
    simp

end Cut

end Lexeme

/-- Lexemes that are tokens at the start of a text are the same tokens behind any lexeme, unless a minus
comes first and is no sign there. -/
theorem Token.ofLexemes_eq_ok_iff_of_none {before : Option Lexeme} {lexemes : List Lexeme} {tokens : List Token}
    (h : ofLexemes none lexemes = .ok tokens) :
    ofLexemes before lexemes = .ok tokens ↔
      ¬ (lexemes.head? = some (.mark '-') ∧ Lexeme.opensOperand before = false) := by
  by_cases hopens : Lexeme.opensOperand before = true
  · have hstart : Lexeme.opensOperand before = Lexeme.opensOperand none := hopens
    rw [ofLexemes_congr hstart]
    simp [h, hopens]
  · rw [Bool.not_eq_true] at hopens
    cases lexemes with
    | nil => simpa [ofLexemes_nil] using h
    | cons lexeme rest =>
      obtain ⟨token, others, htoken, hothers, rfl⟩ := ofLexemes_cons_eq_ok_iff.1 h
      by_cases hminus : lexeme = .mark '-'
      · subst hminus
        rw [ofLexeme_mark] at htoken
        obtain rfl := Except.ok.inj htoken
        refine iff_of_false (fun hread => ?_) (fun hnot => hnot ⟨rfl, hopens⟩)
        obtain ⟨token, _, htoken, _, htokens⟩ := ofLexemes_cons_eq_ok_iff.1 hread
        rw [ofLexeme_mark, hopens] at htoken
        obtain rfl := Except.ok.inj htoken
        have hkind := (List.cons.inj htokens).1
        nomatch hkind
      · have hlexeme : ofLexeme before lexeme = ofLexeme none lexeme := by
          cases lexeme with
          | numeral digits => rfl
          | mark c =>
            have hc : c ≠ '-' := fun heq => hminus (congrArg _ heq)
            rw [ofLexeme_mark, ofLexeme_mark, Cursor.ofMark_eq_of_lookup _ hc, Cursor.ofMark_eq_of_lookup _ hc]
        refine iff_of_true ?_ (fun hfirst => hminus (Option.some.inj hfirst.1))
        exact ofLexemes_cons_eq_ok_iff.2 ⟨token, others, hlexeme.trans htoken, hothers, rfl⟩

section Tokenize

variable {left right : String} {leftTokens rightTokens : List Token}

theorem tokenize_append (hleft : tokenize left = .ok leftTokens)
    (hcut : Lexeme.cut (Token.significant (left ++ right)) =
      Lexeme.cut (Token.significant left) ++ Lexeme.cut (Token.significant right)) :
    tokenize (left ++ right) = (leftTokens ++ ·) <$>
      Token.ofLexemes (Lexeme.cut (Token.significant left)).getLast? (Lexeme.cut (Token.significant right)) := by
  rw [tokenize, hcut, Token.ofLexemes_append hleft, Option.or_none]

/-- The tokens of two texts, one behind the other, are those of each of them exactly if there are not
digits on both sides of the seam and no minus behind it that has turned from a sign into a subtraction. -/
theorem tokenize_append_eq_iff {last first : Char} (hleft : tokenize left = .ok leftTokens)
    (hright : tokenize right = .ok rightTokens) (hlast : (left.toList.filter (· ≠ ' ')).getLast? = some last)
    (hfirst : (right.toList.filter (· ≠ ' ')).head? = some first) :
    tokenize (left ++ right) = .ok (leftTokens ++ rightTokens) ↔
      ¬ (last.isDigit ∧ first.isDigit) ∧ ¬ (first = '-' ∧ last ∉ ['(', '*', '+', '/', '-']) := by
  rw [← Token.significant] at hlast hfirst
  by_cases hdigits : last.isDigit ∧ first.isDigit
  · refine iff_of_false (fun hboth => ?_) (fun h => h.1 hdigits)
    have hleftLength := Token.length_of_ofLexemes hleft
    have hrightLength := Token.length_of_ofLexemes hright
    have hlength := Token.length_of_ofLexemes hboth
    have hmerged := Lexeme.length_cut_append_lt hlast hfirst hdigits
    rw [significant_append, List.length_append] at hlength
    omega
  · have hcut : Lexeme.cut (Token.significant (left ++ right)) =
        Lexeme.cut (Token.significant left) ++ Lexeme.cut (Token.significant right) := by
      rw [significant_append]
      refine Lexeme.cut_append ?_
      simpa [hlast, hfirst] using hdigits
    have hsign : SignBehind (Token.significant left) ↔ last ∈ ['(', '*', '+', '/', '-'] := by
      have hne : Token.significant left ≠ [] := fun hnil => by simp [hnil] at hlast
      simp [SignBehind, hne, hlast]
    have hminus : (Lexeme.cut (Token.significant right)).head? = some (.mark '-') ↔ first = '-' := by
      rw [Lexeme.head?_cut_eq_mark_iff (by decide), hfirst, Option.some.injEq]
    have hsame : tokenize (left ++ right) = .ok (leftTokens ++ rightTokens) ↔
        Token.ofLexemes (Lexeme.cut (Token.significant left)).getLast? (Lexeme.cut (Token.significant right)) =
          .ok rightTokens := by
      rw [tokenize_append hleft hcut, map_eq_ok_iff]
      simp
    rw [hsame, Token.ofLexemes_eq_ok_iff_of_none hright, hminus, ← Bool.not_eq_true,
      Lexeme.opensOperand_getLast?_cut, hsign]
    exact (and_iff_right hdigits).symm

/-- Behind an asterisk a minus stays the sign that it was, and behind a dot it does not. -/
theorem tokenize_append_of_minus :
    tokenize ("2 * " ++ " - x") = .ok ([.number 2, .operator (.binary .mul)] ++ [.operator .neg, .variable "x"]) ∧
      tokenize ("2 ⋅ " ++ " - x") ≠ .ok ([.number 2, .operator (.binary .mul)] ++ [.operator .neg, .variable "x"]) := by
  have hasterisk : tokenize "2 * " = .ok [.number 2, .operator (.binary .mul)] := by decide +kernel
  have hdot : tokenize "2 ⋅ " = .ok [.number 2, .operator (.binary .mul)] := by decide +kernel
  have hminus : tokenize " - x" = .ok [.operator .neg, .variable "x"] := by decide +kernel
  have hbehind : (" - x".toList.filter (· ≠ ' ')).head? = some '-' := by decide +kernel
  have hasteriskLast : ("2 * ".toList.filter (· ≠ ' ')).getLast? = some '*' := by decide +kernel
  have hdotLast : ("2 ⋅ ".toList.filter (· ≠ ' ')).getLast? = some '⋅' := by decide +kernel
  refine ⟨(tokenize_append_eq_iff hasterisk hminus hasteriskLast hbehind).2 (by decide), ?_⟩
  rw [ne_eq, tokenize_append_eq_iff hdot hminus hdotLast hbehind]
  decide

end Tokenize

end Calculator
