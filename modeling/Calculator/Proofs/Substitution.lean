import Calculator.Calculation
import Calculator.Proofs.Balance
import Calculator.Proofs.Spelling

/-!
# A text in the place of a variable

Wherever a variable can stand, so can a text in brackets, and it means there what it means alone. The
expression of the whole is then the old one with the expression of the text in the place of the variable
(`parse_insertText`).

Every stage of reading follows the change. Lexemes and tokens change only in place, because the brackets
keep digits on both sides apart and a minus behind a closing bracket is read as one behind a variable. The
run over the tokens goes through the levels it went through before, with groups for variables on them
(`Levels.readAll_replaceAll`). And a group is no operator either, so a range falls apart at the same
places (`Expr.ofItems_substituteAll`).
-/

namespace Calculator

section ReplaceAll

variable {α : Type} [DecidableEq α]

/-- The list with a piece in the place of every occurrence of `a`. -/
def replaceAll (a : α) (piece list : List α) : List α :=
  list.flatMap fun b => if b = a then piece else [b]

theorem replaceAll_cons_self (a : α) (piece rest : List α) :
    replaceAll a piece (a :: rest) = piece ++ replaceAll a piece rest := by
  simp [replaceAll]

theorem replaceAll_cons_of_ne {a b : α} (h : b ≠ a) (piece rest : List α) :
    replaceAll a piece (b :: rest) = b :: replaceAll a piece rest := by
  simp [replaceAll, h]

theorem filter_replaceAll {keep : α → Bool} {a : α} (ha : keep a = true) (piece list : List α) :
    (replaceAll a piece list).filter keep = replaceAll a (piece.filter keep) (list.filter keep) := by
  induction list with
  | nil => rfl
  | cons b rest ih =>
    by_cases hb : b = a
    · subst hb
      rw [replaceAll_cons_self, List.filter_append, ih, List.filter_cons_of_pos ha, replaceAll_cons_self]
    · rw [replaceAll_cons_of_ne hb, List.filter_cons, List.filter_cons, ih]
      split
      · rw [replaceAll_cons_of_ne hb]
      · rfl

end ReplaceAll

/-- The text with another one in the place of every occurrence of a character, between brackets. -/
def insertText (c : Char) (inner text : String) : String :=
  String.ofList (replaceAll c ('(' :: (inner.toList ++ [')'])) text.toList)

theorem significant_insertText {c : Char} (hc : c ≠ ' ') (inner text : String) :
    Token.significant (insertText c inner text) =
      replaceAll c ('(' :: (Token.significant inner ++ [')'])) (Token.significant text) := by
  rw [Token.significant, insertText, String.toList_ofList, filter_replaceAll (by simpa using hc)]
  simp [Token.significant]

/-! ### Lexemes -/

namespace Lexeme

theorem consDigit_replaceAll (digit c d : Char) (piece lexemes : List Lexeme) :
    consDigit digit (replaceAll (mark c) (mark d :: piece) lexemes) =
      replaceAll (mark c) (mark d :: piece) (consDigit digit lexemes) := by
  have hnumeral (digits : List Char) : numeral digits ≠ mark c := nofun
  cases lexemes with
  | nil => exact (replaceAll_cons_of_ne (hnumeral [digit]) (mark d :: piece) []).symm
  | cons lexeme rest =>
    cases lexeme with
    | numeral digits =>
      rw [replaceAll_cons_of_ne (hnumeral digits), consDigit, consDigit, replaceAll_cons_of_ne (hnumeral _)]
    | mark e =>
      show _ = replaceAll (mark c) (mark d :: piece) (numeral [digit] :: mark e :: rest)
      rw [replaceAll_cons_of_ne (hnumeral [digit])]
      by_cases he : mark e = mark c
      · rw [he, replaceAll_cons_self]
        rfl
      · rw [replaceAll_cons_of_ne he]
        rfl

theorem cut_replaceAll {c : Char} (hc : ¬ c.isDigit) (inner chars : List Char) :
    cut (replaceAll c ('(' :: (inner ++ [')'])) chars) =
      replaceAll (mark c) (mark '(' :: (cut inner ++ [mark ')'])) (cut chars) := by
  induction chars with
  | nil => rfl
  | cons d rest ih =>
    by_cases hd : d = c
    · subst hd
      rw [replaceAll_cons_self, cut_cons_mark hc, replaceAll_cons_self, ← ih]
      simp only [List.cons_append, List.append_assoc, List.nil_append]
      rw [cut_cons_mark (by decide), cut_append_mark (by decide)]
    · have hmark : mark d ≠ mark c := fun heq => hd (mark.inj heq)
      rw [replaceAll_cons_of_ne hd, cut, cut, ih]
      split
      · exact consDigit_replaceAll d c '(' _ _
      · rw [replaceAll_cons_of_ne hmark]

end Lexeme

/-! ### Tokens -/

namespace Token

theorem ofLexemes_brackets {before : Option Lexeme} {lexemes rest : List Lexeme} {tokens others : List Token}
    (h : ofLexemes none lexemes = .ok tokens) (hrest : ofLexemes (some (.mark ')')) rest = .ok others) :
    ofLexemes before (.mark '(' :: (lexemes ++ .mark ')' :: rest)) =
      .ok (.bracket .opening :: (tokens ++ .bracket .closing :: others)) := by
  have hopens : Lexeme.opensOperand (some (.mark '(')) = Lexeme.opensOperand none := by decide
  have hinner : ofLexemes (some (.mark '(')) lexemes = .ok tokens := by
    rw [ofLexemes_congr hopens]
    exact h
  have hclosing (last : Option Lexeme) :
      ofLexemes last (.mark ')' :: rest) = .ok (.bracket .closing :: others) :=
    ofLexemes_cons_eq_ok_iff.2 ⟨.bracket .closing, others, rfl, hrest, rfl⟩
  refine ofLexemes_cons_eq_ok_iff.2 ⟨.bracket .opening, _, rfl, ?_, rfl⟩
  rw [ofLexemes_append hinner, hclosing]
  rfl

theorem eq_of_ofMark_eq_variable {isSign : Bool} {c d : Char}
    (h : ofMark isSign d = .variable (String.singleton c)) : d = c := by
  have hname : String.singleton d = String.singleton c := by
    unfold ofMark at h
    split at h <;> simp_all
  simpa using congrArg String.toList hname

theorem ofLexemes_replaceAll {before : Option Lexeme} {c : Char} {lexemes inner : List Lexeme}
    {tokens innerTokens : List Token} (hc : IsNameChar c) (hinner : ofLexemes none inner = .ok innerTokens)
    (h : ofLexemes before lexemes = .ok tokens) :
    ofLexemes before (replaceAll (.mark c) (.mark '(' :: (inner ++ [.mark ')'])) lexemes) =
      .ok (replaceAll (.variable (String.singleton c))
        (.bracket .opening :: (innerTokens ++ [.bracket .closing])) tokens) := by
  induction lexemes generalizing before tokens with
  | nil =>
    obtain rfl := eq_nil_of_ofLexemes h
    exact ofLexemes_nil before
  | cons lexeme rest ih =>
    obtain ⟨token, others, htoken, hothers, rfl⟩ := ofLexemes_cons_eq_ok_iff.1 h
    by_cases hlexeme : lexeme = .mark c
    · subst hlexeme
      rw [ofLexeme_mark, ofMark_of_isNameChar hc] at htoken
      obtain rfl := Except.ok.inj htoken
      -- A minus is no sign behind a variable, and none behind a closing bracket.
      have hplace : Lexeme.opensOperand (some (.mark c)) = Lexeme.opensOperand (some (.mark ')')) := by
        apply Bool.eq_iff_iff.2
        exact (WrittenAs.name hc).opensOperand_iff.trans (WrittenAs.bracket .closing).opensOperand_iff.symm
      rw [ofLexemes_congr hplace] at hothers
      rw [replaceAll_cons_self, replaceAll_cons_self]
      simp only [List.cons_append, List.append_assoc, List.nil_append]
      exact ofLexemes_brackets hinner (ih hothers)
    · have htokenNe : token ≠ .variable (String.singleton c) := by
        rintro rfl
        obtain ⟨d, rfl, hd⟩ := exists_mark_of_ofLexeme htoken (by simp)
        exact hlexeme (congrArg _ (eq_of_ofMark_eq_variable hd))
      rw [replaceAll_cons_of_ne hlexeme, replaceAll_cons_of_ne htokenNe]
      exact ofLexemes_cons_eq_ok_iff.2 ⟨token, _, htoken, ih hothers, rfl⟩

end Token

theorem tokenize_insertText {c : Char} {inner text : String} {tokens innerTokens : List Token} (hc : IsNameChar c)
    (hinner : tokenize inner = .ok innerTokens) (htext : tokenize text = .ok tokens) :
    tokenize (insertText c inner text) =
      .ok (replaceAll (.variable (String.singleton c))
        (.bracket .opening :: (innerTokens ++ [.bracket .closing])) tokens) := by
  have hspace : c ≠ ' ' := fun heq => hc.2 (by simp [heq])
  rw [tokenize, significant_insertText hspace, Lexeme.cut_replaceAll hc.1]
  exact Token.ofLexemes_replaceAll hc hinner htext

theorem isNameChar_of_tokenize_singleton {c : Char} {name : String}
    (h : tokenize (String.singleton c) = .ok [.variable name]) : IsNameChar c := by
  by_cases hspace : c = ' '
  · subst hspace
    have hempty : tokenize (String.singleton ' ') = .ok [] := by decide +kernel
    rw [hempty] at h
    simp at h
  · have hchars : Token.significant (String.singleton c) = [c] := by simp [Token.significant, hspace]
    rw [tokenize, hchars] at h
    by_cases hdigit : c.isDigit
    · rw [Lexeme.cut, if_pos hdigit] at h
      obtain ⟨token, _, htoken, _, htokens⟩ := Token.ofLexemes_cons_eq_ok_iff.1 h
      obtain ⟨value, rfl⟩ := Token.exists_number_of_ofLexeme htoken
      simp at htokens
    · rw [Lexeme.cut_cons_mark hdigit] at h
      obtain ⟨token, _, htoken, _, htokens⟩ := Token.ofLexemes_cons_eq_ok_iff.1 h
      obtain rfl := (List.cons.inj htokens).1
      rw [Token.ofLexeme_mark] at htoken
      exact (isNameChar_of_ofMark (Except.ok.inj htoken) hdigit hspace).1

/-! ### Items -/

namespace Item

section Substitute

variable (name : String) (inner : List Item)

mutual
/-- The item with a group in the place of every variable of that name. -/
def substitute : Item → Item
  | token t => if t = .variable name then group inner else token t
  | group items => group (substituteAll items)

def substituteAll : List Item → List Item
  | [] => []
  | item :: rest => item.substitute :: substituteAll rest
end

@[simp] theorem substitute_variable : substitute name inner (token (.variable name)) = group inner := by
  simp [substitute]

theorem substitute_token_of_ne {t : Token} (h : t ≠ .variable name) : substitute name inner (token t) = token t := by
  simp [substitute, h]

@[simp] theorem substitute_group (items : List Item) :
    substitute name inner (group items) = group (substituteAll name inner items) := by
  simp [substitute]

theorem substituteAll_eq_map (items : List Item) : substituteAll name inner items = items.map (substitute name inner) := by
  induction items with
  | nil => simp [substituteAll]
  | cons item rest ih => simp [substituteAll, ih]

end Substitute

end Item

/-! ### Levels -/

namespace Levels

open Item

variable {name : String} {inner : List Item}

/-- The levels with a group in the place of every variable of that name. -/
def substitute (name : String) (inner : List Item) (levels : Levels) : Levels :=
  ⟨substituteAll name inner levels.current, levels.enclosing.map (substituteAll name inner)⟩

theorem substitute_push (levels : Levels) (item : Item) :
    (levels.push item).substitute name inner = (levels.substitute name inner).push (item.substitute name inner) := by
  simp [substitute, push, substituteAll]

/-- Any other token does to the changed levels what it does to the levels. -/
theorem read?_substitute (levels : Levels) {token : Token} (h : token ≠ .variable name) :
    (levels.substitute name inner).read? token = (levels.read? token).map (substitute name inner) := by
  unfold read?
  split
  · simp [substitute, enter, substituteAll]
  · obtain ⟨current, enclosing⟩ := levels
    cases enclosing with
    | nil => rfl
    | cons outer enclosing => simp [substitute, leave?, substituteAll, substituteAll_eq_map]
  · rw [Option.map_some, substitute_push, substitute_token_of_ne name inner h]

theorem readAll_replaceAll (hinner : AllNested inner) (levels : Levels) (index place : Nat) (tokens : List Token) :
    ((levels.substitute name inner).readAll place
        (replaceAll (.variable name) (Item.group inner).tokens tokens)).toOption =
      (levels.readAll index tokens).toOption.map (substitute name inner) := by
  induction tokens generalizing levels index place with
  | nil => rfl
  | cons token rest ih =>
    by_cases htoken : token = .variable name
    · subst htoken
      have hpush : (levels.substitute name inner).push (.group inner) =
          (levels.push (.token (.variable name))).substitute name inner := by
        rw [substitute_push, substitute_variable]
      rw [replaceAll_cons_self, readAll_tokens _ place _ (.group inner) (nested_group.2 hinner), hpush]
      exact ih (levels.push (.token (.variable name))) (index + 1) _
    · rw [replaceAll_cons_of_ne htoken, Levels.readAll, Levels.readAll, read?_substitute levels htoken]
      cases levels.read? token with
      | none => rfl
      | some next => exact ih next (index + 1) (place + 1)

theorem items_substitute (levels : Levels) :
    (levels.substitute name inner).items = substituteAll name inner levels.items := by
  obtain ⟨current, enclosing⟩ := levels
  induction enclosing generalizing current with
  | nil => simp [substitute, items, substituteAll_eq_map]
  | cons outer enclosing ih =>
    have hclosed := ih (.group current.reverse :: outer)
    simpa [substitute, items, substituteAll, substituteAll_eq_map] using hclosed

end Levels

theorem toOption_nest (tokens : List Token) :
    (nest tokens).toOption = (Levels.start.readAll 0 tokens).toOption.map Levels.items := by
  unfold nest
  cases Levels.start.readAll 0 tokens <;> rfl

theorem toOption_nest_replaceAll (name : String) {inner : List Item} (hinner : Item.AllNested inner)
    (tokens : List Token) :
    (nest (replaceAll (.variable name) (Item.group inner).tokens tokens)).toOption =
      (nest tokens).toOption.map (Item.substituteAll name inner) := by
  have hread : (Levels.start.readAll 0 (replaceAll (.variable name) (Item.group inner).tokens tokens)).toOption =
      (Levels.start.readAll 0 tokens).toOption.map (Levels.substitute name inner) :=
    Levels.readAll_replaceAll hinner Levels.start 0 0 tokens
  rw [toOption_nest, toOption_nest, hread, Option.map_map, Option.map_map]
  congr 1
  funext levels
  exact Levels.items_substitute levels

/-! ### Expressions -/

section Ranges

variable {f : Item → Item}

theorem operatorsBelow_map (hf : ∀ item, (f item).operator? = item.operator?) {bound : Nat} {range : List Item} :
    OperatorsBelow bound (range.map f) ↔ OperatorsBelow bound range := by
  simp [OperatorsBelow, hf]

theorem weakest?_map (hf : ∀ item, (f item).operator? = item.operator?) (range : List Item) :
    weakest? (range.map f) = weakest? range := by
  induction range with
  | nil => rfl
  | cons item rest ih => rw [List.map_cons, weakest?, weakest?, hf, ih]

end Ranges

namespace Item

theorem operator?_substitute (name : String) (inner : List Item) (item : Item) :
    (item.substitute name inner).operator? = item.operator? := by
  cases item with
  | token t =>
    by_cases ht : t = .variable name
    · subst ht
      rw [substitute_variable]
      rfl
    · rw [substitute_token_of_ne name inner ht]
  | group items =>
    rw [substitute_group]
    rfl

end Item

namespace Expr

open Item

/-- The expression with another one in the place of every variable of that name. -/
def substitute (expr : Expr) (name : String) (operand : Expr) : Expr :=
  match expr with
  | absent => absent
  | number value => number value
  | .variable other => if other = name then operand else .variable other
  | neg inner => neg (inner.substitute name operand)
  | binary op left right => binary op (left.substitute name operand) (right.substitute name operand)

variable {name : String} {inner : List Item} {operand : Expr}

/-- A range with groups in the place of variables is split where it was split before. -/
theorem ofItems_substituteAll (hinner : ofItems inner = .ok operand) (items : List Item) :
    ofItems (substituteAll name inner items) = (·.substitute name operand) <$> ofItems items := by
  have hweakests := weakest?_map (operator?_substitute name inner)
  rw [substituteAll_eq_map]
  induction items using range_cases_induction with
  | number value =>
    rw [List.map_singleton, substitute_token_of_ne name inner (by simp), ofItems_number]
    rfl
  | name other =>
    by_cases hother : other = name
    · subst hother
      rw [List.map_singleton, substitute_variable, ofItems_group, hinner, ofItems_variable]
      simp [Functor.map, Except.map, substitute]
    · rw [List.map_singleton, substitute_token_of_ne name inner (by simpa using hother), ofItems_variable]
      simp [Functor.map, Except.map, substitute, hother]
  | bracket side =>
    rw [List.map_singleton, substitute_token_of_ne name inner (by simp), ofItems_bracket]
    rfl
  | group items ih => rw [List.map_singleton, substitute_group, ofItems_group, ofItems_group, substituteAll_eq_map, ih]
  | absent range hnone hlength =>
    have hweakest := weakest?_eq_none_iff.2 hnone
    have hchanged := (hweakests range).trans hweakest
    rw [ofItems_of_length_ne_one hweakest hlength, ofItems_of_length_ne_one hchanged (by simpa using hlength)]
    rfl
  | sign range place hweakest ih =>
    have hchanged := (hweakests range).trans hweakest
    rw [ofItems_of_weakest?_neg hweakest, ofItems_of_weakest?_neg hchanged, ← List.map_tail, ih]
    cases ofItems range.tail <;> rfl
  | split before op after hbefore hafter ihBefore ihAfter =>
    have hchangedBefore := (operatorsBelow_map (operator?_substitute name inner)).2 hbefore
    have hchangedAfter := (operatorsBelow_map (operator?_substitute name inner)).2 hafter
    rw [List.map_append, List.map_cons, substitute_token_of_ne name inner (by simp),
      ofItems_append_binary hbefore hafter, ofItems_append_binary hchangedBefore hchangedAfter, ihBefore, ihAfter]
    cases ofItems before with
    | error error => rfl
    | ok left => cases ofItems after <;> rfl

end Expr

/-- A text whose brackets are matched and closed can stand for a variable. The whole is refused if it was
refused before, and otherwise its expression has that of the text in every place of the variable. -/
theorem parse_insertText {c : Char} {inner text : String}
    (hname : ∃ name, tokenize (String.singleton c) = .ok [.variable name])
    (hinner : ∃ tokens, tokenize inner = .ok tokens) (hmatched : ClosingsMatched inner) (hclosed : unclosed inner = 0)
    (htext : ∃ tokens, tokenize text = .ok tokens) :
    (∃ tokens, tokenize (insertText c inner text) = .ok tokens) ∧
      ((∃ error, parse (insertText c inner text) = .error (.parse (.unmatchedClosing error))) ↔
        ∃ error, parse text = .error (.parse (.unmatchedClosing error))) ∧
      ((∀ error, parse text ≠ .error (.parse (.unmatchedClosing error))) →
        ∃ expr operand, parse text = .ok expr ∧ parse inner = .ok operand ∧
          parse (insertText c inner text) = .ok (expr.substitute (String.singleton c) operand)) := by
  obtain ⟨name, hname⟩ := hname
  obtain ⟨innerTokens, hinner⟩ := hinner
  obtain ⟨tokens, htext⟩ := htext
  obtain ⟨innerItems, hinnerNest, hnested, hall⟩ := exists_nest_of_tokenize hinner hmatched
  obtain ⟨operand, hoperand, -⟩ := Expr.exists_ofTokens_eq_ok hinnerNest
  have hchanged := tokenize_insertText (isNameChar_of_tokenize_singleton hname) hinner htext
  rw [hclosed, List.replicate_zero, List.append_nil] at hall
  rw [← hall, ← Item.tokens_group] at hchanged
  have hnests := toOption_nest_replaceAll (String.singleton c) hnested tokens
  refine ⟨⟨_, hchanged⟩, ?_, ?_⟩
  · simp only [parse_eq_unmatchedClosing_iff hchanged, parse_eq_unmatchedClosing_iff htext, ← toOption_eq_none_iff]
    rw [hnests, Option.map_eq_none_iff]
  · intro hfits
    cases hnest : nest tokens with
    | error error => exact (hfits error ((parse_eq_unmatchedClosing_iff htext).2 hnest)).elim
    | ok items =>
      obtain ⟨expr, hexpr, -⟩ := Expr.exists_ofTokens_eq_ok hnest
      rw [toOption_eq_some_iff.2 hnest] at hnests
      refine ⟨expr, operand, parse_eq_ok_of_nest htext hnest hexpr, parse_eq_ok_of_nest hinner hinnerNest hoperand, ?_⟩
      refine parse_eq_ok_of_nest hchanged (toOption_eq_some_iff.1 hnests) ?_
      rw [Expr.ofItems_substituteAll hoperand, hexpr]
      rfl

/-- A difference, behind a sign and inside a bracket that is left open. -/
theorem parse_insertText_difference :
    insertText 'x' "a-b" "-x*(x+1" = "-(a-b)*((a-b)+1" ∧
      parse "-(a-b)*((a-b)+1" =
        .ok (.binary .mul (.neg (.binary .sub (.variable "a") (.variable "b")))
          (.binary .add (.binary .sub (.variable "a") (.variable "b")) (.number 1))) := by
  have hinsert : insertText 'x' "a-b" "-x*(x+1" = "-(a-b)*((a-b)+1" := by decide +kernel
  have hname : tokenize (String.singleton 'x') = .ok [.variable "x"] := by decide +kernel
  have hinner : tokenize "a-b" = .ok [.variable "a", .operator (.binary .sub), .variable "b"] := by decide +kernel
  have htext : tokenize "-x*(x+1" = .ok [.operator .neg, .variable "x", .operator (.binary .mul), .bracket .opening,
      .variable "x", .operator (.binary .add), .number 1] := by decide +kernel
  have hparse : parse "-x*(x+1" = .ok (.binary .mul (.neg (.variable "x"))
      (.binary .add (.variable "x") (.number 1))) := by decide +kernel
  have hparseInner : parse "a-b" = .ok (.binary .sub (.variable "a") (.variable "b")) := by decide +kernel
  obtain ⟨-, -, hchanged⟩ := parse_insertText ⟨"x", hname⟩ ⟨_, hinner⟩ (by decide +kernel) (by decide +kernel)
    ⟨_, htext⟩
  obtain ⟨expr, operand, hexpr, hoperand, hresult⟩ := hchanged (by simp [hparse])
  obtain rfl := Except.ok.inj (hparse.symm.trans hexpr)
  obtain rfl := Except.ok.inj (hparseInner.symm.trans hoperand)
  rw [hinsert] at hresult
  refine ⟨hinsert, hresult.trans ?_⟩
  decide +kernel

end Calculator
