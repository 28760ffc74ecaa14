import Calculator.Calculation
import Calculator.Proofs.Balance
import Calculator.Proofs.Spelling

/-!
# Expressions as they are printed

An expression can be printed in many ways. Brackets are needed where an operand is looser than its place
allows, they may stand around anything else, and what is absent is a pair of brackets with nothing in it
(`Printed`). Whatever is printed is read as the expression it was printed from (`parse_of_isPrint`).

Every print has a range of items behind it (`Printed.exists_shows`), put together as the print is. What
makes it the range of the expression is that its operators are below the bound that goes with the place,
and what makes its tokens come back from the print is that operands end in a token behind which a minus
subtracts, while operators and opening brackets stand before one that starts an operand.
-/

namespace Calculator

open Item

namespace Expr

/-- The precedence of the operator at the root. What has no operator holds together most tightly. -/
def precedence : Expr → Nat
  | absent | number _ | .variable _ => 0
  | neg _ => Operator.neg.precedence
  | binary op _ _ => op.precedence

end Expr

/-- The ways to print an expression, without spaces. The flag tells whether a pair of brackets is around
the whole print.

The operand of a sign has to stand in brackets if it is looser than the sign, a left operand if it is
looser than its operator, and a right operand also if it is as loose as that. -/
inductive Printed : Bool → Expr → List Char → Prop where
  | absent : Printed false .absent ['(', ')']
  | name {c : Char} (hc : IsNameChar c) : Printed false (.variable (String.singleton c)) [c]
  | number {n : Nat} (hn : (Nat.toDigits 10 n).length ≤ Numeral.maxDigits) :
      Printed false (.number n) (Nat.toDigits 10 n)
  | neg {inBrackets : Bool} {operand : Expr} {print : List Char} (hoperand : Printed inBrackets operand print)
      (hbrackets : Operator.neg.precedence < operand.precedence → inBrackets = true) :
      Printed false (.neg operand) ('-' :: print)
  | binary {leftInBrackets rightInBrackets : Bool} {left right : Expr} {front back : List Char} (op : BinaryOp)
      (hleft : Printed leftInBrackets left front) (hright : Printed rightInBrackets right back)
      (hleftBrackets : op.precedence < left.precedence → leftInBrackets = true)
      (hrightBrackets : op.precedence ≤ right.precedence → rightInBrackets = true) :
      Printed false (.binary op left right) (front ++ (Operator.binary op).char :: back)
  | brackets {inBrackets : Bool} {expr : Expr} {print : List Char} (h : Printed inBrackets expr print) :
      Printed true expr ('(' :: (print ++ [')']))

/-- The text is a print of the expression, into which spaces may have been inserted anywhere. -/
def IsPrint (text : String) (expr : Expr) : Prop :=
  ∃ inBrackets, Printed inBrackets expr (text.toList.filter (· ≠ ' '))

/-! ### Tokens and their print -/

namespace Token

/-- The tokens may be neighbours: each of them keeps its meaning when they are spelled. -/
structure Fits (left right : Token) : Prop where
  numbers : left.IsNumber → ¬ right.IsNumber
  sign : right = .operator .neg → left.OpensOperand
  subtraction : right = .operator (.binary .sub) → left.EndsOperand

variable {left right : Token}

theorem fits_of_opensOperand (hleft : left.OpensOperand) (hright : right ≠ .operator (.binary .sub)) :
    Fits left right where
  numbers hnumber := by
    cases left with
    | number value => exact hleft.elim
    | «variable» name => exact hleft.elim
    | operator op => exact hnumber.elim
    | bracket side => exact hnumber.elim
  sign _ := hleft
  subtraction hsub := absurd hsub hright

theorem fits_of_endsOperand (hleft : left.EndsOperand) (op : BinaryOp) : Fits left (.operator (.binary op)) where
  numbers _ hnumber := hnumber.elim
  sign hneg := nomatch hneg
  subtraction _ := hleft

theorem fits_closing (left : Token) : Fits left (.bracket .closing) where
  numbers _ hnumber := hnumber.elim
  sign hneg := nomatch hneg
  subtraction hsub := nomatch hsub

end Token

/-- Tokens that fit together and the characters of their spelling. -/
structure SpelledAs (tokens : List Token) (print : List Char) : Prop where
  written : ∃ lexemes, List.Forall₂ Token.WrittenAs tokens lexemes ∧ lexemes.flatMap Lexeme.chars = print
  fits : tokens.IsChain Token.Fits

namespace SpelledAs

variable {tokens front back : List Token} {print frontPrint backPrint : List Char}

theorem tokenize_eq {text : String} (h : SpelledAs tokens print)
    (hfirst : tokens.head? ≠ some (.operator (.binary .sub))) (htext : Token.significant text = print) :
    tokenize text = .ok tokens := by
  obtain ⟨lexemes, hwritten, rfl⟩ := h.written
  exact Token.tokenize_of_writtenAs hwritten (h.fits.imp fun _ _ hfits => hfits.numbers)
    (h.fits.imp fun _ _ hfits => hfits.sign) hfirst (h.fits.imp fun _ _ hfits => hfits.subtraction) htext

theorem nil : SpelledAs [] [] :=
  ⟨⟨[], .nil, rfl⟩, .nil⟩

theorem single {token : Token} {lexeme : Lexeme} (h : token.WrittenAs lexeme) : SpelledAs [token] lexeme.chars :=
  ⟨⟨[lexeme], .cons h .nil, by simp⟩, .singleton token⟩

theorem append (hfront : SpelledAs front frontPrint) (hback : SpelledAs back backPrint)
    (hfits : ∀ last ∈ front.getLast?, ∀ first ∈ back.head?, last.Fits first) :
    SpelledAs (front ++ back) (frontPrint ++ backPrint) where
  written := by
    obtain ⟨frontLexemes, hfrontWritten, rfl⟩ := hfront.written
    obtain ⟨backLexemes, hbackWritten, rfl⟩ := hback.written
    exact ⟨frontLexemes ++ backLexemes, List.rel_append hfrontWritten hbackWritten, List.flatMap_append⟩
  fits := List.isChain_append.2 ⟨hfront.fits, hback.fits, hfits⟩

theorem cons {token : Token} {c : Char} (h : SpelledAs tokens print) (htoken : token.WrittenAs (.mark c))
    (hopens : token.OpensOperand) (hfirst : tokens.head? ≠ some (.operator (.binary .sub))) :
    SpelledAs (token :: tokens) (c :: print) := by
  refine append (single htoken) h fun last hlast first hmem => ?_
  obtain rfl := Option.some.inj hlast
  exact Token.fits_of_opensOperand hopens fun hsub => hfirst (hsub ▸ hmem)

theorem brackets (h : SpelledAs tokens print) (hfirst : tokens.head? ≠ some (.operator (.binary .sub))) :
    SpelledAs (.bracket .opening :: (tokens ++ [.bracket .closing])) ('(' :: (print ++ [')'])) := by
  refine cons (append h (single (.bracket .closing)) fun last _ first hmem => ?_) (.bracket .opening) trivial ?_
  · obtain rfl := Option.some.inj hmem
    exact Token.fits_closing last
  · cases tokens with
    | nil => simp
    | cons token tokens => exact hfirst

end SpelledAs

/-- The tokens of an operand, alone or with operators between operands. -/
structure IsOperand (tokens : List Token) : Prop where
  starts : tokens.head? ≠ some (.operator (.binary .sub))
  ends : ∃ last, tokens.getLast? = some last ∧ last.EndsOperand

namespace IsOperand

variable {tokens front back : List Token} {token : Token}

theorem single (hends : token.EndsOperand) : IsOperand [token] where
  starts := by
    intro hfirst
    obtain rfl := Option.some.inj hfirst
    exact hends
  ends := ⟨token, rfl, hends⟩

theorem cons (h : IsOperand tokens) (hfirst : token ≠ .operator (.binary .sub)) : IsOperand (token :: tokens) where
  starts := by simpa using hfirst
  ends := by
    obtain ⟨last, hlast, hends⟩ := h.ends
    exact ⟨last, by simp [List.getLast?_cons, hlast], hends⟩

theorem append_cons (hfront : IsOperand front) (hback : IsOperand back) : IsOperand (front ++ token :: back) where
  starts := by
    cases front with
    | nil =>
      obtain ⟨last, hlast, -⟩ := hfront.ends
      nomatch hlast
    | cons first front => exact hfront.starts
  ends := by
    obtain ⟨last, hlast, hends⟩ := hback.ends
    exact ⟨last, by simp [List.getLast?_append, List.getLast?_cons, hlast], hends⟩

theorem brackets (tokens : List Token) : IsOperand (.bracket .opening :: (tokens ++ [.bracket .closing])) where
  starts := by simp
  ends := ⟨.bracket .closing, by simp [List.getLast?_cons], trivial⟩

end IsOperand

/-! ### Prints and their items -/

/-- A range of items for an expression, with the tokens of an operand that are spelled as a print. -/
structure Shows (bound : Nat) (range : List Item) (print : List Char) (expr : Expr) : Prop where
  nested : AllNested range
  below : OperatorsBelow bound range
  expr_eq : Expr.ofItems range = .ok expr
  spelled : SpelledAs (allTokens range) print
  operand : IsOperand (allTokens range)

namespace Shows

variable {bound : Nat} {range inner before after : List Item} {print front back : List Char} {expr left right : Expr}

theorem loosen {larger : Nat} (h : Shows bound range print expr) (hle : bound ≤ larger) :
    Shows larger range print expr :=
  { h with below := h.below.mono hle }

theorem token {token : Token} {lexeme : Lexeme} (hwritten : token.WrittenAs lexeme) (hends : token.EndsOperand)
    (hnested : (Item.token token).Nested) (hoperator : (Item.token token).operator? = none)
    (hexpr : Expr.ofItems [.token token] = .ok expr) : Shows 1 [.token token] lexeme.chars expr where
  nested := allNested_cons.2 ⟨hnested, allNested_nil⟩
  below := by simp [hoperator]
  expr_eq := hexpr
  spelled := by simpa using SpelledAs.single hwritten
  operand := by simpa using IsOperand.single hends

theorem group (hnested : AllNested inner) (hexpr : Expr.ofItems inner = .ok expr)
    (hspelled : SpelledAs (allTokens inner) print)
    (hstarts : (allTokens inner).head? ≠ some (.operator (.binary .sub))) :
    Shows 1 [.group inner] ('(' :: (print ++ [')'])) expr where
  nested := by simp [hnested]
  below := by simp [Item.operator?]
  expr_eq := by rw [Expr.ofItems_group, hexpr]
  spelled := by simpa using hspelled.brackets hstarts
  operand := by simpa using IsOperand.brackets (allTokens inner)

theorem neg (h : Shows 2 range print expr) : Shows 2 (.token (.operator .neg) :: range) ('-' :: print) (.neg expr) where
  nested := by simp [h.nested]
  below := h.below.neg_cons
  expr_eq := by
    rw [Expr.ofItems_neg_cons h.below, h.expr_eq]
    rfl
  spelled := by
    rw [allTokens_cons, tokens_token, List.singleton_append]
    exact h.spelled.cons (.operator .neg) trivial h.operand.starts
  operand := by
    rw [allTokens_cons, tokens_token, List.singleton_append]
    exact h.operand.cons (by simp)

theorem binary (op : BinaryOp) (hleft : Shows (op.precedence + 1) before front left)
    (hright : Shows op.precedence after back right) :
    Shows (op.precedence + 1) (before ++ .token (.operator (.binary op)) :: after)
      (front ++ (Operator.binary op).char :: back) (.binary op left right) where
  nested := by simp [hleft.nested, hright.nested]
  below := OperatorsBelow.append_cons hleft.below hright.below
  expr_eq := by
    rw [Expr.ofItems_append_binary hleft.below hright.below, hleft.expr_eq, hright.expr_eq]
    rfl
  spelled := by
    rw [allTokens_append, allTokens_cons, tokens_token, List.singleton_append]
    refine hleft.spelled.append (hright.spelled.cons (.operator (.binary op)) trivial hright.operand.starts) ?_
    intro last hlast first hfirst
    obtain ⟨other, hother, hends⟩ := hleft.operand.ends
    obtain rfl := Option.some.inj (hother.symm.trans hlast)
    obtain rfl := Option.some.inj hfirst
    exact Token.fits_of_endsOperand hends op
  operand := by
    rw [allTokens_append, allTokens_cons, tokens_token, List.singleton_append]
    exact hleft.operand.append_cons hright.operand

end Shows

/-- The bound on the operators outside the brackets of a print. -/
def Expr.printBound (inBrackets : Bool) (expr : Expr) : Nat :=
  if inBrackets then 1 else expr.precedence + 1

theorem Expr.printBound_le {inBrackets : Bool} {expr : Expr} {limit : Nat} (hpos : 0 < limit)
    (hbrackets : limit ≤ expr.precedence → inBrackets = true) : expr.printBound inBrackets ≤ limit := by
  unfold printBound
  split
  · exact hpos
  · rename_i hbare
    exact Nat.lt_of_not_le fun hle => hbare (hbrackets hle)

theorem Printed.exists_shows {inBrackets : Bool} {expr : Expr} {print : List Char} (h : Printed inBrackets expr print) :
    ∃ range, Shows (expr.printBound inBrackets) range print expr := by
  induction h with
  | absent =>
    have habsent : Expr.ofItems [] = .ok .absent := Expr.ofItems_of_length_ne_one rfl (by simp)
    have hspelled : SpelledAs (allTokens []) [] := by
      rw [allTokens_nil]
      exact .nil
    have hgroup := Shows.group allNested_nil habsent hspelled (by simp)
    exact ⟨_, hgroup⟩
  | name hc => exact ⟨_, .token (.name hc) trivial (by simp) rfl (Expr.ofItems_variable _)⟩
  | number hn =>
    have hwritten := Token.WrittenAs.number (Numeral.length_toDigits_le_maxDigits_iff.1 hn)
    exact ⟨_, .token hwritten trivial (by simp) rfl (Expr.ofItems_number _)⟩
  | neg _ hbrackets ih =>
    obtain ⟨range, hrange⟩ := ih
    exact ⟨_, (hrange.loosen (Expr.printBound_le (by decide) hbrackets)).neg⟩
  | binary op _ _ hleftBrackets hrightBrackets ihLeft ihRight =>
    obtain ⟨before, hbefore⟩ := ihLeft
    obtain ⟨after, hafter⟩ := ihRight
    have hpos := op.one_lt_precedence
    exact ⟨_, .binary op (hbefore.loosen (Expr.printBound_le (Nat.succ_pos _) hleftBrackets))
      (hafter.loosen (Expr.printBound_le (by omega) hrightBrackets))⟩
  | brackets _ ih =>
    obtain ⟨range, hrange⟩ := ih
    exact ⟨_, .group hrange.nested hrange.expr_eq hrange.spelled hrange.operand.starts⟩

/-- A print is read as the expression that was printed. -/
theorem parse_of_isPrint {text : String} {expr : Expr} (h : IsPrint text expr) : parse text = .ok expr := by
  obtain ⟨inBrackets, hprint⟩ := h
  obtain ⟨range, hrange⟩ := hprint.exists_shows
  have htokens : tokenize text = .ok (allTokens range) := hrange.spelled.tokenize_eq hrange.operand.starts rfl
  exact parse_eq_ok_of_nest htokens (nest_allTokens hrange.nested) hrange.expr_eq

/-- An absent operand, brackets with and without need, and a space inside a number. -/
theorem isPrint_of_spaced_text :
    IsPrint "-(a + ()) * -1 2 - ((a))"
        (.binary .sub (.binary .mul (.neg (.binary .add (.variable "a") .absent)) (.neg (.number 12))) (.variable "a")) ∧
      parse "-(a + ()) * -1 2 - ((a))" =
        .ok (.binary .sub (.binary .mul (.neg (.binary .add (.variable "a") .absent)) (.neg (.number 12)))
          (.variable "a")) := by
  have hname : Printed false (.variable "a") ['a'] := Printed.name (c := 'a') (by decide)
  have hnumber : Printed false (.number 12) ['1', '2'] := Printed.number (n := 12) (by decide)
  have hsum := (hname.binary .add .absent (by decide) (by decide)).brackets
  have hproduct := (hsum.neg (by decide)).binary .mul (hnumber.neg (by decide)) (by decide) (by decide)
  have hprinted := hproduct.binary .sub hname.brackets.brackets (by decide) (by decide)
  have hprint : IsPrint "-(a + ()) * -1 2 - ((a))"
      (.binary .sub (.binary .mul (.neg (.binary .add (.variable "a") .absent)) (.neg (.number 12)))
        (.variable "a")) := by
    have htext : "-(a + ()) * -1 2 - ((a))".toList.filter (· ≠ ' ') =
        ['-', '(', 'a', '+', '(', ')', ')', '*', '-', '1', '2', '-', '(', '(', 'a', ')', ')'] := by
      decide +kernel
    refine ⟨false, ?_⟩
    rw [htext]
    exact hprinted
  exact ⟨hprint, parse_of_isPrint hprint⟩

end Calculator
