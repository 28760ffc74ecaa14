import Calculator.Expr.Tokens
import Calculator.Proofs.Signs

/-!
# The grammar of complete expressions

A range has an expression even if operands are missing, and no grammar is looked at to find it. Still
the texts whose expression is complete are those of the usual grammar: sums of products of factors, with
operators that associate to the left, and signs that belong to the factor behind them. The two agree
layer by layer, because the phrases of a layer are the ranges that have only operators below its bound.
One direction is an induction on the range, along the splits that make its expression
(`Lexed.phrase_of_ofItems`), and the other one on the derivation of the phrase
(`Phrase.exists_represents`), where items with the same tokens are the same.
-/

namespace Calculator

open Item

inductive Layer where
  | sum
  | product
  | factor
  | atom

/-- What the precedence of all operators is below, outside the brackets of a phrase. -/
def Layer.bound : Layer → Nat
  | sum => 4
  | product => 3
  | factor => 2
  | atom => 1

/-- The tokens of a phrase, and the expression that is left of its derivation without the brackets. -/
inductive Phrase : Layer → List Token → Expr → Prop where
  | sum {front back : List Token} {left right : Expr} {op : BinaryOp} (hop : op = .add ∨ op = .sub)
      (hleft : Phrase .sum front left) (hright : Phrase .product back right) :
      Phrase .sum (front ++ .operator (.binary op) :: back) (.binary op left right)
  | sumOfProduct {tokens : List Token} {expr : Expr} (h : Phrase .product tokens expr) : Phrase .sum tokens expr
  | product {front back : List Token} {left right : Expr} {op : BinaryOp} (hop : op = .mul ∨ op = .div)
      (hleft : Phrase .product front left) (hright : Phrase .factor back right) :
      Phrase .product (front ++ .operator (.binary op) :: back) (.binary op left right)
  | productOfFactor {tokens : List Token} {expr : Expr} (h : Phrase .factor tokens expr) : Phrase .product tokens expr
  | neg {tokens : List Token} {expr : Expr} (h : Phrase .factor tokens expr) :
      Phrase .factor (.operator .neg :: tokens) (.neg expr)
  | factorOfAtom {tokens : List Token} {expr : Expr} (h : Phrase .atom tokens expr) : Phrase .factor tokens expr
  | ofVariable (name : String) : Phrase .atom [.variable name] (.variable name)
  | ofNumber (value : Int) : Phrase .atom [.number value] (.number value)
  | brackets {tokens : List Token} {expr : Expr} (h : Phrase .sum tokens expr) :
      Phrase .atom (.bracket .opening :: (tokens ++ [.bracket .closing])) expr

theorem Phrase.loosen {tight loose : Layer} {tokens : List Token} {expr : Expr} (h : Phrase tight tokens expr)
    (hle : tight.bound ≤ loose.bound) : Phrase loose tokens expr := by
  match tight, loose, h, hle with
  | .sum, .sum, h, _ => exact h
  | .product, .sum, h, _ => exact h.sumOfProduct
  | .product, .product, h, _ => exact h
  | .factor, .sum, h, _ => exact h.productOfFactor.sumOfProduct
  | .factor, .product, h, _ => exact h.productOfFactor
  | .factor, .factor, h, _ => exact h
  | .atom, .sum, h, _ => exact h.factorOfAtom.productOfFactor.sumOfProduct
  | .atom, .product, h, _ => exact h.factorOfAtom.productOfFactor
  | .atom, .factor, h, _ => exact h.factorOfAtom
  | .atom, .atom, h, _ => exact h

/-! ### From ranges to phrases -/

theorem BinaryOp.precedence_cases (op : BinaryOp) :
    (op = .add ∨ op = .sub) ∧ op.precedence = 3 ∨ (op = .mul ∨ op = .div) ∧ op.precedence = 2 := by
  cases op <;> simp [precedence]

theorem Lexed.phrase_of_ofItems {range : List Item} {layer : Layer} {expr : Expr} (h : Lexed range)
    (hbelow : OperatorsBelow layer.bound range) (hexpr : Expr.ofItems range = .ok expr) (hcomplete : expr.Complete) :
    Phrase layer (allTokens range) expr := by
  have hloose {tokens : List Token} {layer : Layer} {expr : Expr} (h : Phrase .atom tokens expr) :
      Phrase layer tokens expr := h.loosen (by cases layer <;> decide)
  induction h using Lexed.induction generalizing layer expr with
  | number value h =>
    obtain rfl := Except.ok.inj ((Expr.ofItems_number value).symm.trans hexpr)
    simpa using hloose (.ofNumber value)
  | name name h =>
    obtain rfl := Except.ok.inj ((Expr.ofItems_variable name).symm.trans hexpr)
    simpa using hloose (.ofVariable name)
  | group inner _ _ ih =>
    rw [Expr.ofItems_group] at hexpr
    have hinner := @ih .sum expr (operatorsBelow_four inner) hexpr hcomplete
    simpa using hloose (.brackets hinner)
  | absent range _ hnone hlength =>
    rw [Expr.ofItems_of_length_ne_one (weakest?_eq_none_iff.2 hnone) hlength] at hexpr
    obtain rfl := Except.ok.inj hexpr
    exact hcomplete.elim
  | sign rest _ _ hrest ih =>
    rw [Expr.ofItems_neg_cons hrest, map_eq_ok_iff] at hexpr
    obtain ⟨operand, hoperand, rfl⟩ := hexpr
    have hfactor := @ih .factor operand hrest hoperand hcomplete
    rw [allTokens_cons, tokens_token, List.singleton_append]
    refine (Phrase.neg hfactor).loosen ?_
    exact (operatorsBelow_cons.1 hbelow).1 .neg rfl
  | split before op after _ _ _ hbefore hafter ihBefore ihAfter =>
    simp only [Expr.ofItems_append_binary hbefore hafter, bind_eq_ok_iff, pure_eq_ok_iff] at hexpr
    obtain ⟨left, hleft, right, hright, rfl⟩ := hexpr
    obtain ⟨hcompleteLeft, hcompleteRight⟩ := hcomplete
    have hbound : op.precedence < layer.bound :=
      (operatorsBelow_cons.1 (operatorsBelow_append.1 hbelow).2).1 (.binary op) rfl
    rw [allTokens_append, allTokens_cons, tokens_token, List.singleton_append]
    rcases op.precedence_cases with ⟨hop, hprecedence⟩ | ⟨hop, hprecedence⟩
    · rw [hprecedence] at hbefore hafter hbound
      have hsum := @ihBefore .sum left hbefore hleft hcompleteLeft
      have hproduct := @ihAfter .product right hafter hright hcompleteRight
      exact (Phrase.sum hop hsum hproduct).loosen hbound
    · rw [hprecedence] at hbefore hafter hbound
      have hproduct := @ihBefore .product left hbefore hleft hcompleteLeft
      have hfactor := @ihAfter .factor right hafter hright hcompleteRight
      exact (Phrase.product hop hproduct hfactor).loosen hbound

/-! ### From phrases to ranges -/

/-- A range that has the tokens of a phrase and its expression. -/
structure Represents (bound : Nat) (range : List Item) (tokens : List Token) (expr : Expr) : Prop where
  nested : AllNested range
  tokens_eq : allTokens range = tokens
  below : OperatorsBelow bound range
  expr_eq : Expr.ofItems range = .ok expr
  complete : expr.Complete

namespace Represents

theorem loosen {bound larger : Nat} {range : List Item} {tokens : List Token} {expr : Expr}
    (h : Represents bound range tokens expr) (hle : bound ≤ larger) : Represents larger range tokens expr :=
  { h with below := h.below.mono hle }

theorem binary {before after : List Item} {front back : List Token} {left right : Expr} (op : BinaryOp)
    (hleft : Represents (op.precedence + 1) before front left) (hright : Represents op.precedence after back right) :
    Represents (op.precedence + 1) (before ++ .token (.operator (.binary op)) :: after)
      (front ++ .operator (.binary op) :: back) (.binary op left right) where
  nested := by simp [hleft.nested, hright.nested]
  tokens_eq := by simp [hleft.tokens_eq, hright.tokens_eq]
  below := OperatorsBelow.append_cons hleft.below hright.below
  expr_eq := by
    rw [Expr.ofItems_append_binary hleft.below hright.below, hleft.expr_eq, hright.expr_eq]
    rfl
  complete := ⟨hleft.complete, hright.complete⟩

theorem neg {range : List Item} {tokens : List Token} {expr : Expr} (h : Represents 2 range tokens expr) :
    Represents 2 (.token (.operator .neg) :: range) (.operator .neg :: tokens) (.neg expr) where
  nested := by simp [h.nested]
  tokens_eq := by simp [h.tokens_eq]
  below := h.below.neg_cons
  expr_eq := by
    rw [Expr.ofItems_neg_cons h.below, h.expr_eq]
    rfl
  complete := h.complete

theorem group {bound : Nat} {inner : List Item} {tokens : List Token} {expr : Expr}
    (h : Represents bound inner tokens expr) :
    Represents 1 [.group inner] (.bracket .opening :: (tokens ++ [.bracket .closing])) expr where
  nested := by simp [h.nested]
  tokens_eq := by simp [h.tokens_eq]
  below := by simp [Item.operator?]
  expr_eq := by rw [Expr.ofItems_group, h.expr_eq]
  complete := h.complete

end Represents

theorem Phrase.exists_represents {layer : Layer} {tokens : List Token} {expr : Expr} (h : Phrase layer tokens expr) :
    ∃ range, Represents layer.bound range tokens expr := by
  induction h with
  | sum hop _ _ ihLeft ihRight =>
    obtain ⟨before, hleft⟩ := ihLeft
    obtain ⟨after, hright⟩ := ihRight
    rcases hop with rfl | rfl
    · exact ⟨_, .binary .add hleft hright⟩
    · exact ⟨_, .binary .sub hleft hright⟩
  | product hop _ _ ihLeft ihRight =>
    obtain ⟨before, hleft⟩ := ihLeft
    obtain ⟨after, hright⟩ := ihRight
    rcases hop with rfl | rfl
    · exact ⟨_, .binary .mul hleft hright⟩
    · exact ⟨_, .binary .div hleft hright⟩
  | sumOfProduct _ ih | productOfFactor _ ih | factorOfAtom _ ih =>
    obtain ⟨range, h⟩ := ih
    exact ⟨range, h.loosen (by decide)⟩
  | neg _ ih =>
    obtain ⟨range, h⟩ := ih
    exact ⟨_, h.neg⟩
  | ofVariable name =>
    refine ⟨[.token (.variable name)], ?_⟩
    constructor <;> simp [Item.operator?, Expr.Complete]
  | ofNumber value =>
    refine ⟨[.token (.number value)], ?_⟩
    constructor <;> simp [Item.operator?, Expr.Complete]
  | brackets _ ih =>
    obtain ⟨inner, h⟩ := ih
    exact ⟨_, h.group⟩

theorem Expr.ofTokens_eq_ok_iff {tokens : List Token} {expr : Expr} :
    Expr.ofTokens tokens = .ok expr ↔ ∃ items, nest tokens = .ok items ∧ Expr.ofItems items = .ok expr := by
  simp only [Expr.ofTokens, bind_eq_ok_iff, mapError_eq_ok_iff]

theorem complete_iff_phrase {text : String} {tokens : List Token} (htokens : tokenize text = .ok tokens)
    (hmatched : ClosingsMatched text) (expr : Expr) :
    (Expr.ofTokens tokens = .ok expr ∧ expr.Complete) ↔
      Phrase .sum (tokens ++ List.replicate (unclosed text) (.bracket .closing)) expr := by
  obtain ⟨items, hnest, hlexed, hall⟩ := exists_lexed_of_tokenize htokens hmatched
  have hparse : Expr.ofTokens tokens = .ok expr ↔ Expr.ofItems items = .ok expr := by
    rw [Expr.ofTokens_eq_ok_iff, hnest]
    simp
  rw [hparse, ← hall]
  constructor
  · rintro ⟨hexpr, hcomplete⟩
    exact hlexed.phrase_of_ofItems (operatorsBelow_four items) hexpr hcomplete
  · intro hphrase
    obtain ⟨range, hrange⟩ := hphrase.exists_represents
    obtain rfl := allTokens_inj hrange.nested hlexed.nested hrange.tokens_eq
    exact ⟨hrange.expr_eq, hrange.complete⟩

/-- Two signs of different kinds and a bracket that is closed by the end of the text. -/
theorem phrase_of_unclosed_bracket :
    tokenize "1-2*-(x" = .ok [.number 1, .operator (.binary .sub), .number 2, .operator (.binary .mul),
        .operator .neg, .bracket .opening, .variable "x"] ∧
      ClosingsMatched "1-2*-(x" ∧
      Phrase .sum [.number 1, .operator (.binary .sub), .number 2, .operator (.binary .mul), .operator .neg,
          .bracket .opening, .variable "x", .bracket .closing]
        (.binary .sub (.number 1) (.binary .mul (.number 2) (.neg (.variable "x")))) := by
  have htokens : tokenize "1-2*-(x" = .ok [.number 1, .operator (.binary .sub), .number 2, .operator (.binary .mul),
      .operator .neg, .bracket .opening, .variable "x"] := by decide +kernel
  have hmatched : ClosingsMatched "1-2*-(x" := by decide +kernel
  have hunclosed : unclosed "1-2*-(x" = 1 := by decide +kernel
  refine ⟨htokens, hmatched, ?_⟩
  have hphrase := complete_iff_phrase htokens hmatched
    (.binary .sub (.number 1) (.binary .mul (.number 2) (.neg (.variable "x"))))
  rw [hunclosed] at hphrase
  exact hphrase.1 (by decide +kernel)

end Calculator
