import Calculator.Proofs.Balance
import Calculator.Proofs.Signs

/-!
# Expressions in the order of their text

Written from left to right without its brackets, the expression of a text has only tokens of the text, in
their order and each of them at most once. So nothing is invented, doubled or moved, however malformed the
text is. What is lost is what stood where one operand was expected, such as two operands side by side, and
then something is absent: a complete expression has all the tokens (`inorder_sublist_and_eq_of_complete`).

This is wrong for other lists of tokens. A sign behind an operand would take its place, and the operand
would be counted as a sign. `Lexed.induction` is the induction on ranges without such signs.
-/

namespace Calculator

open Item

/-- The tokens of an expression from left to right. What is absent has none. -/
def Expr.inorder : Expr → List Token
  | absent => []
  | number value => [.number value]
  | .variable name => [.variable name]
  | neg operand => .operator .neg :: operand.inorder
  | binary op left right => left.inorder ++ .operator (.binary op) :: right.inorder

namespace Token

def withoutBrackets (tokens : List Token) : List Token :=
  tokens.filter fun token => token.bracket?.isNone

@[simp] theorem withoutBrackets_nil : withoutBrackets [] = [] :=
  rfl

@[simp] theorem withoutBrackets_append (front back : List Token) :
    withoutBrackets (front ++ back) = withoutBrackets front ++ withoutBrackets back :=
  List.filter_append ..

@[simp] theorem withoutBrackets_bracket (side : Bracket) (rest : List Token) :
    withoutBrackets (.bracket side :: rest) = withoutBrackets rest :=
  rfl

@[simp] theorem withoutBrackets_operator (op : Operator) (rest : List Token) :
    withoutBrackets (.operator op :: rest) = .operator op :: withoutBrackets rest :=
  rfl

theorem withoutBrackets_replicate (n : Nat) (side : Bracket) :
    withoutBrackets (List.replicate n (.bracket side)) = [] := by
  simp [withoutBrackets, bracket?]

end Token

open Token

/-- The expression has only tokens of these, in their order, and all of them if it is complete. -/
structure ReadsFrom (expr : Expr) (tokens : List Token) : Prop where
  sublist : expr.inorder.Sublist (withoutBrackets tokens)
  eq_of_complete : expr.Complete → expr.inorder = withoutBrackets tokens

namespace ReadsFrom

variable {expr left right : Expr} {tokens front back : List Token}

theorem absent (tokens : List Token) : ReadsFrom .absent tokens where
  sublist := List.nil_sublist _
  eq_of_complete := False.elim

theorem number (value : Int) : ReadsFrom (.number value) [.number value] where
  sublist := List.Sublist.refl _
  eq_of_complete _ := rfl

theorem «variable» (name : String) : ReadsFrom (.variable name) [.variable name] where
  sublist := List.Sublist.refl _
  eq_of_complete _ := rfl

theorem brackets (h : ReadsFrom expr tokens) :
    ReadsFrom expr (.bracket .opening :: (tokens ++ [.bracket .closing])) where
  sublist := by simpa using h.sublist
  eq_of_complete hcomplete := by simpa using h.eq_of_complete hcomplete

theorem neg (h : ReadsFrom expr tokens) : ReadsFrom (.neg expr) (.operator .neg :: tokens) where
  sublist := h.sublist.cons_cons _
  eq_of_complete hcomplete := by rw [Expr.inorder, h.eq_of_complete hcomplete, withoutBrackets_operator]

theorem binary (op : BinaryOp) (hleft : ReadsFrom left front) (hright : ReadsFrom right back) :
    ReadsFrom (.binary op left right) (front ++ .operator (.binary op) :: back) where
  sublist := by
    rw [withoutBrackets_append, withoutBrackets_operator]
    exact hleft.sublist.append (hright.sublist.cons_cons _)
  eq_of_complete hcomplete := by
    rw [Expr.inorder, hleft.eq_of_complete hcomplete.1, hright.eq_of_complete hcomplete.2, withoutBrackets_append,
      withoutBrackets_operator]

theorem of_append_brackets {n : Nat} {side : Bracket}
    (h : ReadsFrom expr (tokens ++ List.replicate n (.bracket side))) : ReadsFrom expr tokens where
  sublist := by simpa [withoutBrackets_replicate] using h.sublist
  eq_of_complete hcomplete := by simpa [withoutBrackets_replicate] using h.eq_of_complete hcomplete

end ReadsFrom

theorem Lexed.readsFrom_of_ofItems {range : List Item} {expr : Expr} (h : Lexed range)
    (hexpr : Expr.ofItems range = .ok expr) : ReadsFrom expr (allTokens range) := by
  induction h using Lexed.induction generalizing expr with
  | number value h =>
    rw [Expr.ofItems_number] at hexpr
    obtain rfl := Except.ok.inj hexpr
    simpa using ReadsFrom.number value
  | name name h =>
    rw [Expr.ofItems_variable] at hexpr
    obtain rfl := Except.ok.inj hexpr
    simpa using ReadsFrom.variable name
  | group inner _ _ ih =>
    rw [Expr.ofItems_group] at hexpr
    simpa using (ih hexpr).brackets
  | absent range _ hnone hlength =>
    rw [Expr.ofItems_of_length_ne_one (weakest?_eq_none_iff.2 hnone) hlength] at hexpr
    obtain rfl := Except.ok.inj hexpr
    exact .absent (allTokens range)
  | sign rest _ _ hrest ih =>
    rw [Expr.ofItems_neg_cons hrest, map_eq_ok_iff] at hexpr
    obtain ⟨operand, hoperand, rfl⟩ := hexpr
    simpa using (ih hoperand).neg
  | split before op after _ _ _ hbefore hafter ihBefore ihAfter =>
    simp only [Expr.ofItems_append_binary hbefore hafter, bind_eq_ok_iff, pure_eq_ok_iff] at hexpr
    obtain ⟨left, hleft, right, hright, rfl⟩ := hexpr
    simpa using (ihBefore hleft).binary op (ihAfter hright)

/-- The expression of a text, read from left to right, has no tokens but those of the text, in their order,
and if nothing in it is absent it has all of them but the brackets. -/
theorem inorder_sublist_and_eq_of_complete {text : String} {tokens : List Token}
    (htokens : tokenize text = .ok tokens) (hmatched : ClosingsMatched text) :
    ∃ expr, parse text = .ok expr ∧ expr.inorder.Sublist (withoutBrackets tokens) ∧
      (expr.Complete → expr.inorder = withoutBrackets tokens) := by
  obtain ⟨items, hnest, hlexed, hall⟩ := exists_lexed_of_tokenize htokens hmatched
  obtain ⟨expr, hexpr⟩ := Expr.exists_ofItems_eq_ok hlexed.nested
  have hreads := hlexed.readsFrom_of_ofItems hexpr
  rw [hall] at hreads
  obtain ⟨hsublist, heq⟩ := hreads.of_append_brackets
  exact ⟨expr, parse_eq_ok_of_nest htokens hnest hexpr, hsublist, heq⟩

/-- Two operands side by side are lost, and the bracket that is left open makes no difference. -/
theorem inorder_of_operands_side_by_side :
    let expr := Expr.binary .add .absent (.neg (.number 3))
    tokenize "2x+(-3" = .ok [.number 2, .variable "x", .operator (.binary .add), .bracket .opening, .operator .neg,
        .number 3] ∧
      ClosingsMatched "2x+(-3" ∧ parse "2x+(-3" = .ok expr ∧ ¬ expr.Complete ∧
      expr.inorder = [.operator (.binary .add), .operator .neg, .number 3] ∧
      expr.inorder.Sublist [.number 2, .variable "x", .operator (.binary .add), .operator .neg, .number 3] := by
  intro expr
  have htokens : tokenize "2x+(-3" = .ok [.number 2, .variable "x", .operator (.binary .add), .bracket .opening,
      .operator .neg, .number 3] := by decide +kernel
  have hmatched : ClosingsMatched "2x+(-3" := by decide +kernel
  have hparse : parse "2x+(-3" = .ok expr := by decide +kernel
  obtain ⟨found, hfound, hsublist, -⟩ := inorder_sublist_and_eq_of_complete htokens hmatched
  obtain rfl := Except.ok.inj (hparse.symm.trans hfound)
  exact ⟨htokens, hmatched, hparse, fun hcomplete => hcomplete.1, rfl, hsublist⟩

/-- No text has these tokens: the sign takes the place of the operand in front of it. -/
example : Expr.ofTokens [.variable "x", .operator .neg, .variable "y"] = .ok (.neg (.neg (.variable "y"))) := by
  decide +kernel

end Calculator
