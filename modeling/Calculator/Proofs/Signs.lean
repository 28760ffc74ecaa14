import Calculator.Proofs.Lexing
import Calculator.Proofs.Split

/-!
# Ranges that come from a text

A sign takes the whole range behind the first item, whatever that item is. This is right for the items
of a text, because a sign that is the weakest operator of a range has nothing but signs in front of it
(`Lexed.eq_neg`). The reason is that no sign of a text stands behind an operand. `Lexed` states this for
a range, and every piece of a range that is looked at on the way to its expression has it as well.
`Lexed.induction` is the induction on ranges with this built in.
-/

namespace Calculator

open Item

/-- The items of a text, or of a piece of it: their brackets are nested and their signs are in place. -/
structure Lexed (range : List Item) : Prop where
  nested : AllNested range
  signs : Token.SignsPlaced (allTokens range)

namespace Lexed

variable {before after range : List Item} {item : Item}

theorem left (h : Lexed (before ++ after)) : Lexed before := by
  obtain ⟨hnested, hsigns⟩ := h
  rw [allTokens_append] at hsigns
  exact ⟨(allNested_append.1 hnested).1, List.IsChain.left_of_append hsigns⟩

theorem right (h : Lexed (before ++ after)) : Lexed after := by
  obtain ⟨hnested, hsigns⟩ := h
  rw [allTokens_append] at hsigns
  exact ⟨(allNested_append.1 hnested).2, List.IsChain.right_of_append hsigns⟩

theorem tail (h : Lexed (item :: range)) : Lexed range := by
  rw [← List.singleton_append] at h
  exact h.right

theorem of_group {inner : List Item} (h : Lexed [.group inner]) : Lexed inner := by
  obtain ⟨hnested, hsigns⟩ := h
  have hinner : allTokens inner <:+: allTokens [.group inner] := by
    refine ⟨[.bracket .opening], [.bracket .closing], ?_⟩
    simp
  exact ⟨nested_group.1 (allNested_cons.1 hnested).1, List.IsChain.infix hsigns hinner⟩

end Lexed

theorem Lexed.exists_operator {item : Item} {rest : List Item} (h : Lexed (item :: .token (.operator .neg) :: rest)) :
    ∃ op, item = .token (.operator op) := by
  obtain ⟨hnested, hsigns⟩ := h
  rw [allTokens_cons, allTokens_cons, tokens_token] at hsigns
  have hlast := (List.isChain_append.1 hsigns).2.2
  match item, hnested, hlast with
  | .token (.operator op), _, _ => exact ⟨op, rfl⟩
  | .token (.number value), _, hlast => simp [Token.OpensOperand] at hlast
  | .token (.variable name), _, hlast => simp [Token.OpensOperand] at hlast
  | .token (.bracket side), hnested, _ => exact (not_nested_bracket side (allNested_cons.1 hnested).1).elim
  | .group inner, _, hlast =>
    have hclosing : .bracket .closing ∈ (group inner).tokens.getLast? := by
      rw [tokens_group, ← List.cons_append, List.getLast?_concat]
      rfl
    exact (hlast _ hclosing _ rfl rfl).elim

/-- In front of a sign, where no operator is weaker, there are only signs. -/
theorem Lexed.eq_neg {before after : List Item} (h : Lexed (before ++ .token (.operator .neg) :: after))
    (hbefore : OperatorsBelow 2 before) : ∀ item ∈ before, item = .token (.operator .neg) := by
  induction before with
  | nil => simp
  | cons item before ih =>
    obtain ⟨hitem, hbefore⟩ := operatorsBelow_cons.1 hbefore
    have hrest := ih h.tail hbefore
    -- Whether more items follow or not, the next one is a sign.
    have hnext : ∃ rest, before ++ .token (.operator .neg) :: after = .token (.operator .neg) :: rest := by
      cases before with
      | nil => exact ⟨after, rfl⟩
      | cons second before =>
        obtain rfl := hrest second List.mem_cons_self
        exact ⟨_, rfl⟩
    obtain ⟨rest, hnext⟩ := hnext
    rw [List.cons_append, hnext] at h
    obtain ⟨op, rfl⟩ := h.exists_operator
    obtain rfl := Operator.eq_neg_of_precedence_lt (hitem op rfl)
    exact List.forall_mem_cons.2 ⟨rfl, hrest⟩

/-- What holds of a range of a text: a range without an operator is one operand or has no expression, and one
with operators starts with a sign or is split at a binary operator. -/
theorem Lexed.induction {motive : (range : List Item) → Lexed range → Prop}
    (number : ∀ value h, motive [.token (.number value)] h)
    (name : ∀ name h, motive [.token (.variable name)] h)
    (group : ∀ inner h hinner, motive inner hinner → motive [.group inner] h)
    (absent : ∀ range h, OperatorsBelow 1 range → range.length ≠ 1 → motive range h)
    (sign : ∀ rest h hrest, OperatorsBelow 2 rest → motive rest hrest → motive (.token (.operator .neg) :: rest) h)
    (split : ∀ before op after h hleft hright, OperatorsBelow (op.precedence + 1) before →
      OperatorsBelow op.precedence after → motive before hleft → motive after hright →
      motive (before ++ .token (.operator (.binary op)) :: after) h)
    {range : List Item} (h : Lexed range) : motive range h := by
  induction range using range_cases_induction with
  | number value => exact number value h
  | name found => exact name found h
  | bracket side => exact (not_nested_bracket side (allNested_cons.1 h.nested).1).elim
  | group inner ih => exact group inner h h.of_group (ih h.of_group)
  | absent range hnone hlength => exact absent range h hnone hlength
  | sign range place hweakest ih =>
    obtain ⟨before, after, rfl, -, hbefore, hafter⟩ := weakest?_eq_some_iff.1 hweakest
    have hneg := h.eq_neg hbefore
    have hall := operatorsBelow_of_weakest? hweakest
    cases before with
    | nil => exact sign after h h.tail (operatorsBelow_cons.1 hall).2 (ih h.tail)
    | cons item before =>
      obtain rfl := hneg item List.mem_cons_self
      exact sign _ h h.tail (operatorsBelow_cons.1 hall).2 (ih h.tail)
  | split before op after hbefore hafter ihBefore ihAfter =>
    exact split before op after h h.left h.right.tail hbefore hafter (ihBefore h.left) (ihAfter h.right.tail)

/-! ### The items of a text -/

theorem signsPlaced_append_replicate {tokens : List Token} (h : Token.SignsPlaced tokens) (n : Nat) :
    Token.SignsPlaced (tokens ++ List.replicate n (.bracket .closing)) := by
  refine List.isChain_append.2 ⟨h, ?_, ?_⟩
  · exact List.isChain_replicate_of_rel n fun hclosing => nomatch hclosing
  · intro left _ right hright hneg
    subst hneg
    have hmem := List.mem_of_mem_head? hright
    simp at hmem

theorem exists_lexed_of_tokenize {text : String} {tokens : List Token} (h : tokenize text = .ok tokens)
    (hmatched : ClosingsMatched text) :
    ∃ items, nest tokens = .ok items ∧ Lexed items ∧
      allTokens items = tokens ++ List.replicate (unclosed text) (.bracket .closing) := by
  obtain ⟨items, hnest, hnested, htokens⟩ := exists_nest_of_tokenize h hmatched
  refine ⟨items, hnest, ⟨hnested, ?_⟩, htokens⟩
  rw [htokens]
  exact signsPlaced_append_replicate (signsPlaced_of_tokenize h) _

end Calculator
