import Calculator.Proofs.Balance
import Calculator.Proofs.Spelling

/-!
# The variables of an expression

An expression takes its value from the variables that it mentions and from no others
(`Expr.denote_congr`). If it was read from a text, each of them is a character of this text
(`exists_mem_of_parse_of_mentions`), so the text alone tells which bindings can matter
(`eval_congr_of_parse`).
-/

namespace Calculator

variable {ν ε : Type}

namespace Expr

def Mentions (name : String) : Expr → Prop
  | absent | number _ => False
  | .variable other => other = name
  | neg operand => operand.Mentions name
  | binary _ left right => left.Mentions name ∨ right.Mentions name

theorem denote_congr {arithmetic : Arithmetic ν ε} {bindings others : Bindings ν} {expr : Expr}
    (h : ∀ name, expr.Mentions name → bindings name = others name) :
    expr.denote arithmetic bindings = expr.denote arithmetic others := by
  induction expr with
  | absent => rfl
  | number value => rfl
  | «variable» name => rw [denote, denote, h name rfl]
  | neg operand ih => rw [denote, denote, ih h]
  | binary op left right ihLeft ihRight =>
    have hleft := ihLeft fun name hname => h name (.inl hname)
    have hright := ihRight fun name hname => h name (.inr hname)
    rw [denote, denote, hleft, hright]

theorem mem_allTokens_of_mentions {items : List Item} {expr : Expr} {name : String}
    (h : ofItems items = .ok expr) (hname : expr.Mentions name) : .variable name ∈ Item.allTokens items := by
  induction items using range_cases_induction generalizing expr with
  | number value =>
    rw [ofItems_number] at h
    obtain rfl := Except.ok.inj h
    exact hname.elim
  | name other =>
    rw [ofItems_variable] at h
    obtain rfl := Except.ok.inj h
    obtain rfl : other = name := hname
    simp
  | bracket side =>
    rw [ofItems_bracket] at h
    simp at h
  | group inner ih =>
    rw [ofItems_group] at h
    simp [ih h hname]
  | absent range hnone hlength =>
    rw [ofItems_of_length_ne_one (weakest?_eq_none_iff.2 hnone) hlength] at h
    obtain rfl := Except.ok.inj h
    exact hname.elim
  | sign range place hweakest ih =>
    rw [ofItems_of_weakest?_neg hweakest] at h
    obtain ⟨operand, hoperand, rfl⟩ := map_eq_ok_iff.1 h
    have hmem := ih hoperand hname
    cases range with
    | nil => exact hmem
    | cons item rest =>
      rw [Item.allTokens_cons]
      exact List.mem_append_right _ hmem
  | split before op after hbefore hafter ihBefore ihAfter =>
    rw [ofItems_append_binary hbefore hafter] at h
    obtain ⟨left, hleft, h⟩ := bind_eq_ok_iff.1 h
    obtain ⟨right, hright, h⟩ := bind_eq_ok_iff.1 h
    obtain rfl := pure_eq_ok_iff.1 h
    rw [Item.allTokens_append, Item.allTokens_cons]
    rcases hname with hname | hname
    · exact List.mem_append_left _ (ihBefore hleft hname)
    · exact List.mem_append_right _ (List.mem_append_right _ (ihAfter hright hname))

end Expr

section Text

variable {text name : String} {tokens : List Token} {expr : Expr}

theorem exists_mem_of_tokenize (h : tokenize text = .ok tokens) (hname : .variable name ∈ tokens) :
    ∃ c ∈ text.toList, name = String.singleton c := by
  obtain ⟨before, lexeme, hlexeme, hread⟩ := Token.exists_ofLexeme_of_mem h hname
  obtain ⟨c, rfl, hc⟩ := Token.exists_mark_of_ofLexeme hread (by simp)
  have hsignificant := List.mem_filter.1 (mem_significant_of_mark_mem hlexeme)
  have hspace : c ≠ ' ' := by simpa using hsignificant.2
  have hdigit : ¬ c.isDigit := Lexeme.wellFormed_of_mem_cut _ _ hlexeme
  exact ⟨c, hsignificant.1, (isNameChar_of_ofMark hc hdigit hspace).2⟩

theorem exists_items_of_parse (h : parse text = .ok expr) :
    ∃ tokens items, tokenize text = .ok tokens ∧ nest tokens = .ok items ∧ Expr.ofItems items = .ok expr := by
  obtain ⟨tokens, htokens, h⟩ := bind_eq_ok_iff.1 h
  rw [mapError_eq_ok_iff] at htokens h
  obtain ⟨items, hitems, h⟩ := bind_eq_ok_iff.1 h
  rw [mapError_eq_ok_iff] at hitems h
  exact ⟨tokens, items, htokens, hitems, h⟩

theorem exists_mem_of_parse_of_mentions (h : parse text = .ok expr) (hname : expr.Mentions name) :
    ∃ c ∈ text.toList, name = String.singleton c := by
  obtain ⟨tokens, items, htokens, hitems, hexpr⟩ := exists_items_of_parse h
  obtain ⟨-, missing, -, hall⟩ := of_nest_eq_ok hitems
  have hmem := Expr.mem_allTokens_of_mentions hexpr hname
  rw [hall, List.mem_append] at hmem
  rcases hmem with hmem | hmem
  · exact exists_mem_of_tokenize htokens hmem
  · have hclosing := List.eq_of_mem_replicate hmem
    simp at hclosing

/-- The value of a text depends on the bindings of its characters alone. -/
theorem eval_congr_of_parse {arithmetic : Arithmetic ν ε} {bindings others : Bindings ν}
    (h : parse text = .ok expr)
    (hsame : ∀ c ∈ text.toList, bindings (String.singleton c) = others (String.singleton c)) :
    expr.eval arithmetic bindings = expr.eval arithmetic others := by
  rw [Expr.eval_eq_denote, Expr.eval_eq_denote]
  refine Expr.denote_congr fun name hname => ?_
  obtain ⟨c, hc, rfl⟩ := exists_mem_of_parse_of_mentions h hname
  exact hsame c hc

end Text

end Calculator
