import Calculator.Calculation
import Calculator.Proofs.Lexing
import Calculator.Proofs.Plans

/-!
# Tokens without an expression

Tokens have no expression if and only if some of them, from the first one on, close more brackets than
they open. The run over the tokens notices this at the last of the fewest such tokens, because until then
its levels spell tokens that do not (`Levels.Spells.readAll_eq_error`). Everything else has an
expression: where all brackets are nested, none is left that could stand in the place of an operand
(`Expr.exists_ofItems_eq_ok`).
-/

namespace Calculator

open Item

/-- More brackets are closed than opened. -/
def Overclosed (tokens : List Token) : Prop :=
  tokens.count (.bracket .opening) < tokens.count (.bracket .closing)

instance (tokens : List Token) : Decidable (Overclosed tokens) :=
  inferInstanceAs (Decidable (_ < _))

namespace Levels

variable {levels : Levels} {front rest : List Token} {index : Nat}

theorem Spells.not_overclosed (h : levels.Spells front) : ¬ Overclosed front := by
  have hdepth := h.depth
  rw [Overclosed]
  omega

theorem Spells.not_overclosed_of_readAll {last : Levels} (h : levels.Spells front)
    (hlast : levels.readAll index rest = .ok last) {more : List Token} (hmore : more <+: rest) :
    ¬ Overclosed (front ++ more) := by
  induction rest generalizing levels front index more with
  | nil =>
    rw [List.prefix_nil.1 hmore, List.append_nil]
    exact h.not_overclosed
  | cons token rest ih =>
    cases hread : levels.read? token with
    | none =>
      rw [Levels.readAll, hread] at hlast
      nomatch hlast
    | some next =>
      rw [Levels.readAll, hread] at hlast
      rcases List.prefix_cons_iff.1 hmore with rfl | ⟨more, rfl, htail⟩
      · rw [List.append_nil]
        exact h.not_overclosed
      · rw [List.append_cons]
        exact ih (h.read? hread) hlast htail

theorem Spells.exists_of_readAll_eq_error {place : Nat} (h : levels.Spells front)
    (herror : levels.readAll index rest = .error place) :
    ∃ more back, rest = more ++ .bracket .closing :: back ∧ place = index + more.length ∧
      Overclosed (front ++ more ++ [.bracket .closing]) ∧
      ∀ fewer, fewer <+: more → ¬ Overclosed (front ++ fewer) := by
  induction rest generalizing levels front index with
  | nil => nomatch herror
  | cons token rest ih =>
    cases hread : levels.read? token with
    | none =>
      obtain ⟨rfl, henclosing⟩ := read?_eq_none_iff.1 hread
      rw [Levels.readAll, hread] at herror
      obtain rfl := Except.error.inj herror
      refine ⟨[], rest, rfl, rfl, ?_, ?_⟩
      · have hdepth := h.depth
        rw [henclosing] at hdepth
        simp [Overclosed, List.count_append, hdepth]
      · intro fewer hfewer
        rw [List.prefix_nil.1 hfewer, List.append_nil]
        exact h.not_overclosed
    | some next =>
      rw [Levels.readAll, hread] at herror
      obtain ⟨more, back, rfl, rfl, hover, hfewer⟩ := ih (h.read? hread) herror
      refine ⟨token :: more, back, rfl, ?_, ?_, ?_⟩
      · rw [List.length_cons]
        omega
      · simpa using hover
      · intro fewer hinit
        rcases List.prefix_cons_iff.1 hinit with rfl | ⟨fewer, rfl, htail⟩
        · rw [List.append_nil]
          exact h.not_overclosed
        · rw [List.append_cons]
          exact hfewer fewer htail

end Levels

section Nest

variable {tokens : List Token}

theorem exists_of_nest_eq_error {error : UnmatchedClosing} (h : nest tokens = .error error) :
    ∃ front back, tokens = front ++ .bracket .closing :: back ∧ error = ⟨tokens, front.length⟩ ∧
      Overclosed (front ++ [.bracket .closing]) ∧ ∀ fewer, fewer <+: front → ¬ Overclosed fewer := by
  cases hread : Levels.start.readAll 0 tokens with
  | ok last =>
    rw [nest, hread] at h
    simp at h
  | error place =>
    rw [nest, hread] at h
    obtain ⟨front, back, htokens, rfl, hover, hfewer⟩ := Levels.spells_start.exists_of_readAll_eq_error hread
    rw [Nat.zero_add] at h
    exact ⟨front, back, htokens, (Except.error.inj h).symm, hover, hfewer⟩

theorem of_nest_eq_error {error : UnmatchedClosing} (h : nest tokens = .error error) :
    error.tokens = tokens ∧ error.index < tokens.length ∧ Overclosed (tokens.take (error.index + 1)) ∧
      ∀ front, front <+: tokens → Overclosed front → error.index < front.length := by
  obtain ⟨more, back, rfl, rfl, hover, hfewer⟩ := exists_of_nest_eq_error h
  have htake : (more ++ .bracket .closing :: back).take (more.length + 1) = more ++ [.bracket .closing] := by
    rw [List.append_cons, List.take_left' (by simp)]
  refine ⟨rfl, ?_, ?_, ?_⟩
  · simp
  · rwa [htake]
  · intro front hfront hexcess
    refine Nat.lt_of_not_le fun hle => ?_
    have hinit : front <+: more := List.prefix_of_prefix_length_le hfront (List.prefix_append _ _) hle
    exact hfewer front hinit hexcess

theorem exists_nest_eq_error_iff :
    (∃ error, nest tokens = .error error) ↔ ∃ front, front <+: tokens ∧ Overclosed front := by
  constructor
  · rintro ⟨error, herror⟩
    obtain ⟨-, -, hover, -⟩ := of_nest_eq_error herror
    exact ⟨_, List.take_prefix _ _, hover⟩
  · rintro ⟨front, hfront, hover⟩
    cases hread : Levels.start.readAll 0 tokens with
    | ok last => exact (Levels.spells_start.not_overclosed_of_readAll hread hfront hover).elim
    | error place => exact ⟨⟨tokens, place⟩, by rw [nest, hread]⟩

end Nest

namespace Expr

/-! ### Expressions of nested items -/

/-- Nested items have an expression: where an operand is wanted, only a bracket would have no meaning. -/
theorem exists_ofItems_eq_ok {items : List Item} (h : AllNested items) : ∃ expr, ofItems items = .ok expr := by
  induction items using range_cases_induction with
  | number value => exact ⟨_, ofItems_number value⟩
  | name name => exact ⟨_, ofItems_variable name⟩
  | bracket side => exact (not_nested_bracket side (allNested_cons.1 h).1).elim
  | group inner ih =>
    rw [ofItems_group]
    exact ih (nested_group.1 (allNested_cons.1 h).1)
  | absent range hnone hlength => exact ⟨_, ofItems_of_length_ne_one (weakest?_eq_none_iff.2 hnone) hlength⟩
  | sign range place hweakest ih =>
    have htail : AllNested range.tail :=
      allNested_iff.2 fun item hitem => allNested_iff.1 h item (List.mem_of_mem_tail hitem)
    obtain ⟨operand, hoperand⟩ := ih htail
    exact ⟨_, by rw [ofItems_of_weakest?_neg hweakest, hoperand]; rfl⟩
  | split before op after hbefore hafter ihBefore ihAfter =>
    obtain ⟨hleft, hright⟩ := allNested_append.1 h
    obtain ⟨left, hleft⟩ := ihBefore hleft
    obtain ⟨right, hright⟩ := ihAfter (allNested_cons.1 hright).2
    exact ⟨_, by rw [ofItems_append_binary hbefore hafter, hleft, hright]; rfl⟩

/-! ### Expressions of tokens -/

variable {tokens : List Token}

theorem ofTokens_of_nest_eq_ok {items : List Item} (h : nest tokens = .ok items) :
    ofTokens tokens = (ofItems items).mapError .range := by
  rw [ofTokens, h]
  rfl

theorem ofTokens_of_nest_eq_error {error : UnmatchedClosing} (h : nest tokens = .error error) :
    ofTokens tokens = .error (.unmatchedClosing error) := by
  rw [ofTokens, h]
  rfl

theorem exists_ofTokens_eq_ok {items : List Item} (h : nest tokens = .ok items) :
    ∃ expr, ofItems items = .ok expr ∧ ofTokens tokens = .ok expr := by
  have hfits : ∀ front, front <+: tokens → ¬ Overclosed front := by
    intro front hfront hover
    obtain ⟨error, herror⟩ := exists_nest_eq_error_iff.2 ⟨front, hfront, hover⟩
    rw [h] at herror
    nomatch herror
  obtain ⟨nested, hnest, hnested, -⟩ := exists_nest_eq_ok fun front hfront => Nat.le_of_not_lt (hfits front hfront)
  obtain rfl := Except.ok.inj (h.symm.trans hnest)
  obtain ⟨expr, hexpr⟩ := exists_ofItems_eq_ok hnested
  exact ⟨expr, hexpr, by rw [ofTokens_of_nest_eq_ok h, hexpr]; rfl⟩

theorem ofTokens_eq_unmatchedClosing_iff {error : UnmatchedClosing} :
    ofTokens tokens = .error (.unmatchedClosing error) ↔ nest tokens = .error error := by
  cases hnest : nest tokens with
  | ok items =>
    obtain ⟨expr, -, hexpr⟩ := exists_ofTokens_eq_ok hnest
    simp [hexpr]
  | error found => simp [ofTokens_of_nest_eq_error hnest]

end Expr

/-! ### Expressions of texts -/

section Parse

variable {text : String} {tokens : List Token}

theorem parse_eq_ok_of_nest {items : List Item} {expr : Expr} (htokens : tokenize text = .ok tokens)
    (hnest : nest tokens = .ok items) (hexpr : Expr.ofItems items = .ok expr) : parse text = .ok expr := by
  rw [parse_of_tokenize htokens, Expr.ofTokens_of_nest_eq_ok hnest, hexpr]
  rfl

theorem overclosed_iff_of_brackets {chars : List Char}
    (h : tokens.filterMap Token.bracket? = chars.filterMap Bracket.ofChar?) :
    Overclosed tokens ↔ chars.count '(' < chars.count ')' := by
  show _ ↔ chars.count Bracket.opening.char < chars.count Bracket.closing.char
  rw [← Bracket.count_filterMap_ofChar?, ← Bracket.count_filterMap_ofChar?, ← h, Token.count_filterMap_bracket?,
    Token.count_filterMap_bracket?, Overclosed]

theorem count_le_of_brackets {chars front : List Char}
    (h : tokens.filterMap Token.bracket? = chars.filterMap Bracket.ofChar?)
    (hfits : ∀ front, front <+: tokens → ¬ Overclosed front) (hfront : front <+: chars) :
    front.count ')' ≤ front.count '(' := by
  have hbrackets := hfront.filterMap Bracket.ofChar?
  rw [← h] at hbrackets
  obtain ⟨fewer, hfewer, hsame⟩ := List.prefix_filterMap_iff.1 hbrackets
  have hnot := hfits fewer hfewer
  rwa [overclosed_iff_of_brackets hsame.symm, Nat.not_lt] at hnot

theorem closingsMatched_iff (htokens : tokenize text = .ok tokens) :
    ClosingsMatched text ↔ ∀ front, front <+: tokens → ¬ Overclosed front := by
  constructor
  · intro hmatched front hfront
    have hcount := count_closing_le_of_prefix htokens hmatched hfront
    exact Nat.not_lt_of_le hcount
  · intro hfits chars hchars
    exact count_le_of_brackets (filterMap_bracket?_of_tokenize htokens) hfits hchars

theorem closingsMatched_of_nest {items : List Item} (htokens : tokenize text = .ok tokens)
    (hnest : nest tokens = .ok items) : ClosingsMatched text := by
  refine (closingsMatched_iff htokens).2 fun front hfront hover => ?_
  obtain ⟨error, herror⟩ := exists_nest_eq_error_iff.2 ⟨front, hfront, hover⟩
  rw [hnest] at herror
  simp at herror

theorem parse_eq_unmatchedClosing_iff {error : UnmatchedClosing} (htokens : tokenize text = .ok tokens) :
    parse text = .error (.parse (.unmatchedClosing error)) ↔ nest tokens = .error error := by
  rw [parse_of_tokenize htokens, ← Expr.ofTokens_eq_unmatchedClosing_iff, mapError_eq_error_iff]
  simp

end Parse

/-- Tokens are refused exactly if they close too much at some point, and it is told where that is first.
All other tokens have an expression, and no look-up on the way to it goes wrong. -/
theorem refused_iff_overclosed (tokens : List Token) :
    ((∃ error, Expr.ofTokens tokens = .error (.unmatchedClosing error)) ↔
        ∃ front, front <+: tokens ∧ Overclosed front) ∧
      (∀ error, Expr.ofTokens tokens = .error (.unmatchedClosing error) →
        error.tokens = tokens ∧ error.index < tokens.length ∧ Overclosed (tokens.take (error.index + 1)) ∧
          ∀ front, front <+: tokens → Overclosed front → error.index < front.length) ∧
      ((∀ front, front <+: tokens → ¬ Overclosed front) →
        ∃ items expr, nest tokens = .ok items ∧ Expr.ofPlaces items 0 items.length = .ok expr ∧
          Expr.ofTokens tokens = .ok expr) := by
  simp only [Expr.ofTokens_eq_unmatchedClosing_iff]
  refine ⟨exists_nest_eq_error_iff, fun error herror => of_nest_eq_error herror, fun hfits => ?_⟩
  cases hnest : nest tokens with
  | error error =>
    obtain ⟨front, hfront, hover⟩ := exists_nest_eq_error_iff.1 ⟨error, hnest⟩
    exact (hfits front hfront hover).elim
  | ok items =>
    obtain ⟨expr, hitems, htokens⟩ := Expr.exists_ofTokens_eq_ok hnest
    refine ⟨items, expr, rfl, ?_, htokens⟩
    rw [Expr.ofPlaces_whole, hitems]
    rfl

/-- The second of three closing brackets is the one in excess. -/
example : nest [.bracket .opening, .bracket .closing, .bracket .closing, .bracket .closing] =
    .error ⟨[.bracket .opening, .bracket .closing, .bracket .closing, .bracket .closing], 2⟩ := by
  rfl

end Calculator
