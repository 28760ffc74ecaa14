import Calculator.Item

/-!
# Brackets and groups

Nesting is a run over the tokens that holds, on its levels, everything it has read. `Levels.Spells` is
the invariant of that run: the levels, written back with the brackets that opened them, are the tokens
read so far, no bracket is left among the items, and there are as many enclosing levels as brackets that
still wait for their closing one. One token keeps it (`Levels.Spells.read?`), so all tokens do, as long
as every closing bracket has an opening one before it (`Levels.Spells.readAll`).

In the other direction the items of a level, written back, are read as these very items
(`Levels.readAll_allTokens`). So items without stray brackets are determined by their tokens. Tokens are
determined by their items too, up to closing brackets at their end (`of_nest_eq_ok`).
-/

namespace Calculator

namespace Item

mutual
/-- No bracket is left as a token, at any depth. -/
def Nested : Item → Prop
  | token (.bracket _) => False
  | token _ => True
  | group items => AllNested items

def AllNested : List Item → Prop
  | [] => True
  | item :: rest => item.Nested ∧ AllNested rest
end

@[simp] theorem nested_token {t : Token} : (token t).Nested ↔ ∀ side, t ≠ .bracket side := by
  cases t <;> simp [Nested]

theorem not_nested_bracket (side : Bracket) : ¬ (token (.bracket side)).Nested := by
  simp [Nested]

@[simp] theorem nested_group {items : List Item} : (group items).Nested ↔ AllNested items := by
  rw [Nested]

@[simp] theorem allNested_nil : AllNested [] := by
  simp [AllNested]

@[simp] theorem allNested_cons {item : Item} {rest : List Item} :
    AllNested (item :: rest) ↔ item.Nested ∧ AllNested rest := by
  rw [AllNested]

theorem allNested_iff {items : List Item} : AllNested items ↔ ∀ item ∈ items, item.Nested := by
  induction items with
  | nil => simp
  | cons item rest ih => simp [ih]

@[simp] theorem allNested_append {front back : List Item} :
    AllNested (front ++ back) ↔ AllNested front ∧ AllNested back := by
  simp only [allNested_iff, List.mem_append, or_imp, forall_and]

@[simp] theorem allNested_reverse {items : List Item} : AllNested items.reverse ↔ AllNested items := by
  simp only [allNested_iff, List.mem_reverse]

@[simp] theorem tokens_token (t : Token) : (token t).tokens = [t] := by
  rw [tokens]

@[simp] theorem tokens_group (items : List Item) :
    (group items).tokens = .bracket .opening :: (allTokens items ++ [.bracket .closing]) := by
  rw [tokens]

@[simp] theorem allTokens_nil : allTokens [] = [] := by
  rw [allTokens]

@[simp] theorem allTokens_cons (item : Item) (rest : List Item) :
    allTokens (item :: rest) = item.tokens ++ allTokens rest := by
  rw [allTokens]

@[simp] theorem allTokens_append (front back : List Item) :
    allTokens (front ++ back) = allTokens front ++ allTokens back := by
  induction front with
  | nil => simp
  | cons item front ih => simp [ih]

end Item

namespace Levels

open Item

/-- What was written on the levels, each of the inner ones behind its opening bracket. -/
def tokensOf (current : List Item) : List (List Item) → List Token
  | [] => allTokens current.reverse
  | outer :: enclosing => tokensOf outer enclosing ++ .bracket .opening :: allTokens current.reverse

/-- The levels are those of a text of which these tokens were read. -/
structure Spells (levels : Levels) (front : List Token) : Prop where
  tokens : tokensOf levels.current levels.enclosing = front
  nested : ∀ items ∈ levels.current :: levels.enclosing, AllNested items
  depth : front.count (.bracket .opening) = front.count (.bracket .closing) + levels.enclosing.length

theorem tokensOf_cons (item : Item) (current : List Item) (enclosing : List (List Item)) :
    tokensOf (item :: current) enclosing = tokensOf current enclosing ++ item.tokens := by
  cases enclosing <;> simp [tokensOf]

theorem spells_start : start.Spells [] :=
  ⟨by simp [start, tokensOf], by simp [start], by simp [start]⟩

/-! ### One token -/

theorem Spells.push {levels : Levels} {front : List Token} {token : Token} (h : levels.Spells front)
    (hnested : (Item.token token).Nested) : (levels.push (.token token)).Spells (front ++ [token]) := by
  refine ⟨?_, ?_, ?_⟩
  · rw [Levels.push, tokensOf_cons, h.tokens, tokens_token]
  · have hall := h.nested
    simp only [List.forall_mem_cons] at hall ⊢
    exact ⟨allNested_cons.2 ⟨hnested, hall.1⟩, hall.2⟩
  · have hbracket := nested_token.1 hnested
    simp [List.count_append, hbracket, h.depth, Levels.push]

theorem Spells.enter {levels : Levels} {front : List Token} (h : levels.Spells front) :
    levels.enter.Spells (front ++ [.bracket .opening]) := by
  refine ⟨?_, ?_, ?_⟩
  · rw [Levels.enter, tokensOf, h.tokens, List.reverse_nil, allTokens_nil]
  · exact List.forall_mem_cons.2 ⟨allNested_nil, h.nested⟩
  · simp [List.count_append, h.depth, Levels.enter, Nat.add_assoc]

theorem Spells.leave? {levels next : Levels} {front : List Token} (h : levels.Spells front)
    (hnext : levels.leave? = some next) : next.Spells (front ++ [.bracket .closing]) := by
  obtain ⟨current, enclosing⟩ := levels
  cases enclosing with
  | nil => nomatch hnext
  | cons outer enclosing =>
    obtain rfl := Option.some.inj hnext
    have hnested := h.nested
    simp only [List.forall_mem_cons] at hnested
    refine ⟨?_, ?_, ?_⟩
    · rw [tokensOf_cons, tokens_group, ← h.tokens, tokensOf, List.append_assoc]
      rfl
    · exact List.forall_mem_cons.2 ⟨allNested_cons.2 ⟨by simpa using hnested.1, hnested.2.1⟩, hnested.2.2⟩
    · have hdepth := h.depth
      simp [List.count_append] at hdepth ⊢
      omega

/-- Whatever token is read next, the levels spell the tokens up to it. -/
theorem Spells.read? {levels next : Levels} {front : List Token} {token : Token} (h : levels.Spells front)
    (hnext : levels.read? token = some next) : next.Spells (front ++ [token]) := by
  unfold Levels.read? at hnext
  split at hnext
  · obtain rfl := Option.some.inj hnext
    exact h.enter
  · exact h.leave? hnext
  · rename_i hopening hclosing
    obtain rfl := Option.some.inj hnext
    refine h.push (nested_token.2 fun side => ?_)
    cases side with
    | opening => exact hopening
    | closing => exact hclosing

theorem read?_eq_none_iff {levels : Levels} {token : Token} :
    levels.read? token = none ↔ token = .bracket .closing ∧ levels.enclosing = [] := by
  obtain ⟨current, enclosing⟩ := levels
  unfold Levels.read?
  split
  · simp
  · cases enclosing <;> simp [Levels.leave?]
  · rename_i hclosing
    exact ⟨fun h => (nomatch h), fun h => (hclosing h.1).elim⟩

/-! ### All tokens -/

theorem Spells.readAll {levels : Levels} {front rest : List Token} (h : levels.Spells front) (index : Nat)
    (hrest : ∀ more, more <+: rest →
      (front ++ more).count (.bracket .closing) ≤ (front ++ more).count (.bracket .opening)) :
    ∃ last, levels.readAll index rest = .ok last ∧ last.Spells (front ++ rest) := by
  induction rest generalizing levels front index with
  | nil => exact ⟨levels, rfl, by rwa [List.append_nil]⟩
  | cons token rest ih =>
    cases hread : levels.read? token with
    | none =>
      -- The closing bracket would be the first one in excess.
      obtain ⟨rfl, henclosing⟩ := read?_eq_none_iff.1 hread
      have hcount := hrest [.bracket .closing] (List.prefix_append _ _)
      have hdepth := h.depth
      simp [List.count_append, henclosing] at hcount hdepth
      omega
    | some next =>
      obtain ⟨last, hlast, hspells⟩ := ih (h.read? hread) (index + 1) fun more hmore => by
        have hcount := hrest (token :: more) (List.cons_prefix_cons.2 ⟨rfl, hmore⟩)
        rwa [List.append_assoc, List.singleton_append]
      refine ⟨last, ?_, ?_⟩
      · rw [Levels.readAll, hread]
        exact hlast
      · rwa [List.append_assoc, List.singleton_append] at hspells

/-- When all levels are closed, the open ones get the brackets that are missing. -/
theorem allTokens_items (levels : Levels) :
    allTokens levels.items =
      tokensOf levels.current levels.enclosing ++ List.replicate levels.enclosing.length (.bracket .closing) := by
  obtain ⟨current, enclosing⟩ := levels
  induction enclosing generalizing current with
  | nil => simp [items, tokensOf]
  | cons outer enclosing ih =>
    have hclosed := ih (.group current.reverse :: outer)
    rw [tokensOf_cons, tokens_group] at hclosed
    simpa [items, tokensOf, List.replicate_succ] using hclosed

theorem allNested_items {levels : Levels} (h : ∀ items ∈ levels.current :: levels.enclosing, AllNested items) :
    AllNested levels.items := by
  obtain ⟨current, enclosing⟩ := levels
  induction enclosing generalizing current with
  | nil => simpa [items] using h
  | cons outer enclosing ih =>
    simp only [List.forall_mem_cons] at h
    refine ih (.group current.reverse :: outer) ?_
    simp only [List.forall_mem_cons]
    exact ⟨allNested_cons.2 ⟨by simpa using h.1, h.2.1⟩, h.2.2⟩

end Levels

/-- Tokens with an opening bracket before every closing one are nested. The items, written back, are the
tokens and the closing brackets that were missing at their end. -/
theorem exists_nest_eq_ok {tokens : List Token}
    (h : ∀ front, front <+: tokens → front.count (.bracket .closing) ≤ front.count (.bracket .opening)) :
    ∃ items, nest tokens = .ok items ∧ Item.AllNested items ∧
      Item.allTokens items = tokens ++
        List.replicate (tokens.count (.bracket .opening) - tokens.count (.bracket .closing)) (.bracket .closing) := by
  obtain ⟨last, hlast, hspells⟩ := Levels.spells_start.readAll 0 h
  rw [List.nil_append] at hspells
  refine ⟨last.items, ?_, Levels.allNested_items hspells.nested, ?_⟩
  · rw [nest, hlast]
  · have hdepth := hspells.depth
    have hmissing : tokens.count (.bracket .opening) - tokens.count (.bracket .closing) = last.enclosing.length := by
      omega
    rw [Levels.allTokens_items, hspells.tokens, hmissing]

/-! ### Reading what was written -/

namespace Levels

open Item

mutual
theorem readAll_tokens (levels : Levels) (index : Nat) (rest : List Token) :
    ∀ item : Item, item.Nested →
      levels.readAll index (item.tokens ++ rest) = (levels.push item).readAll (index + item.tokens.length) rest
  | .token (.bracket side), h => (not_nested_bracket side h).elim
  | .token (.variable name), _ => by simp [Levels.readAll, Levels.read?]
  | .token (.number value), _ => by simp [Levels.readAll, Levels.read?]
  | .token (.operator op), _ => by simp [Levels.readAll, Levels.read?]
  | .group items, h => by
    have hinner := readAll_allTokens levels.enter (index + 1) (.bracket .closing :: rest) items (nested_group.1 h)
    simp only [tokens_group, List.cons_append, List.append_assoc, List.nil_append, Levels.readAll, Levels.read?]
    rw [hinner]
    simp [Levels.readAll, Levels.read?, Levels.enter, Levels.leave?, Levels.push, Nat.add_assoc, Nat.add_comm 1]

theorem readAll_allTokens (levels : Levels) (index : Nat) (rest : List Token) :
    ∀ items : List Item, AllNested items →
      levels.readAll index (allTokens items ++ rest) =
        readAll { levels with current := items.reverse ++ levels.current } (index + (allTokens items).length) rest
  | [], _ => by simp
  | item :: others, h => by
    obtain ⟨hitem, hothers⟩ := allNested_cons.1 h
    rw [allTokens_cons, List.append_assoc, readAll_tokens levels index _ item hitem,
      readAll_allTokens (levels.push item) _ rest others hothers]
    simp [Levels.push, Nat.add_assoc]
end

end Levels

theorem nest_allTokens {items : List Item} (h : Item.AllNested items) : nest (Item.allTokens items) = .ok items := by
  have hread := Levels.readAll_allTokens Levels.start 0 [] items h
  rw [List.append_nil] at hread
  rw [nest, hread]
  simp [Levels.readAll, Levels.start, Levels.items]

theorem allTokens_inj {left right : List Item} (hleft : Item.AllNested left) (hright : Item.AllNested right)
    (h : Item.allTokens left = Item.allTokens right) : left = right := by
  have hnest := nest_allTokens hleft
  rw [h, nest_allTokens hright] at hnest
  exact (Except.ok.inj hnest).symm

/-! ### Writing what was read -/

theorem Levels.Spells.of_readAll_eq_ok {levels last : Levels} {front rest : List Token} {index : Nat}
    (h : levels.Spells front) (hlast : levels.readAll index rest = .ok last) : last.Spells (front ++ rest) := by
  induction rest generalizing levels front index with
  | nil =>
    obtain rfl := Except.ok.inj hlast
    rwa [List.append_nil]
  | cons token rest ih =>
    cases hread : levels.read? token with
    | none =>
      rw [Levels.readAll, hread] at hlast
      simp at hlast
    | some next =>
      rw [Levels.readAll, hread] at hlast
      have hspells := ih (h.read? hread) hlast
      rwa [List.append_assoc, List.singleton_append] at hspells

theorem of_nest_eq_ok {tokens : List Token} {items : List Item} (h : nest tokens = .ok items) :
    Item.AllNested items ∧ ∃ missing, tokens.count (.bracket .opening) = tokens.count (.bracket .closing) + missing ∧
      Item.allTokens items = tokens ++ List.replicate missing (.bracket .closing) := by
  cases hread : Levels.start.readAll 0 tokens with
  | error place =>
    rw [nest, hread] at h
    simp at h
  | ok last =>
    rw [nest, hread] at h
    obtain rfl := Except.ok.inj h
    have hspells := Levels.spells_start.of_readAll_eq_ok hread
    rw [List.nil_append] at hspells
    refine ⟨Levels.allNested_items hspells.nested, last.enclosing.length, hspells.depth, ?_⟩
    rw [Levels.allTokens_items, hspells.tokens]

/-- Items without stray brackets are read back from what is written of them. What is written of the items
that were read is what they were read from, and a closing bracket for each one that was left open. -/
theorem nest_allTokens_and_allTokens_nest :
    (∀ items, Item.AllNested items → nest (Item.allTokens items) = .ok items) ∧
      ∀ tokens items, nest tokens = .ok items →
        Item.AllNested items ∧ ∃ missing,
          tokens.count (.bracket .opening) = tokens.count (.bracket .closing) + missing ∧
            Item.allTokens items = tokens ++ List.replicate missing (.bracket .closing) := by
  constructor
  · intro items hnested
    exact nest_allTokens hnested
  · intro tokens items hnest
    exact of_nest_eq_ok hnest

/-- Two brackets are left open, one inside the other and behind a pair that is empty. -/
example : nest [.bracket .opening, .bracket .opening, .bracket .closing, .bracket .opening, .number 1] =
    .ok [.group [.group [], .group [.token (.number 1)]]] := by
  rfl

end Calculator
