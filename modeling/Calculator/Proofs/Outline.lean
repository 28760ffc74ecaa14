import Calculator.Proofs.Balance
import Calculator.Proofs.Numerals

/-!
# What an outline tells

The outline shows items on one line, with spaces between them, square brackets around groups and angle
brackets around the kinds of tokens. None of these characters is kept out of the names of variables, and
nevertheless the outline of a text tells how it was grouped (`outline_eq_iff`), because it can be read
from left to right without a look ahead. An item starts with an angle bracket or with a square one. Behind
its kind a variable has one character, whatever it is, a number has digits up to the first character that
is none, and an operator has its spelling.

So an outline with something behind it is the outline of one item only and leaves one rest
(`Item.drawn_append_inj`). This is stated on the characters of an outline (`Item.drawn`), and for the
items of a text these are the outline (`Item.outline_eq_drawn`).
-/

namespace Calculator

theorem eq_and_eq_of_append_cons {α : Type} {a : α} {front other back rest : List α} (hfront : a ∉ front)
    (hother : a ∉ other) (h : front ++ a :: back = other ++ a :: rest) : front = other ∧ back = rest := by
  induction front generalizing other with
  | nil =>
    cases other with
    | nil => exact ⟨rfl, (List.cons.inj h).2⟩
    | cons b other => exact absurd ((List.cons.inj h).1 ▸ List.mem_cons_self) hother
  | cons b front ih =>
    cases other with
    | nil => exact absurd ((List.cons.inj h).1 ▸ List.mem_cons_self) hfront
    | cons c other =>
      obtain ⟨rfl, htail⟩ := List.cons.inj h
      obtain ⟨rfl, rfl⟩ := ih (List.not_mem_of_not_mem_cons hfront) (List.not_mem_of_not_mem_cons hother) htail
      exact ⟨rfl, rfl⟩

/-- Digits that are followed by no digit end in one place only. -/
theorem eq_and_eq_of_digits_append {digits others back rest : List Char} (hne : digits ≠ []) (hothersNe : others ≠ [])
    (hdigits : ∀ c ∈ digits, c.isDigit) (hothers : ∀ c ∈ others, c.isDigit) (hback : ∀ c ∈ back.head?, ¬ c.isDigit)
    (hrest : ∀ c ∈ rest.head?, ¬ c.isDigit) (h : digits ++ back = others ++ rest) : digits = others ∧ back = rest := by
  have hcut := Lexeme.cut_digits_append hne hdigits (Lexeme.not_isNumeral_of_head?_cut hback)
  rw [h, Lexeme.cut_digits_append hothersNe hothers (Lexeme.not_isNumeral_of_head?_cut hrest)] at hcut
  obtain rfl := Lexeme.numeral.inj (List.cons.inj hcut).1
  exact ⟨rfl, List.append_cancel_left h⟩

/-! ### Tokens -/

namespace Token

/-- What stands between the angle brackets in front of a token. -/
def kind : Token → String
  | .variable _ => "VARIABLE"
  | .number _ => "NUMBER"
  | .operator op => op.name
  | .bracket side => side.name

/-- What stands behind them. -/
def letters : Token → List Char
  | .variable name => name.toList
  | .number value => Nat.toDigits 10 value.natAbs
  | .operator op => [op.char]
  | .bracket side => [side.char]

def drawn (token : Token) : List Char :=
  '<' :: (token.kind.toList ++ '>' :: token.letters)

theorem not_mem_kind (token : Token) : '>' ∉ token.kind.toList := by
  cases token with
  | «variable» name =>
    rw [kind]
    decide
  | number value =>
    rw [kind]
    decide
  | operator op => rcases op with _ | (_ | _ | _ | _) <;> decide
  | bracket side => cases side <;> decide

theorem kind_operator_eq_iff {op : Operator} {token : Token} (h : ∀ side, token ≠ .bracket side) :
    (Token.operator op).kind = token.kind ↔ token = .operator op := by
  rcases token with name | value | other | side
  · rcases op with _ | (_ | _ | _ | _) <;> simp [kind, Operator.name, BinaryOp.name]
  · rcases op with _ | (_ | _ | _ | _) <;> simp [kind, Operator.name, BinaryOp.name]
  · refine ⟨fun hname => ?_, fun heq => by rw [heq]⟩
    have hfound := congrArg Operator.ofName? hname
    rw [kind, kind, Operator.ofName?_name, Operator.ofName?_name] at hfound
    rw [Option.some.inj hfound]
  · exact absurd rfl (h side)

variable {token other : Token} {lexeme otherLexeme : Lexeme}

theorem WrittenAs.tagged_eq (h : WrittenAs token lexeme) (hbracket : ∀ side, token ≠ .bracket side) :
    token.tagged = .ok (String.ofList token.drawn) := by
  cases h with
  | @name c hc =>
    refine congrArg Except.ok (String.toList_inj.1 ?_)
    simp [drawn, kind, letters]
  | @number n hn =>
    rw [tagged, Numeral.write_natCast hn]
    refine congrArg Except.ok (String.toList_inj.1 ?_)
    simp [drawn, kind, letters]
  | operator op => rcases op with _ | (_ | _ | _ | _) <;> rfl
  | bracket side => exact absurd rfl (hbracket side)

theorem drawn_append_inj (h : WrittenAs token lexeme) (hother : WrittenAs other otherLexeme)
    (hbracket : ∀ side, token ≠ .bracket side) (hotherBracket : ∀ side, other ≠ .bracket side) {back rest : List Char}
    (hback : ∀ c ∈ back.head?, ¬ c.isDigit) (hrest : ∀ c ∈ rest.head?, ¬ c.isDigit)
    (hsame : token.drawn ++ back = other.drawn ++ rest) : token = other ∧ back = rest := by
  have hbehind : token.kind.toList ++ '>' :: (token.letters ++ back) =
      other.kind.toList ++ '>' :: (other.letters ++ rest) := by
    simpa [drawn] using hsame
  obtain ⟨hkind, hletters⟩ := eq_and_eq_of_append_cons token.not_mem_kind other.not_mem_kind hbehind
  rw [String.toList_inj] at hkind
  cases h with
  | @name c hc =>
    cases hother with
    | @name d hd => simpa [letters] using hletters
    | number hn => simp [kind] at hkind
    | operator op => nomatch (kind_operator_eq_iff hbracket).1 hkind.symm
    | bracket side => exact absurd rfl (hotherBracket side)
  | @number n hn =>
    cases hother with
    | name hd => simp [kind] at hkind
    | @number m hm =>
      have hdigits {k : Nat} : ∀ c ∈ Nat.toDigits 10 k, c.isDigit := fun c hc =>
        Nat.isDigit_of_mem_toDigits (by decide) (by decide) hc
      obtain ⟨hsameDigits, rfl⟩ := eq_and_eq_of_digits_append Nat.toDigits_ne_nil Nat.toDigits_ne_nil hdigits hdigits
        hback hrest hletters
      have hvalue := congrArg (Nat.ofDigitChars 10 · 0) hsameDigits
      simp only [Int.natAbs_natCast, Nat.ofDigitChars_toDigits (by decide : 1 < 10) (by decide : 10 ≤ 10)] at hvalue
      exact ⟨by rw [hvalue], rfl⟩
    | operator op => nomatch (kind_operator_eq_iff hbracket).1 hkind.symm
    | bracket side => exact absurd rfl (hotherBracket side)
  | operator op =>
    obtain rfl := (kind_operator_eq_iff hotherBracket).1 hkind
    exact ⟨rfl, List.append_cancel_left hletters⟩
  | bracket side => exact absurd rfl (hbracket side)

end Token

/-! ### Items -/

namespace Item

/-- No bracket is left in the item as a token, and all its tokens have spellings of their own. -/
structure Written (item : Item) : Prop where
  nested : item.Nested
  writtenAs : ∀ token ∈ item.tokens, ∃ lexeme, token.WrittenAs lexeme

def AllWritten (items : List Item) : Prop :=
  ∀ item ∈ items, item.Written

theorem Written.of_token {t : Token} (h : (token t).Written) :
    (∃ lexeme, t.WrittenAs lexeme) ∧ ∀ side, t ≠ .bracket side :=
  ⟨h.writtenAs t (by simp), nested_token.1 h.nested⟩

theorem allWritten_iff {items : List Item} :
    AllWritten items ↔ AllNested items ∧ ∀ token ∈ allTokens items, ∃ lexeme, token.WrittenAs lexeme := by
  induction items with
  | nil => simp [AllWritten]
  | cons item rest ih =>
    rw [AllWritten, List.forall_mem_cons, ← AllWritten, ih, allNested_cons, allTokens_cons, List.forall_mem_append]
    exact ⟨fun ⟨⟨hnested, hwritten⟩, hrest⟩ => ⟨⟨hnested, hrest.1⟩, hwritten, hrest.2⟩,
      fun ⟨⟨hnested, hrest⟩, hwritten, hothers⟩ => ⟨⟨hnested, hwritten⟩, hrest, hothers⟩⟩

theorem Written.of_group {items : List Item} (h : (group items).Written) : AllWritten items := by
  refine allWritten_iff.2 ⟨nested_group.1 h.nested, fun token htoken => h.writtenAs token ?_⟩
  simp [htoken]

mutual
/-- The outline of an item, character by character. -/
def drawn : Item → List Char
  | token t => t.drawn
  | group items => '[' :: allDrawn [] items

/-- The outlines of the items of a group and the bracket that closes it: the first item stands behind a
gap and each of the others behind a space. -/
def allDrawn : List Char → List Item → List Char
  | _, [] => [']']
  | gap, item :: rest => gap ++ (item.drawn ++ allDrawn [' '] rest)
end

theorem allDrawn_cons_eq (gap : List Char) (item : Item) (rest : List Item) :
    allDrawn gap (item :: rest) = gap ++ ([' '].intercalate ((item :: rest).map drawn) ++ [']']) := by
  induction rest generalizing gap item with
  | nil => simp [allDrawn]
  | cons next rest ih =>
    rw [allDrawn, ih]
    simp only [List.map_cons, List.intercalate_cons_cons, List.append_assoc]

mutual
theorem outline_eq_drawn : ∀ item : Item, item.Written → item.outline = .ok (String.ofList item.drawn)
  | .token t, h => by
    obtain ⟨⟨lexeme, hlexeme⟩, hbracket⟩ := h.of_token
    rw [outline, hlexeme.tagged_eq hbracket, drawn]
  | .group items, h => by
    rw [outline, outlines_eq_drawn items h.of_group]
    refine congrArg Except.ok (String.toList_inj.1 ?_)
    cases items with
    | nil => rfl
    | cons item rest => simp [drawn, allDrawn_cons_eq, String.toList_intercalate, Function.comp_def]

theorem outlines_eq_drawn : ∀ items : List Item, AllWritten items →
    outlines items = .ok (items.map fun item => String.ofList item.drawn)
  | [], _ => rfl
  | item :: rest, h => by
    obtain ⟨hitem, hrest⟩ := List.forall_mem_cons.1 h
    rw [outlines, outline_eq_drawn item hitem, outlines_eq_drawn rest hrest]
    rfl
end

theorem allDrawn_nil_append_ne {gap : List Char} (hgap : gap ∈ [[], [' ']]) (item : Item) (others : List Item)
    (back rest : List Char) : allDrawn gap [] ++ back ≠ allDrawn gap (item :: others) ++ rest := by
  simp only [List.mem_cons, List.not_mem_nil, or_false] at hgap
  rcases hgap with rfl | rfl
  · cases item with
    | token t => simp [allDrawn, drawn, Token.drawn]
    | group items => simp [allDrawn, drawn]
  · simp [allDrawn]

theorem not_isDigit_head?_allDrawn (items : List Item) (back : List Char) :
    ∀ c ∈ (allDrawn [' '] items ++ back).head?, ¬ c.isDigit := by
  cases items with
  | nil => simp [allDrawn]
  | cons item rest => simp [allDrawn]

mutual
/-- An item with anything but a digit behind it is outlined like no other item. -/
theorem drawn_append_inj {back rest : List Char} (hback : ∀ c ∈ back.head?, ¬ c.isDigit)
    (hrest : ∀ c ∈ rest.head?, ¬ c.isDigit) : ∀ left right : Item, left.Written → right.Written →
      left.drawn ++ back = right.drawn ++ rest → left = right ∧ back = rest
  | .token t, .token u, hleft, hright, h => by
    obtain ⟨⟨lexeme, ht⟩, hbracket⟩ := hleft.of_token
    obtain ⟨⟨other, hu⟩, hotherBracket⟩ := hright.of_token
    rw [drawn, drawn] at h
    obtain ⟨rfl, rfl⟩ := Token.drawn_append_inj ht hu hbracket hotherBracket hback hrest h
    exact ⟨rfl, rfl⟩
  | .token t, .group items, _, _, h => by simp [drawn, Token.drawn] at h
  | .group items, .token u, _, _, h => by simp [drawn, Token.drawn] at h
  | .group items, .group others, hleft, hright, h => by
    rw [drawn, drawn] at h
    obtain ⟨rfl, rfl⟩ := allDrawn_append_inj (by simp) items others hleft.of_group hright.of_group (List.cons.inj h).2
    exact ⟨rfl, rfl⟩

theorem allDrawn_append_inj {gap back rest : List Char} (hgap : gap ∈ [[], [' ']]) : ∀ left right : List Item,
    AllWritten left → AllWritten right →
      allDrawn gap left ++ back = allDrawn gap right ++ rest → left = right ∧ back = rest
  | [], [], _, _, h => by simpa [allDrawn] using h
  | [], item :: others, _, _, h => (allDrawn_nil_append_ne hgap item others back rest h).elim
  | item :: others, [], _, _, h => (allDrawn_nil_append_ne hgap item others rest back h.symm).elim
  | item :: others, next :: behind, hleft, hright, h => by
    obtain ⟨hitem, hothers⟩ := List.forall_mem_cons.1 hleft
    obtain ⟨hnext, hbehind⟩ := List.forall_mem_cons.1 hright
    rw [allDrawn, allDrawn, List.append_assoc, List.append_assoc, List.append_assoc, List.append_assoc] at h
    obtain ⟨rfl, hafter⟩ := drawn_append_inj (not_isDigit_head?_allDrawn others back)
      (not_isDigit_head?_allDrawn behind rest) item next hitem hnext (List.append_cancel_left h)
    obtain ⟨rfl, rfl⟩ := allDrawn_append_inj (by simp) others behind hothers hbehind hafter
    exact ⟨rfl, rfl⟩
end

end Item

section Tokenize

variable {text other : String} {tokens otherTokens : List Token} {items otherItems : List Item}

theorem allWritten_of_nest (htokens : tokenize text = .ok tokens) (hitems : nest tokens = .ok items) :
    Item.AllWritten items := by
  obtain ⟨hnested, missing, -, hall⟩ := of_nest_eq_ok hitems
  refine Item.allWritten_iff.2 ⟨hnested, fun token htoken => ?_⟩
  rw [hall, List.mem_append] at htoken
  rcases htoken with htoken | hmissing
  · exact exists_writtenAs_of_tokenize htokens htoken
  · rw [List.eq_of_mem_replicate hmissing]
    exact ⟨_, .bracket .closing⟩

theorem written_group_of_nest (htokens : tokenize text = .ok tokens) (hitems : nest tokens = .ok items) :
    (Item.group items).Written := by
  obtain ⟨hnested, hwritten⟩ := Item.allWritten_iff.1 (allWritten_of_nest htokens hitems)
  refine ⟨Item.nested_group.2 hnested, ?_⟩
  rw [Item.tokens_group, List.forall_mem_cons, List.forall_mem_append, List.forall_mem_singleton]
  exact ⟨⟨_, .bracket .opening⟩, hwritten, ⟨_, .bracket .closing⟩⟩

/-- Texts whose brackets can be nested have outlines. These are the same exactly if the texts were grouped
in the same way, and then both texts have the same expression. -/
theorem outline_eq_iff (htokens : tokenize text = .ok tokens) (hitems : nest tokens = .ok items)
    (hotherTokens : tokenize other = .ok otherTokens) (hotherItems : nest otherTokens = .ok otherItems) :
    ∃ shown otherShown, (Item.group items).outline = .ok shown ∧ (Item.group otherItems).outline = .ok otherShown ∧
      (shown = otherShown ↔ items = otherItems) ∧
      (shown = otherShown → ∃ expr, parse text = .ok expr ∧ parse other = .ok expr) := by
  have hwritten := written_group_of_nest htokens hitems
  have hotherWritten := written_group_of_nest hotherTokens hotherItems
  have hinj (h : String.ofList (Item.group items).drawn = String.ofList (Item.group otherItems).drawn) :
      items = otherItems := by
    have hdrawn : (Item.group items).drawn ++ [] = (Item.group otherItems).drawn ++ [] := by
      rw [String.ofList_injective h]
    have hsame := (Item.drawn_append_inj (by simp) (by simp) _ _ hwritten hotherWritten hdrawn).1
    exact Item.group.inj hsame
  refine ⟨_, _, Item.outline_eq_drawn _ hwritten, Item.outline_eq_drawn _ hotherWritten,
    ⟨hinj, fun hsame => by rw [hsame]⟩, fun hshown => ?_⟩
  obtain ⟨expr, hexpr, -⟩ := Expr.exists_ofTokens_eq_ok hitems
  obtain rfl := hinj hshown
  exact ⟨expr, parse_eq_ok_of_nest htokens hitems hexpr, parse_eq_ok_of_nest hotherTokens hotherItems hexpr⟩

/-- A variable that is called like the end of a group, in a group that the one text leaves open. -/
theorem outline_of_variable_like_bracket :
    let tokens : List Token := [.bracket .opening, .variable "]", .operator (.binary .mul), .number 7]
    let items : List Item := [.group [.token (.variable "]"), .token (.operator (.binary .mul)), .token (.number 7)]]
    tokenize "(]⋅ 07" = .ok tokens ∧ nest tokens = .ok items ∧
      tokenize "(] * 7)" = .ok (tokens ++ [.bracket .closing]) ∧ nest (tokens ++ [.bracket .closing]) = .ok items ∧
      (Item.group items).outline = .ok "[[<VARIABLE>] <MUL>* <NUMBER>7]]" ∧
      ∃ expr, parse "(]⋅ 07" = .ok expr ∧ parse "(] * 7)" = .ok expr := by
  intro tokens items
  have htokens : tokenize "(]⋅ 07" = .ok tokens := by decide +kernel
  have hitems : nest tokens = .ok items := rfl
  have hotherTokens : tokenize "(] * 7)" = .ok (tokens ++ [.bracket .closing]) := by decide +kernel
  have hotherItems : nest (tokens ++ [.bracket .closing]) = .ok items := rfl
  have houtline : (Item.group items).outline = .ok "[[<VARIABLE>] <MUL>* <NUMBER>7]]" := by decide +kernel
  obtain ⟨shown, otherShown, -, -, hsame, hexpr⟩ := outline_eq_iff htokens hitems hotherTokens hotherItems
  exact ⟨htokens, hitems, hotherTokens, hotherItems, houtline, hexpr (hsame.2 rfl)⟩

/-- With names that no text has, an outline may stand for different items. -/
example : (Item.group [.token (.variable "x <VARIABLE>y")]).outline =
    (Item.group [.token (.variable "x"), .token (.variable "y")]).outline := by
  decide +kernel

end Tokenize

end Calculator
