import Calculator.Item

/-!
# Ranges of items and their operators

An expression is found by splitting a range of items at its weakest operator, the one of the largest
precedence, and at the rightmost of several. `weakest?` finds it and `Chain.cut` cuts a range at every
operator of one precedence, so that a long chain such as `a - b + c - d` is taken apart in one pass.
Groups are opaque here: the operators inside them do not count.
-/

namespace Calculator

/-- Why a range of items has no expression. -/
inductive RangeError where
  /-- The range ends beyond the items. -/
  | outside
  /-- A bracket that was not nested stands where an operand was expected. -/
  | strayBracket (side : Bracket)
  deriving DecidableEq, Repr

def RangeError.message : RangeError → String
  | outside => "list index out of range"
  | strayBracket side => "Unexpected expression item: " ++ side.name

/-- The items from `start` to `stop`, the latter excluded. Only a range that is not empty has to end
within the list. -/
def itemsBetween (items : List Item) (start stop : Nat) : Except RangeError (List Item) :=
  if start < stop then
    if stop ≤ items.length then .ok ((items.take stop).drop start) else .error .outside
  else .ok []

namespace Item

def operator? : Item → Option Operator
  | token (.operator op) => some op
  | _ => none

/-- The operator of an item that is a binary operator of the given precedence. -/
def binary? (precedence : Nat) : Item → Option BinaryOp
  | token (.operator (.binary op)) => if op.precedence = precedence then some op else none
  | _ => none

theorem eq_of_operator? {item : Item} {op : Operator} (h : item.operator? = some op) :
    item = .token (.operator op) := by
  unfold operator? at h
  split at h
  · rw [Option.some.inj h]
  · nomatch h

theorem eq_of_binary? {item : Item} {precedence : Nat} {op : BinaryOp}
    (h : item.binary? precedence = some op) :
    item = .token (.operator (.binary op)) ∧ op.precedence = precedence := by
  unfold binary? at h
  split at h
  · split at h
    · rename_i hop
      rw [← Option.some.inj h]
      exact ⟨rfl, hop⟩
    · nomatch h
  · nomatch h

end Item

/-! ### The weakest operator -/

/-- The place of the rightmost of the weakest operators, and that operator. -/
def weakest? : List Item → Option (Nat × Operator)
  | [] => none
  | item :: rest =>
    match item.operator?, weakest? rest with
    | none, none => none
    | none, some (place, weakest) => some (place + 1, weakest)
    | some op, none => some (0, op)
    | some op, some (place, weakest) =>
      if op.precedence ≤ weakest.precedence then some (place + 1, weakest) else some (0, op)

theorem getElem?_weakest? {items : List Item} {place : Nat} {op : Operator}
    (h : weakest? items = some (place, op)) : items[place]? = some (.token (.operator op)) := by
  fun_induction weakest? items generalizing place op with
  | case1 => nomatch h
  | case2 => nomatch h
  | case3 item rest place' weakest hrest _ ih =>
    obtain ⟨rfl, rfl⟩ := Prod.mk.inj (Option.some.inj h)
    exact ih hrest
  | case4 item rest op' _ hitem =>
    obtain ⟨rfl, rfl⟩ := Prod.mk.inj (Option.some.inj h)
    exact congrArg some (Item.eq_of_operator? hitem)
  | case5 item rest op' place' weakest hrest _ _ ih =>
    obtain ⟨rfl, rfl⟩ := Prod.mk.inj (Option.some.inj h)
    exact ih hrest
  | case6 item rest op' place' weakest _ hitem =>
    obtain ⟨rfl, rfl⟩ := Prod.mk.inj (Option.some.inj h)
    exact congrArg some (Item.eq_of_operator? hitem)

/-- The place, among all the items, of the weakest operator between two places. -/
def weakestBetween (items : List Item) (start stop : Nat) : Except RangeError (Option Nat) := do
  let within ← itemsBetween items start stop
  return (weakest? within).map fun (place, _) => start + place

/-! ### Chains -/

/-- A range cut at some of its binary operators: the items before the first of them, and every
operator with the items between it and the next. -/
structure Chain where
  first : List Item
  links : List (BinaryOp × List Item)

namespace Chain

def cons (item : Item) (chain : Chain) : Chain :=
  { chain with first := item :: chain.first }

/-- An operator in front takes the items that were first. -/
def link (op : BinaryOp) (chain : Chain) : Chain :=
  ⟨[], (op, chain.first) :: chain.links⟩

/-- A range cut at all its binary operators of one precedence. -/
def cut (precedence : Nat) : List Item → Chain
  | [] => ⟨[], []⟩
  | item :: rest =>
    match item.binary? precedence with
    | some op => (cut precedence rest).link op
    | none => (cut precedence rest).cons item

def items (chain : Chain) : List Item :=
  chain.first ++ chain.links.flatMap fun (op, operand) => .token (.operator (.binary op)) :: operand

theorem items_cut (precedence : Nat) (range : List Item) : (cut precedence range).items = range := by
  fun_induction cut precedence range with
  | case1 => rfl
  | case2 item rest op hitem ih =>
    obtain ⟨rfl, -⟩ := Item.eq_of_binary? hitem
    exact congrArg _ ih
  | case3 item rest _ ih => exact congrArg _ ih

theorem links_cut_ne_nil {range : List Item} {op : BinaryOp}
    (hmem : .token (.operator (.binary op)) ∈ range) : (cut op.precedence range).links ≠ [] := by
  fun_induction cut op.precedence range with
  | case1 => nomatch hmem
  | case2 => exact List.cons_ne_nil _ _
  | case3 item rest hitem ih =>
    rcases List.mem_cons.1 hmem with rfl | hmem
    · rw [Item.binary?, if_pos rfl] at hitem
      nomatch hitem
    · exact ih hmem

theorem sizeOf_first_cut_le (precedence : Nat) (range : List Item) :
    sizeOf (cut precedence range).first ≤ sizeOf range := by
  fun_induction cut precedence range with
  | case1 => exact Nat.le_refl _
  | case2 item rest op _ ih =>
    simp only [link, List.nil.sizeOf_spec, List.cons.sizeOf_spec]
    omega
  | case3 item rest _ ih =>
    simp only [cons, List.cons.sizeOf_spec]
    omega

theorem sizeOf_first_cut_lt {precedence : Nat} {range : List Item}
    (h : (cut precedence range).links ≠ []) : sizeOf (cut precedence range).first < sizeOf range := by
  fun_induction cut precedence range with
  | case1 => exact absurd rfl h
  | case2 item rest op hitem _ =>
    obtain ⟨rfl, -⟩ := Item.eq_of_binary? hitem
    simp only [link, List.nil.sizeOf_spec, List.cons.sizeOf_spec, Item.token.sizeOf_spec]
    omega
  | case3 item rest _ ih =>
    have := ih h
    simp only [cons, List.cons.sizeOf_spec]
    omega

theorem sizeOf_lt_of_mem_links_cut {precedence : Nat} {range : List Item} {link : BinaryOp × List Item}
    (hmem : link ∈ (cut precedence range).links) : sizeOf link.2 < sizeOf range := by
  fun_induction cut precedence range with
  | case1 => nomatch hmem
  | case2 item rest op _ ih =>
    rw [List.cons.sizeOf_spec]
    rcases List.mem_cons.1 hmem with rfl | hmem
    · have := sizeOf_first_cut_le precedence rest
      dsimp only
      omega
    · have := ih hmem
      omega
  | case3 item rest _ ih =>
    have := ih hmem
    rw [List.cons.sizeOf_spec]
    omega

end Chain

end Calculator
