import Calculator.Expr.Items
import Calculator.Proofs.Weakest

/-!
# One split at a time

A chain of equally weak operators is folded from the left in one pass, and a row of signs is added in
one loop. Both are shortcuts: `ofItems_append_binary` and `ofItems_of_weakest?_neg` say that the
expression of a range is made from the expressions of the two pieces beside its weakest operator, or of
all but its first item if that operator is a sign. `Expr.splitBetween` is the recursion that takes
these two equations as its definition, on places of the whole list, and it agrees with the shortcuts
everywhere, the error of a bracket that was not nested included.

`range_induction` is the induction that goes with the equations, for other statements on ranges.
-/

namespace Calculator

/-! ### Cutting a chain -/

theorem Item.binary?_eq_none {item : Item} {precedence : Nat}
    (h : ∀ op, item.operator? = some op → op.precedence < precedence) : item.binary? precedence = none := by
  cases hitem : item.binary? precedence with
  | none => rfl
  | some op =>
    obtain ⟨rfl, rfl⟩ := Item.eq_of_binary? hitem
    exact absurd (h _ rfl) (Nat.lt_irrefl _)

theorem Item.binary?_binary (op : BinaryOp) :
    Item.binary? op.precedence (.token (.operator (.binary op))) = some op :=
  if_pos rfl

theorem Item.precedence_lt_of_binary? {item : Item} {op : BinaryOp} {other : Operator}
    (hitem : item.binary? op.precedence = none) (hother : item.operator? = some other)
    (hle : other.precedence < op.precedence + 1) : other.precedence < op.precedence := by
  obtain rfl := Item.eq_of_operator? hother
  cases other with
  | neg => exact op.one_lt_precedence
  | binary other =>
    refine Nat.lt_of_le_of_ne (Nat.le_of_lt_succ hle) fun heq => ?_
    rw [Operator.precedence] at heq
    rw [← heq, Item.binary?_binary] at hitem
    simp at hitem

namespace Chain

theorem cut_of_operatorsBelow {precedence : Nat} {range : List Item} (h : OperatorsBelow precedence range) :
    cut precedence range = ⟨range, []⟩ := by
  induction range with
  | nil => rfl
  | cons item rest ih =>
    rw [operatorsBelow_cons] at h
    rw [cut, Item.binary?_eq_none h.1, ih h.2]
    rfl

theorem cut_append_cons {before after : List Item} {op : BinaryOp} (hafter : OperatorsBelow op.precedence after) :
    cut op.precedence (before ++ .token (.operator (.binary op)) :: after) =
      ⟨(cut op.precedence before).first, (cut op.precedence before).links ++ [(op, after)]⟩ := by
  induction before with
  | nil =>
    simp only [List.nil_append, cut, Item.binary?_binary, cut_of_operatorsBelow hafter]
    rfl
  | cons item before ih =>
    rw [List.cons_append, cut, cut, ih]
    cases item.binary? op.precedence <;> rfl

theorem first_cut_subset (precedence : Nat) (range : List Item) : (cut precedence range).first ⊆ range := by
  intro item hitem
  rw [← items_cut precedence range]
  exact List.mem_append_left _ hitem

theorem subset_of_mem_links_cut {precedence : Nat} {range : List Item} {link : BinaryOp × List Item}
    (h : link ∈ (cut precedence range).links) : link.2 ⊆ range := by
  intro item hitem
  rw [← items_cut precedence range]
  exact List.mem_append_right _ (List.mem_flatMap.2 ⟨link, h, List.mem_cons_of_mem _ hitem⟩)

theorem operatorsBelow_cut {op : BinaryOp} {range : List Item} (h : OperatorsBelow (op.precedence + 1) range) :
    OperatorsBelow op.precedence (cut op.precedence range).first ∧
      ∀ link ∈ (cut op.precedence range).links, OperatorsBelow op.precedence link.2 := by
  fun_induction cut op.precedence range with
  | case1 => simp
  | case2 item rest other hitem ih =>
    obtain ⟨hfirst, hlinks⟩ := ih (operatorsBelow_cons.1 h).2
    exact ⟨operatorsBelow_nil _, List.forall_mem_cons.2 ⟨hfirst, hlinks⟩⟩
  | case3 item rest hitem ih =>
    rw [operatorsBelow_cons] at h
    obtain ⟨hfirst, hlinks⟩ := ih h.2
    exact ⟨operatorsBelow_cons.2 ⟨fun other hother => Item.precedence_lt_of_binary? hitem hother (h.1 other hother),
      hfirst⟩, hlinks⟩

theorem first_cut_of_links_eq_nil {precedence : Nat} {range : List Item}
    (h : (cut precedence range).links = []) : (cut precedence range).first = range := by
  have hitems := items_cut precedence range
  rwa [items, h, List.flatMap_nil, List.append_nil] at hitems

end Chain

theorem exists_weakest?_of_links_ne_nil {range : List Item} {op : BinaryOp}
    (hbelow : OperatorsBelow (op.precedence + 1) range) (hlinks : (Chain.cut op.precedence range).links ≠ []) :
    ∃ place other, weakest? range = some (place, .binary other) ∧ other.precedence = op.precedence := by
  have hnot : ¬ OperatorsBelow op.precedence range := fun h => by
    rw [Chain.cut_of_operatorsBelow h] at hlinks
    exact hlinks rfl
  cases hweakest : weakest? range with
  | none =>
    have hnone := weakest?_eq_none_iff.1 hweakest
    exact absurd (hnone.mono (Nat.le_of_lt op.one_lt_precedence)) hnot
  | some found =>
    obtain ⟨place, weakest⟩ := found
    have hlt := hbelow.precedence_lt_of_weakest? hweakest
    have hle : op.precedence ≤ weakest.precedence :=
      Nat.le_of_not_lt fun hlt => hnot ((operatorsBelow_of_weakest? hweakest).mono hlt)
    cases weakest with
    | neg =>
      have := op.one_lt_precedence
      simp only [Operator.precedence] at hle
      omega
    | binary other =>
      refine ⟨place, other, rfl, ?_⟩
      simp only [Operator.precedence] at hle hlt
      omega

namespace Expr

/-! ### Ranges without operators -/

@[simp] theorem ofItems_number (value : Int) : ofItems [.token (.number value)] = .ok (.number value) := by
  have hnone : weakest? [.token (.number value)] = none := rfl
  rw [ofItems_of_weakest?_eq_none hnone]

@[simp] theorem ofItems_variable (name : String) :
    ofItems [.token (.variable name)] = .ok (.variable name) := by
  have hnone : weakest? [.token (.variable name)] = none := rfl
  rw [ofItems_of_weakest?_eq_none hnone]

@[simp] theorem ofItems_bracket (side : Bracket) :
    ofItems [.token (.bracket side)] = .error (.strayBracket side) := by
  have hnone : weakest? [.token (.bracket side)] = none := rfl
  rw [ofItems_of_weakest?_eq_none hnone]

@[simp] theorem ofItems_group (inner : List Item) : ofItems [.group inner] = ofItems inner := by
  have hnone : weakest? [.group inner] = none := rfl
  rw [ofItems_of_weakest?_eq_none hnone]

theorem ofItems_of_length_ne_one {range : List Item} (h : weakest? range = none) (hlength : range.length ≠ 1) :
    ofItems range = .ok .absent := by
  rw [ofItems_of_weakest?_eq_none h]
  split
  · exact absurd rfl hlength
  · exact absurd rfl hlength
  · exact absurd rfl hlength
  · exact absurd rfl hlength
  · rfl

/-! ### The two equations -/

/-- The expression of a chain: its links are folded onto the first piece from left to right. -/
def ofChain (chain : Chain) : Except RangeError Expr := do
  let first ← ofItems chain.first
  chain.links.foldlM (fun left link => return binary link.1 left (← ofItems link.2)) first

theorem ofChain_append (first : List Item) (links : List (BinaryOp × List Item)) (op : BinaryOp)
    (operand : List Item) :
    ofChain ⟨first, links ++ [(op, operand)]⟩ = do
      let left ← ofChain ⟨first, links⟩
      let right ← ofItems operand
      return binary op left right := by
  simp only [ofChain, List.foldlM_append, List.foldlM_cons, List.foldlM_nil, bind_assoc, bind_pure]

/-- A range may be read as a chain of any precedence that none of its operators exceeds. -/
theorem ofItems_eq_ofChain {range : List Item} {op : BinaryOp}
    (h : OperatorsBelow (op.precedence + 1) range) :
    ofItems range = ofChain (Chain.cut op.precedence range) := by
  by_cases hlinks : (Chain.cut op.precedence range).links = []
  · rw [ofChain, hlinks, Chain.first_cut_of_links_eq_nil hlinks]
    simp only [List.foldlM_nil, bind_pure]
  · obtain ⟨place, other, hweakest, hother⟩ := exists_weakest?_of_links_ne_nil h hlinks
    rw [ofItems_of_weakest?_eq_binary hweakest, hother]
    rfl

/-- A binary operator that is the weakest of a range splits it: the left operand comes first. -/
theorem ofItems_append_binary {before after : List Item} {op : BinaryOp}
    (hbefore : OperatorsBelow (op.precedence + 1) before) (hafter : OperatorsBelow op.precedence after) :
    ofItems (before ++ .token (.operator (.binary op)) :: after) = do
      let left ← ofItems before
      let right ← ofItems after
      return binary op left right := by
  have hweakest : weakest? (before ++ .token (.operator (.binary op)) :: after) = some (before.length, .binary op) :=
    weakest?_append_cons hbefore hafter
  rw [ofItems_of_weakest?_eq_binary hweakest, Chain.cut_append_cons hafter, ofItems_eq_ofChain hbefore]
  exact ofChain_append _ _ _ _

/-- If the weakest operator of a range is a sign, the first item counts for one sign, whatever it is. -/
theorem ofItems_of_weakest?_neg {range : List Item} {place : Nat} (h : weakest? range = some (place, .neg)) :
    ofItems range = neg <$> ofItems range.tail := by
  rw [ofItems_of_weakest?_eq_neg h]
  obtain ⟨before, after, rfl, rfl, hbefore, hafter⟩ := weakest?_eq_some_iff.1 h
  cases before with
  | nil => rfl
  | cons item before =>
    have htail := weakest?_append_cons (operatorsBelow_cons.1 hbefore).2 hafter
    rw [List.cons_append, List.tail_cons, ofItems_of_weakest?_eq_neg htail, ← comp_map]
    rfl

theorem ofItems_neg_cons {rest : List Item} (h : OperatorsBelow 2 rest) :
    ofItems (.token (.operator .neg) :: rest) = neg <$> ofItems rest := by
  have hbelow := h.neg_cons
  cases hweakest : weakest? (.token (.operator .neg) :: rest) with
  | none =>
    have hnone := operatorsBelow_cons.1 (weakest?_eq_none_iff.1 hweakest)
    exact absurd (hnone.1 .neg rfl) (Nat.lt_irrefl 1)
  | some found =>
    obtain ⟨place, op⟩ := found
    obtain rfl := Operator.eq_neg_of_precedence_lt (hbelow.precedence_lt_of_weakest? hweakest)
    rw [ofItems_of_weakest?_neg hweakest, List.tail_cons]

end Expr

private theorem sizeOf_tail_lt {range : List Item} (h : range ≠ []) : sizeOf range.tail < sizeOf range := by
  cases range with
  | nil => exact absurd rfl h
  | cons item rest =>
    rw [List.tail_cons, List.cons.sizeOf_spec]
    omega

private theorem sizeOf_pieces_lt (before after : List Item) (item : Item) :
    sizeOf before < sizeOf (before ++ item :: after) ∧ sizeOf after < sizeOf (before ++ item :: after) := by
  induction before with
  | nil =>
    have hitem : 0 < sizeOf item := by cases item <;> simp +arith
    simp only [List.nil_append, List.nil.sizeOf_spec, List.cons.sizeOf_spec]
    omega
  | cons first before ih =>
    simp only [List.cons_append, List.cons.sizeOf_spec]
    omega

/-- What holds of a range if it holds of the group that the range may consist of, of what follows the
first item if the weakest operator is a sign, and of the pieces beside it if it is binary, holds of every
range. -/
theorem range_induction {motive : List Item → Prop}
    (single : ∀ range, OperatorsBelow 1 range → (∀ inner, range = [.group inner] → motive inner) → motive range)
    (sign : ∀ range place, weakest? range = some (place, .neg) → motive range.tail → motive range)
    (split : ∀ before op after, OperatorsBelow (op.precedence + 1) before → OperatorsBelow op.precedence after →
      motive before → motive after → motive (before ++ .token (.operator (.binary op)) :: after))
    (range : List Item) : motive range := by
  cases hweakest : weakest? range with
  | none =>
    refine single range (weakest?_eq_none_iff.1 hweakest) fun inner hinner => ?_
    exact range_induction single sign split inner
  | some found =>
    obtain ⟨place, op⟩ := found
    cases op with
    | neg => exact sign range place hweakest (range_induction single sign split range.tail)
    | binary op =>
      obtain ⟨before, after, hpieces, -, hbefore, hafter⟩ := weakest?_eq_some_iff.1 hweakest
      rw [hpieces]
      exact split before op after hbefore hafter (range_induction single sign split before)
        (range_induction single sign split after)
termination_by sizeOf range
decreasing_by
  · rw [hinner, List.cons.sizeOf_spec, Item.group.sizeOf_spec]
    omega
  · exact sizeOf_tail_lt fun hnil => by rw [hnil] at hweakest; nomatch hweakest
  · exact hpieces ▸ (sizeOf_pieces_lt before after _).1
  · exact hpieces ▸ (sizeOf_pieces_lt before after _).2

theorem range_cases_induction {motive : List Item → Prop}
    (number : ∀ value, motive [.token (.number value)])
    (name : ∀ name, motive [.token (.variable name)])
    (bracket : ∀ side, motive [.token (.bracket side)])
    (group : ∀ inner, motive inner → motive [.group inner])
    (absent : ∀ range, OperatorsBelow 1 range → range.length ≠ 1 → motive range)
    (sign : ∀ range place, weakest? range = some (place, .neg) → motive range.tail → motive range)
    (split : ∀ before op after, OperatorsBelow (op.precedence + 1) before → OperatorsBelow op.precedence after →
      motive before → motive after → motive (before ++ .token (.operator (.binary op)) :: after))
    (range : List Item) : motive range := by
  induction range using range_induction with
  | single range hnone ih =>
    match range with
    | [.token (.number value)] => exact number value
    | [.token (.variable found)] => exact name found
    | [.token (.bracket side)] => exact bracket side
    | [.group inner] => exact group inner (ih inner rfl)
    | [.token (.operator op)] =>
      have hlt := (operatorsBelow_cons.1 hnone).1 op rfl
      have hpos := op.precedence_pos
      omega
    | [] => exact absent [] hnone (by simp)
    | first :: second :: rest => exact absent (first :: second :: rest) hnone (by simp)
  | sign range place hweakest ih => exact sign range place hweakest ih
  | split before op after hbefore hafter ihBefore ihAfter =>
    exact split before op after hbefore hafter ihBefore ihAfter

/-! ### One split at a time -/

theorem sizeOf_lt_of_getElem? {items inner : List Item} {place : Nat}
    (h : items[place]? = some (.group inner)) : sizeOf inner < sizeOf items := by
  have hmem := List.sizeOf_lt_of_mem (List.mem_of_getElem? h)
  rw [Item.group.sizeOf_spec] at hmem
  omega

namespace Expr

/-- The expression of the items between two places, by one split at a time: at the weakest operator if it
is a binary one, and behind the first item if it is a sign. -/
def splitBetween (items : List Item) (start stop : Nat) : Except RangeError Expr :=
  match hplace : weakestBetween items start stop with
  | .error error => .error error
  | .ok none =>
    if stop = start + 1 then
      match hitem : items[start]? with
      | some (.token (.number value)) => .ok (.number value)
      | some (.token (.variable name)) => .ok (.variable name)
      | some (.token (.bracket side)) => .error (.strayBracket side)
      | some (.group inner) =>
        have := sizeOf_lt_of_getElem? hitem
        splitBetween inner 0 inner.length
      | _ => .ok .absent
    else .ok .absent
  | .ok (some place) =>
    have := le_and_lt_of_weakestBetween hplace
    match items[place]? with
    | some (.token (.operator (.binary op))) => do
      let left ← splitBetween items start place
      let right ← splitBetween items (place + 1) stop
      return binary op left right
    | some (.token (.operator .neg)) => neg <$> splitBetween items (start + 1) stop
    | _ => .ok .absent
termination_by (sizeOf items, stop - start)
decreasing_by
  · exact .left _ _ ‹_›
  all_goals exact .right _ (by omega)

theorem splitBetween_eq_ofItems {items : List Item} {start stop : Nat} (h : stop ≤ start ∨ stop ≤ items.length) :
    splitBetween items start stop = ofItems ((items.take stop).drop start) := by
  fun_induction splitBetween items start stop with
  | case1 items start stop error hplace =>
    rw [weakestBetween_eq_ok h] at hplace
    nomatch hplace
  | case2 items start value hitem _ => rw [range_of_getElem? hitem, ofItems_number]
  | case3 items start name hitem _ => rw [range_of_getElem? hitem, ofItems_variable]
  | case4 items start side hitem _ => rw [range_of_getElem? hitem, ofItems_bracket]
  | case5 items start inner hitem _ _ ih =>
    rw [ih (.inr (Nat.le_refl _)), List.drop_zero, List.take_length, range_of_getElem? hitem, ofItems_group]
  | case6 items start hnumber hname hside hgroup hplace =>
    -- The only item left is an operator, and then it would have been found.
    have hlt : start < items.length := by omega
    have hitem := List.getElem?_eq_getElem hlt
    rw [weakestBetween_eq_ok h, range_of_getElem? hitem] at hplace
    match hcase : items[start] with
    | .token (.number value) => exact (hnumber value (hcase ▸ hitem)).elim
    | .token (.variable name) => exact (hname name (hcase ▸ hitem)).elim
    | .token (.bracket side) => exact (hside side (hcase ▸ hitem)).elim
    | .group inner => exact (hgroup inner (hcase ▸ hitem)).elim
    | .token (.operator op) =>
      rw [hcase] at hplace
      nomatch hplace
  | case7 items start stop hplace hlength =>
    rw [weakestBetween_eq_ok h] at hplace
    have hnone := Option.map_eq_none_iff.1 (Except.ok.inj hplace)
    refine (ofItems_of_length_ne_one hnone ?_).symm
    rw [List.length_drop, List.length_take]
    omega
  | case8 items start stop place hplace _ op hitem ihLeft ihRight =>
    obtain ⟨before, after, hrange, hbefore, hafter, hstart, hstop, rfl, rfl⟩ := pieces_of_weakestBetween hplace hitem
    rw [ihLeft (by omega), ihRight (by omega), hrange, ofItems_append_binary hbefore hafter]
  | case9 items start stop place hplace _ hitem ih =>
    obtain ⟨before, after, hrange, hbefore, hafter, hstart, hstop, -, -⟩ := pieces_of_weakestBetween hplace hitem
    have hweakest := weakest?_append_cons hbefore hafter
    rw [ih (by omega), ← List.tail_drop, hrange, ofItems_of_weakest?_neg hweakest]
  | case10 items start stop place hplace _ hbinary hneg =>
    obtain ⟨_, found, _, _, _, _, _, _, hfound, _⟩ := exists_pieces_of_weakestBetween hplace
    cases found with
    | neg => exact (hneg hfound).elim
    | binary op => exact (hbinary op hfound).elim

theorem ofItemsBetween_eq_splitBetween (items : List Item) (start stop : Nat) :
    ofItemsBetween items start stop = splitBetween items start stop := by
  by_cases hrange : stop ≤ start ∨ stop ≤ items.length
  · rw [splitBetween_eq_ofItems hrange, ofItemsBetween, itemsBetween_eq_ok hrange]
    rfl
  · have hstart : start < stop := by omega
    have hstop : items.length < stop := by omega
    rw [ofItemsBetween, itemsBetween_eq_error hstart hstop, splitBetween]
    split <;> rename_i hplace <;> rw [weakestBetween_eq_error hstart hstop] at hplace
    · rw [← Except.error.inj hplace]
      rfl
    · nomatch hplace
    · nomatch hplace

end Expr

end Calculator
