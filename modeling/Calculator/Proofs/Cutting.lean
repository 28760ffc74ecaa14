import Calculator.Proofs.Places

/-!
# Where a range is cut

A range is cut at its weakest operator and at all the operators that are as weak. Two scans find them. One
keeps the greatest precedence it has met and the place where it met it last, the other collects the places
of one precedence, and nothing but the precedence is passed on from the one to the other. They agree on
every range (`weakestBetween_and_splitPlaces`): the places that are collected end in the one that was kept,
and what is left between them has stronger operators only.

Both are known from the chain into which the range is cut, whose last link is the operator that was kept
(`splitPlaces_eq_append`).
-/

namespace Calculator

/-- Every operator from one place to another has a precedence below a bound. -/
def PlacesBelow (bound : Nat) (items : List Item) (start stop : Nat) : Prop :=
  ∀ place op, start ≤ place → place < stop → items[place]? = some (.token (.operator op)) → op.precedence < bound

/-- The operator at a place is the weakest of a range, and the last one of its precedence. -/
structure IsWeakestAt (items : List Item) (start stop place : Nat) (op : Operator) : Prop where
  item : items[place]? = some (.token (.operator op))
  start_le : start ≤ place
  lt_stop : place < stop
  notAbove : PlacesBelow (op.precedence + 1) items start stop
  belowBehind : PlacesBelow op.precedence items (place + 1) stop

/-- The places at which a range is cut, from left to right up to that of the weakest operator. No operator
in the pieces is as weak, and the pieces are those of the chain from which the expression is made. -/
structure IsCutAt (items : List Item) (start stop place : Nat) (op : BinaryOp) (first : Nat × Operator)
    (others : List (Nat × Operator)) : Prop where
  increasing : ((first :: others).map Prod.fst).Pairwise (· < ·)
  last : (first :: others).getLast? = some (place, .binary op)
  belowInFront : PlacesBelow op.precedence items start first.1
  belowInPieces : ∀ piece ∈ pieces stop (first :: others), PlacesBelow op.precedence items piece.start piece.stop
  chainFirst : (items.take first.1).drop start = (Chain.cut op.precedence ((items.take stop).drop start)).first
  chainLinks : List.Forall₂ (Piece.IsOf items) (pieces stop (first :: others))
    (Chain.cut op.precedence ((items.take stop).drop start)).links

section Range

variable {items : List Item} {start stop : Nat}

theorem operatorsBelow_range_iff {bound : Nat} :
    OperatorsBelow bound ((items.take stop).drop start) ↔ PlacesBelow bound items start stop := by
  constructor
  · intro h place op hle hlt hitem
    exact h _ (mem_range_iff.2 ⟨place, hle, hlt, hitem⟩) op rfl
  · intro h item hmem op hop
    obtain rfl := Item.eq_of_operator? hop
    obtain ⟨place, hle, hlt, hitem⟩ := mem_range_iff.1 hmem
    exact h place op hle hlt hitem

/-! ### The operator that is kept -/

theorem weakestBetween_eq_ok_none_iff (hwithin : stop ≤ start ∨ stop ≤ items.length) :
    weakestBetween items start stop = .ok none ↔
      ∀ place op, start ≤ place → place < stop → items[place]? ≠ some (.token (.operator op)) := by
  rw [weakestBetween_eq_ok hwithin, Except.ok.injEq, Option.map_eq_none_iff, weakest?_eq_none_iff,
    operatorsBelow_range_iff]
  constructor
  · intro hnone place op hle hlt hitem
    have hbelow := hnone place op hle hlt hitem
    have hpos := op.precedence_pos
    omega
  · intro hnone place op hle hlt hitem
    exact absurd hitem (hnone place op hle hlt)

theorem exists_isWeakestAt {place : Nat} (h : weakestBetween items start stop = .ok (some place)) :
    ∃ op, IsWeakestAt items start stop place op := by
  obtain ⟨before, op, after, hrange, hbefore, hafter, hle, hlt, hitem, -, hdrop⟩ := exists_pieces_of_weakestBetween h
  refine ⟨op, hitem, hle, hlt, ?_, ?_⟩
  · rw [← operatorsBelow_range_iff, hrange]
    exact hbefore.append_cons hafter
  · rwa [← operatorsBelow_range_iff, hdrop]

theorem weakestBetween_eq_error_iff :
    weakestBetween items start stop = .error .outside ↔ start < stop ∧ items.length < stop := by
  constructor
  · intro herror
    by_contra hnot
    rw [weakestBetween_eq_ok (by omega)] at herror
    simp at herror
  · rintro ⟨hstart, hstop⟩
    exact weakestBetween_eq_error hstart hstop

end Range

/-! ### The places that are collected -/

section Places

variable {place : Nat} {links more : List (BinaryOp × List Item)}

theorem placesOf_append :
    placesOf place (links ++ more) =
      placesOf place links ++ placesOf (place + (Chain.mk [] links).items.length) more := by
  induction links generalizing place with
  | nil => simp [placesOf, Chain.items]
  | cons link links ih =>
    obtain ⟨op, operand⟩ := link
    rw [List.cons_append, placesOf, placesOf, ih, List.cons_append]
    simp [Chain.items, Nat.add_assoc, Nat.add_comm, Nat.add_left_comm]

theorem le_of_mem_placesOf {split : Nat × Operator} (h : split ∈ placesOf place links) : place ≤ split.1 := by
  induction links generalizing place with
  | nil => nomatch h
  | cons link links ih =>
    obtain ⟨op, operand⟩ := link
    rcases List.mem_cons.1 h with rfl | h
    · exact Nat.le_refl place
    · have hrest := ih h
      omega

theorem pairwise_placesOf : ((placesOf place links).map Prod.fst).Pairwise (· < ·) := by
  induction links generalizing place with
  | nil => exact .nil
  | cons link links ih =>
    obtain ⟨op, operand⟩ := link
    rw [placesOf, List.map_cons, List.pairwise_cons]
    refine ⟨?_, ih⟩
    intro other hother
    obtain ⟨split, hsplit, rfl⟩ := List.mem_map.1 hother
    have hle := le_of_mem_placesOf hsplit
    omega

theorem Chain.length_items (chain : Chain) :
    chain.items.length = chain.first.length + (Chain.mk [] chain.links).items.length := by
  simp [Chain.items]

end Places

section Range

variable {items before after : List Item} {start stop : Nat} {op : BinaryOp}

/-- The last place at which a range is cut is that of its weakest operator. -/
theorem splitPlaces_eq_append (hwithin : stop ≤ start ∨ stop ≤ items.length)
    (hrange : (items.take stop).drop start = before ++ .token (.operator (.binary op)) :: after)
    (hafter : OperatorsBelow op.precedence after) :
    splitPlaces items op.precedence start stop =
      .ok (placesOf (start + (Chain.cut op.precedence before).first.length) (Chain.cut op.precedence before).links ++
        [(start + before.length, .binary op)]) := by
  have hlength := (Chain.cut op.precedence before).length_items
  rw [Chain.items_cut] at hlength
  rw [splitPlaces_eq op (itemsBetween_eq_ok hwithin), hrange, Chain.cut_append_cons hafter, placesOf_append, hlength,
    Nat.add_assoc]
  rfl

theorem exists_isCutAt {place : Nat} (hwithin : stop ≤ start ∨ stop ≤ items.length)
    (h : weakestBetween items start stop = .ok (some place))
    (hitem : items[place]? = some (.token (.operator (.binary op)))) :
    ∃ first others, splitPlaces items op.precedence start stop = .ok (first :: others) ∧
      IsCutAt items start stop place op first others := by
  obtain ⟨before, after, hrange, hbefore, hafter, hle, hlt, htake, -⟩ := pieces_of_weakestBetween h hitem
  have hlength : start + before.length = place := by
    have hinner := congrArg List.length htake
    have hplace := (List.getElem?_eq_some_iff.1 hitem).1
    rw [List.length_drop, List.length_take] at hinner
    omega
  have hsplits := splitPlaces_eq_append hwithin hrange hafter
  have hplaces := splitPlaces_eq op (itemsBetween_eq_ok hwithin)
  cases hall : placesOf (start + (Chain.cut op.precedence before).first.length)
      (Chain.cut op.precedence before).links ++ [(start + before.length, .binary op)] with
  | nil => simp at hall
  | cons first others =>
    rw [hall] at hsplits
    have hcut := Except.ok.inj (hsplits.symm.trans hplaces)
    obtain ⟨hfirst, hpieces⟩ := pieces_of_splitPlaces hwithin hsplits
    obtain ⟨hbelowFirst, hbelowLinks⟩ := Chain.operatorsBelow_cut (hbefore.append_cons hafter)
    rw [← hrange] at hbelowFirst hbelowLinks
    refine ⟨first, others, hsplits, ?_, ?_, ?_, ?_, hfirst, hpieces⟩
    · rw [hcut]
      exact pairwise_placesOf
    · rw [← hall, List.getLast?_concat, hlength]
    · rwa [← operatorsBelow_range_iff, hfirst]
    · intro piece hpiece
      obtain ⟨link, hlink, hof⟩ := exists_link_of_mem hpieces hpiece
      rw [← operatorsBelow_range_iff, hof.operand_eq]
      exact hbelowLinks link hlink

end Range

/-- The scan for the weakest operator fails exactly where a range ends beyond the items. It finds nothing
exactly if there is no operator, and otherwise the last of the weakest ones. If that is a binary one, the
scan for its equals finds the places at which the range is cut, and the last of them is this one. -/
theorem weakestBetween_and_splitPlaces (items : List Item) (start stop : Nat) :
    weakestPlace items start stop = (weakestBetween items start stop).mapError .ofRange ∧
      (weakestBetween items start stop = .error .outside ↔ start < stop ∧ items.length < stop) ∧
      (¬ (start < stop ∧ items.length < stop) →
        ∃ found, weakestBetween items start stop = .ok found ∧
          (found = none ↔
            ∀ place op, start ≤ place → place < stop → items[place]? ≠ some (.token (.operator op))) ∧
          ∀ place, found = some place → ∃ op, IsWeakestAt items start stop place op ∧
            ∀ binary, op = .binary binary → ∃ first others,
              splitPlaces items binary.precedence start stop = .ok (first :: others) ∧
              IsCutAt items start stop place binary first others) := by
  refine ⟨weakestPlace_eq items start stop, weakestBetween_eq_error_iff, fun hinside => ?_⟩
  have hwithin : stop ≤ start ∨ stop ≤ items.length := by omega
  refine ⟨_, weakestBetween_eq_ok hwithin, ?_, fun place hplace => ?_⟩
  · rw [← weakestBetween_eq_ok_none_iff hwithin, weakestBetween_eq_ok hwithin, Except.ok.injEq]
  · have hfound : weakestBetween items start stop = .ok (some place) := by
      rw [weakestBetween_eq_ok hwithin, hplace]
    obtain ⟨op, hop⟩ := exists_isWeakestAt hfound
    refine ⟨op, hop, ?_⟩
    rintro binary rfl
    exact exists_isCutAt hwithin hfound hop.item

/-- From the asterisk on, these items are cut at the minus and at the plus. -/
example :
    let items : List Item := [.token (.variable "x"), .token (.operator (.binary .mul)), .token (.variable "y"),
      .token (.operator (.binary .sub)), .group [], .token (.operator (.binary .add)), .token (.operator .neg)]
    weakestBetween items 1 7 = .ok (some 5) ∧
      splitPlaces items 3 1 7 = .ok [(3, .binary .sub), (5, .binary .add)] := by
  exact ⟨rfl, rfl⟩

end Calculator
