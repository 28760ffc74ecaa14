import Calculator.Range

/-!
# The operator at which a range is split

A range falls apart at its weakest operator. `weakest?_eq_some_iff` says which one that is: no operator
in front of it has a larger precedence, and every operator behind it has a smaller one. So the operator
is described by the two pieces that are left when it is taken out, and these are what the expression of
the range is made from.
-/

namespace Calculator

/-- Every operator of a range has a precedence below a bound. Operators inside groups do not count. -/
def OperatorsBelow (bound : Nat) (range : List Item) : Prop :=
  ∀ item ∈ range, ∀ op, item.operator? = some op → op.precedence < bound

@[simp] theorem operatorsBelow_nil (bound : Nat) : OperatorsBelow bound [] := by
  simp [OperatorsBelow]

@[simp] theorem operatorsBelow_cons {bound : Nat} {item : Item} {rest : List Item} :
    OperatorsBelow bound (item :: rest) ↔
      (∀ op, item.operator? = some op → op.precedence < bound) ∧ OperatorsBelow bound rest := by
  simp [OperatorsBelow]

@[simp] theorem operatorsBelow_append {bound : Nat} {left right : List Item} :
    OperatorsBelow bound (left ++ right) ↔ OperatorsBelow bound left ∧ OperatorsBelow bound right := by
  simp [OperatorsBelow, or_imp, forall_and]

theorem OperatorsBelow.mono {small large : Nat} {range : List Item} (h : OperatorsBelow small range)
    (hle : small ≤ large) : OperatorsBelow large range := by
  intro item hitem op hop
  have := h item hitem op hop
  omega

theorem Operator.precedence_pos (op : Operator) : 0 < op.precedence := by
  rcases op with _ | (_ | _ | _ | _) <;> decide

theorem Operator.precedence_le_three (op : Operator) : op.precedence ≤ 3 := by
  rcases op with _ | (_ | _ | _ | _) <;> decide

theorem Operator.eq_neg_of_precedence_lt {op : Operator} (h : op.precedence < 2) : op = .neg := by
  cases op with
  | neg => rfl
  | binary op =>
    have := op.one_lt_precedence
    rw [Operator.precedence] at h
    omega

theorem operatorsBelow_four (range : List Item) : OperatorsBelow 4 range := by
  intro item _ op _
  have := op.precedence_le_three
  omega

theorem OperatorsBelow.precedence_lt_of_weakest? {bound place : Nat} {range : List Item} {op : Operator}
    (h : OperatorsBelow bound range) (hweakest : weakest? range = some (place, op)) :
    op.precedence < bound :=
  h _ (List.mem_of_getElem? (getElem?_weakest? hweakest)) op rfl

/-- Precedences start at one: a range without operators is one whose operators are all below one. -/
theorem weakest?_eq_none_iff {range : List Item} : weakest? range = none ↔ OperatorsBelow 1 range := by
  fun_induction weakest? range with
  | case1 => simp
  | case2 item rest hrest hitem ih => simpa [hitem] using ih.1 hrest
  | case3 item rest place weakest hrest hitem ih =>
    have hnot : ¬ OperatorsBelow 1 rest := fun h => by simp [ih.2 h] at hrest
    simp [hnot]
  | case4 item rest op hrest hitem ih =>
    have := op.precedence_pos
    simp [hitem, Nat.ne_of_gt this]
  | case5 item rest op place weakest hrest hitem _ ih =>
    have := op.precedence_pos
    simp [hitem, Nat.ne_of_gt this]
  | case6 item rest op place weakest hrest hitem _ ih =>
    have := op.precedence_pos
    simp [hitem, Nat.ne_of_gt this]

/-- An operator that nothing in front exceeds and everything behind stays below is the weakest. -/
theorem weakest?_append_cons {before after : List Item} {op : Operator}
    (hbefore : OperatorsBelow (op.precedence + 1) before) (hafter : OperatorsBelow op.precedence after) :
    weakest? (before ++ .token (.operator op) :: after) = some (before.length, op) := by
  induction before with
  | nil =>
    rw [List.nil_append, weakest?]
    cases hrest : weakest? after with
    | none => rfl
    | some found =>
      have hlt := hafter.precedence_lt_of_weakest? hrest
      simp [Item.operator?, Nat.not_le.2 hlt]
  | cons item before ih =>
    rw [operatorsBelow_cons] at hbefore
    rw [List.cons_append, weakest?, ih hbefore.2]
    cases hitem : item.operator? with
    | none => rfl
    | some first =>
      have hle := Nat.le_of_lt_succ (hbefore.1 first hitem)
      simp [hle]

theorem weakest?_eq_some_iff {range : List Item} {place : Nat} {op : Operator} :
    weakest? range = some (place, op) ↔
      ∃ before after, range = before ++ .token (.operator op) :: after ∧ before.length = place ∧
        OperatorsBelow (op.precedence + 1) before ∧ OperatorsBelow op.precedence after := by
  constructor
  · intro h
    fun_induction weakest? range generalizing place op with
    | case1 => simp at h
    | case2 => simp at h
    | case3 item rest found weakest hrest hitem ih =>
      obtain ⟨rfl, rfl⟩ := Prod.mk.inj (Option.some.inj h)
      obtain ⟨before, after, rfl, rfl, hbefore, hafter⟩ := ih hrest
      exact ⟨item :: before, after, rfl, rfl, by simpa [hitem] using hbefore, hafter⟩
    | case4 item rest first hrest hitem =>
      obtain ⟨rfl, rfl⟩ := Prod.mk.inj (Option.some.inj h)
      obtain rfl := Item.eq_of_operator? hitem
      have hnone := weakest?_eq_none_iff.1 hrest
      exact ⟨[], rest, rfl, rfl, operatorsBelow_nil _, hnone.mono first.precedence_pos⟩
    | case5 item rest first found weakest hrest hitem hle ih =>
      obtain ⟨rfl, rfl⟩ := Prod.mk.inj (Option.some.inj h)
      obtain ⟨before, after, rfl, rfl, hbefore, hafter⟩ := ih hrest
      refine ⟨item :: before, after, rfl, rfl, ?_, hafter⟩
      simp only [operatorsBelow_cons, hitem, Option.some.injEq, forall_eq']
      exact ⟨Nat.lt_succ_of_le hle, hbefore⟩
    | case6 item rest first found weakest hrest hitem hlt ih =>
      obtain ⟨rfl, rfl⟩ := Prod.mk.inj (Option.some.inj h)
      obtain rfl := Item.eq_of_operator? hitem
      obtain ⟨before, after, rfl, -, hbefore, hafter⟩ := ih hrest
      -- The operator found behind is stronger than the first, and so are its neighbours on both sides.
      refine ⟨[], _, rfl, rfl, operatorsBelow_nil _, ?_⟩
      have hlt := Nat.lt_of_not_le hlt
      simp only [operatorsBelow_append, operatorsBelow_cons]
      refine ⟨hbefore.mono hlt, fun op hop => ?_, hafter.mono (Nat.le_of_lt hlt)⟩
      rw [← Option.some.inj hop]
      exact hlt
  · rintro ⟨before, after, rfl, rfl, hbefore, hafter⟩
    exact weakest?_append_cons hbefore hafter

theorem OperatorsBelow.append_cons {before after : List Item} {op : Operator}
    (hbefore : OperatorsBelow (op.precedence + 1) before) (hafter : OperatorsBelow op.precedence after) :
    OperatorsBelow (op.precedence + 1) (before ++ .token (.operator op) :: after) := by
  simp only [operatorsBelow_append, operatorsBelow_cons]
  refine ⟨hbefore, fun other hother => ?_, hafter.mono (Nat.le_succ _)⟩
  rw [← Option.some.inj hother]
  exact Nat.lt_succ_self _

theorem OperatorsBelow.neg_cons {rest : List Item} (h : OperatorsBelow 2 rest) :
    OperatorsBelow 2 (.token (.operator .neg) :: rest) := by
  refine operatorsBelow_cons.2 ⟨fun op hop => ?_, h⟩
  rw [← Option.some.inj hop]
  decide

theorem operatorsBelow_of_weakest? {range : List Item} {place : Nat} {op : Operator}
    (h : weakest? range = some (place, op)) : OperatorsBelow (op.precedence + 1) range := by
  obtain ⟨before, after, rfl, -, hbefore, hafter⟩ := weakest?_eq_some_iff.1 h
  exact hbefore.append_cons hafter

/-! ### Places in a list -/

theorem itemsBetween_eq_ok {items : List Item} {start stop : Nat} (h : stop ≤ start ∨ stop ≤ items.length) :
    itemsBetween items start stop = .ok ((items.take stop).drop start) := by
  unfold itemsBetween
  by_cases hstart : start < stop
  · rw [if_pos hstart, if_pos (h.resolve_left (Nat.not_le.2 hstart))]
  · have hlength : (items.take stop).length ≤ start := by
      rw [List.length_take]
      omega
    rw [if_neg hstart, List.drop_eq_nil_of_le hlength]

theorem itemsBetween_eq_error {items : List Item} {start stop : Nat} (hstart : start < stop)
    (hstop : items.length < stop) : itemsBetween items start stop = .error .outside := by
  rw [itemsBetween, if_pos hstart, if_neg (Nat.not_le.2 hstop)]

theorem weakestBetween_eq_ok {items : List Item} {start stop : Nat} (h : stop ≤ start ∨ stop ≤ items.length) :
    weakestBetween items start stop =
      .ok ((weakest? ((items.take stop).drop start)).map fun found => start + found.1) := by
  rw [weakestBetween, itemsBetween_eq_ok h]
  rfl

theorem weakestBetween_eq_error {items : List Item} {start stop : Nat} (hstart : start < stop)
    (hstop : items.length < stop) : weakestBetween items start stop = .error .outside := by
  rw [weakestBetween, itemsBetween_eq_error hstart hstop]
  rfl

theorem range_of_getElem? {items : List Item} {place : Nat} {item : Item} (h : items[place]? = some item) :
    (items.take (place + 1)).drop place = [item] := by
  obtain ⟨hlt, rfl⟩ := List.getElem?_eq_some_iff.1 h
  rw [List.drop_take, List.drop_eq_getElem_cons hlt, Nat.add_sub_cancel_left, List.take_succ_cons, List.take_zero]

theorem mem_range_iff {items : List Item} {start stop : Nat} {item : Item} :
    item ∈ (items.take stop).drop start ↔ ∃ place, start ≤ place ∧ place < stop ∧ items[place]? = some item := by
  constructor
  · intro hmem
    obtain ⟨index, hindex⟩ := List.mem_iff_getElem?.1 hmem
    rw [List.getElem?_drop, List.getElem?_take, Option.ite_none_right_eq_some] at hindex
    exact ⟨start + index, Nat.le_add_right _ _, hindex.1, hindex.2⟩
  · rintro ⟨place, hle, hlt, hitem⟩
    refine List.mem_of_getElem? (i := place - start) ?_
    rw [List.getElem?_drop, Nat.add_sub_cancel' hle, List.getElem?_take_of_lt hlt, hitem]

theorem pieces_of_range_eq {items before after : List Item} {item : Item} {start stop : Nat}
    (h : (items.take stop).drop start = before ++ item :: after) :
    start + before.length < stop ∧ items[start + before.length]? = some item ∧
      (items.take (start + before.length)).drop start = before ∧
      (items.take stop).drop (start + before.length + 1) = after := by
  have hlt : before.length < stop - start := by
    have hlength := congrArg List.length h
    simp only [List.length_drop, List.length_take, List.length_append, List.length_cons] at hlength
    omega
  have hitem := congrArg (fun range => range[before.length]?) h
  have hafter := congrArg (List.drop (before.length + 1)) h
  have hbefore := congrArg (List.take before.length) h
  refine ⟨by omega, ?_, ?_, ?_⟩
  · simpa [show start + before.length < stop by omega, List.getElem?_take] using hitem
  · simpa [List.drop_take, List.take_take, Nat.min_eq_left (Nat.le_of_lt hlt)] using hbefore
  · simpa [List.drop_drop, Nat.add_assoc] using hafter

theorem exists_pieces_of_weakestBetween {items : List Item} {start stop place : Nat}
    (h : weakestBetween items start stop = .ok (some place)) :
    ∃ before op after, (items.take stop).drop start = before ++ .token (.operator op) :: after ∧
      OperatorsBelow (op.precedence + 1) before ∧ OperatorsBelow op.precedence after ∧
      start ≤ place ∧ place < stop ∧ items[place]? = some (.token (.operator op)) ∧
      (items.take place).drop start = before ∧ (items.take stop).drop (place + 1) = after := by
  by_cases hrange : stop ≤ start ∨ stop ≤ items.length
  · rw [weakestBetween_eq_ok hrange] at h
    obtain ⟨⟨found, op⟩, hfound, rfl⟩ := Option.map_eq_some_iff.1 (Except.ok.inj h)
    obtain ⟨before, after, hrange, rfl, hbefore, hafter⟩ := weakest?_eq_some_iff.1 hfound
    have hpieces := pieces_of_range_eq hrange
    exact ⟨before, op, after, hrange, hbefore, hafter, Nat.le_add_right _ _, hpieces⟩
  · rw [weakestBetween_eq_error (by omega) (by omega)] at h
    nomatch h

theorem pieces_of_weakestBetween {items : List Item} {start stop place : Nat} {op : Operator}
    (h : weakestBetween items start stop = .ok (some place)) (hitem : items[place]? = some (.token (.operator op))) :
    ∃ before after, (items.take stop).drop start = before ++ .token (.operator op) :: after ∧
      OperatorsBelow (op.precedence + 1) before ∧ OperatorsBelow op.precedence after ∧ start ≤ place ∧ place < stop ∧
      (items.take place).drop start = before ∧ (items.take stop).drop (place + 1) = after := by
  obtain ⟨before, found, after, hrange, hbefore, hafter, hstart, hstop, hfound, htake, hdrop⟩ :=
    exists_pieces_of_weakestBetween h
  obtain rfl : found = op := by simpa [hitem] using hfound.symm
  exact ⟨before, after, hrange, hbefore, hafter, hstart, hstop, htake, hdrop⟩

theorem le_and_lt_of_weakestBetween {items : List Item} {start stop place : Nat}
    (h : weakestBetween items start stop = .ok (some place)) : start ≤ place ∧ place < stop := by
  obtain ⟨_, _, _, _, _, _, hstart, hstop, _⟩ := exists_pieces_of_weakestBetween h
  exact ⟨hstart, hstop⟩

end Calculator
