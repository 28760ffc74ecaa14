import Calculator.Proofs.Places

/-!
# The look-up, one call at a time

The look-up of a range calls itself for the group that the range consists of, for what is behind a sign
and for the pieces of a chain. `Call.plan` says what one call does before it makes others, which others
it makes and what becomes of their results; the look-up is nothing but its plans (`Call.build_eq_run`).

Of the ways to go on that `Call.plan` provides for, only five are ever taken (`Call.HasPlan`). They tell what
was found before a call is made (`Call.Makes`), and as every call is made for less than the one that makes
it, there is an induction on calls (`Call.induction`). One step of this induction is `Call.run_plan_eq`: out
of the expressions of the ranges for which it makes calls, a plan makes the expression of its own range. So
the look-up finds the expression of a range (`Expr.ofPlaces_eq_ofItemsBetween`), which knows of two errors
only: the others cannot happen, whatever the items.
-/

namespace Calculator

/-- A range to be looked up: the places from which and to which it goes among the items. -/
structure Call where
  items : List Item
  start : Nat
  stop : Nat

/-- The call for all the items there are. -/
def Call.whole (items : List Item) : Call :=
  ⟨items, 0, items.length⟩

/-- What a call does once it has looked at its own range. -/
inductive Plan where
  | fail (error : PlaceError)
  | leaf (expr : Expr)
  /-- The expression of the items of a group. -/
  | group (inner : Call)
  /-- A number of signs in front of an operand. -/
  | signs (count : Nat) (operand : Call)
  /-- A first piece and the right operands of a chain. -/
  | chain (first : Call) (links : List (Operator × Call))

namespace Plan

/-- The plan for a range that is just this item. -/
def ofItem : Item → Plan
  | .group inner => group (.whole inner)
  | .token (.variable name) => leaf (.variable name)
  | .token (.number value) => leaf (.number value)
  | item => fail (.noOperand item)

/-- The calls that are made, in their order. -/
def calls : Plan → List Call
  | fail _ | leaf _ => []
  | group inner => [inner]
  | signs _ operand => [operand]
  | chain first links => first :: links.map Prod.snd

/-- What is done with the results of the calls. These may have other errors than items that are wrong. -/
def run {ε : Type} (wrong : PlaceError → ε) (build : Call → Except ε Expr) : Plan → Except ε Expr
  | fail error => .error (wrong error)
  | leaf expr => .ok expr
  | group inner => build inner
  | signs count operand => Expr.negTimes count <$> build operand
  | chain first links => do
    let first ← build first
    links.foldlM (fun left link => Expr.addOperand wrong left link.1 (build link.2)) first

theorem eq_group_of_mem_calls {item : Item} {sub : Call} (h : sub ∈ (ofItem item).calls) :
    ∃ inner, item = .group inner ∧ sub = .whole inner := by
  rcases item with (name | value | op | side) | inner
  · nomatch h
  · nomatch h
  · nomatch h
  · nomatch h
  · exact ⟨inner, rfl, List.mem_singleton.1 h⟩

section MapError

variable {ε : Type} {wrong : PlaceError → ε}

theorem addOperand_mapError (left : Expr) (op : Operator) (right : Except PlaceError Expr) :
    Expr.addOperand wrong left op (right.mapError wrong) = (Expr.addOperand id left op right).mapError wrong := by
  cases op with
  | neg => rfl
  | binary op => rw [Expr.addOperand, Expr.addOperand, mapError_map]

theorem foldlM_addOperand_mapError {build : Call → Except PlaceError Expr} {within : Call → Except ε Expr}
    {links : List (Operator × Call)} (h : ∀ call ∈ links.map Prod.snd, within call = (build call).mapError wrong)
    (left : Expr) :
    links.foldlM (fun left link => Expr.addOperand wrong left link.1 (within link.2)) left =
      (links.foldlM (fun left link => Expr.addOperand id left link.1 (build link.2)) left).mapError wrong := by
  induction links generalizing left with
  | nil => rfl
  | cons link links ih =>
    obtain ⟨hlink, hlinks⟩ := List.forall_mem_cons.1 h
    rw [List.foldlM_cons, List.foldlM_cons, mapError_bind, hlink, addOperand_mapError]
    exact congrArg _ (funext fun left => ih hlinks left)

/-- A plan does the same among other errors, if the calls in it do not have any of these. -/
theorem run_mapError {build : Call → Except PlaceError Expr} {within : Call → Except ε Expr} {plan : Plan}
    (h : ∀ call ∈ plan.calls, within call = (build call).mapError wrong) :
    plan.run wrong within = (plan.run id build).mapError wrong := by
  cases plan with
  | fail error => rfl
  | leaf expr => rfl
  | group inner => exact h inner (List.mem_singleton_self inner)
  | signs count operand =>
    rw [run, run, mapError_map, h operand (List.mem_singleton_self operand)]
  | chain first links =>
    obtain ⟨hfirst, hlinks⟩ := List.forall_mem_cons.1 h
    rw [run, run, mapError_bind, hfirst]
    exact congrArg _ (funext fun left => foldlM_addOperand_mapError hlinks left)

end MapError

end Plan

namespace Call

/-- The items from the first place to the last one. -/
def range (call : Call) : List Item :=
  (call.items.take call.stop).drop call.start

def build (call : Call) : Except PlaceError Expr :=
  Expr.ofPlaces call.items call.start call.stop

/-- The place of the weakest operator in the range. -/
def weakest (call : Call) : Except PlaceError (Option Nat) :=
  weakestPlace call.items call.start call.stop

def plan (call : Call) : Plan :=
  match call.weakest with
  | .error error => .fail error
  | .ok none =>
    if call.stop = call.start + 1 then
      match itemAt call.items call.start with
      | .error error => .fail error
      | .ok item => .ofItem item
    else .leaf .absent
  | .ok (some place) =>
    match itemAt call.items place with
    | .error error => .fail error
    | .ok (.token (.operator .neg)) => .signs (place + 1 - call.start) ⟨call.items, place + 1, call.stop⟩
    | .ok (.token (.operator (.binary op))) =>
      match splitPlaces call.items op.precedence call.start call.stop with
      | .error error => .fail error
      | .ok [] => .fail .outside
      | .ok (split :: splits) =>
        .chain ⟨call.items, call.start, split.1⟩ ((pieces call.stop (split :: splits)).map fun piece =>
          (piece.op, ⟨call.items, piece.start, piece.stop⟩))
    | .ok item => .fail (.noOperator item)

theorem range_whole (items : List Item) : (whole items).range = items := by
  rw [range, whole, List.take_length, List.drop_zero]

/-- A call does what its plan says, and nothing else. -/
theorem build_eq_run (call : Call) : call.build = call.plan.run id build := by
  obtain ⟨items, start, stop⟩ := call
  rw [build]
  dsimp only
  -- The cases are those of the look-up, in its order.
  fun_cases Expr.ofPlaces items start stop with
  | case1 error hplace => simp only [plan, weakest, hplace, Plan.run, id]
  | case2 hplace hstop error hitem => simp only [plan, weakest, hplace, if_pos hstop, hitem, Plan.run, id]
  | case3 hplace hstop inner hitem =>
    simp only [plan, weakest, hplace, if_pos hstop, hitem, Plan.ofItem, Plan.run, build, whole]
  | case4 hplace hstop name hitem => simp only [plan, weakest, hplace, if_pos hstop, hitem, Plan.ofItem, Plan.run]
  | case5 hplace hstop value hitem => simp only [plan, weakest, hplace, if_pos hstop, hitem, Plan.ofItem, Plan.run]
  | case6 hplace hstop item hgroup hname hnumber hitem =>
    simp only [plan, weakest, hplace, if_pos hstop, hitem]
    rcases item with (name | value | op | side) | inner
    · exact (hname name rfl).elim
    · exact (hnumber value rfl).elim
    · rfl
    · rfl
    · exact (hgroup inner rfl).elim
  | case7 hplace hstop => simp only [plan, weakest, hplace, if_neg hstop, Plan.run]
  | case8 place hplace _ error hitem => simp only [plan, weakest, hplace, hitem, Plan.run, id]
  | case9 place hplace _ hitem => simp only [plan, weakest, hplace, hitem, Plan.run, build]
  | case10 place hplace _ op hitem error hsplits =>
    simp only [plan, weakest, hplace, hitem, hsplits, Plan.run, id]
  | case11 place hplace _ op hitem hsplits => simp only [plan, weakest, hplace, hitem, hsplits, Plan.run, id]
  | case12 place hplace _ op hitem split splits hsplits =>
    simp only [plan, weakest, hplace, hitem, hsplits, Plan.run, build]
    have hattach := List.unattach_attach (l := pieces stop (split :: splits))
    refine congrArg _ (funext fun first => ?_)
    rw [List.foldlM_map]
    exact (List.foldlM_subtype fun _ _ _ => rfl).trans (by rw [hattach])
  | case13 place hplace _ item hneg hbinary hitem =>
    simp only [plan, weakest, hplace, hitem]
    rcases item with (name | value | (_ | op) | side) | inner
    · rfl
    · rfl
    · exact (hneg rfl).elim
    · exact (hbinary op rfl).elim
    · rfl
    · rfl

/-! ### The plans that there are -/

/-- What a call can find in its range, and its plan. -/
inductive HasPlan (call : Call) : Plan → Prop where
  | outside {error : PlaceError} (hplace : call.weakest = .error error) : HasPlan call (.fail error)
  | absent (hplace : call.weakest = .ok none) (hstop : call.stop ≠ call.start + 1) : HasPlan call (.leaf .absent)
  | single {item : Item} (hplace : call.weakest = .ok none) (hstop : call.stop = call.start + 1)
      (hitem : call.items[call.start]? = some item) : HasPlan call (.ofItem item)
  | signs {place : Nat} (hplace : call.weakest = .ok (some place))
      (hitem : call.items[place]? = some (.token (.operator .neg))) :
      HasPlan call (.signs (place + 1 - call.start) ⟨call.items, place + 1, call.stop⟩)
  | chain {place : Nat} {op : BinaryOp} {split : Nat × Operator} {splits : List (Nat × Operator)}
      (hplace : call.weakest = .ok (some place)) (hitem : call.items[place]? = some (.token (.operator (.binary op))))
      (hsplits : splitPlaces call.items op.precedence call.start call.stop = .ok (split :: splits)) :
      HasPlan call (.chain ⟨call.items, call.start, split.1⟩ ((pieces call.stop (split :: splits)).map fun piece =>
        (piece.op, ⟨call.items, piece.start, piece.stop⟩)))

theorem HasPlan.plan_eq {call : Call} {plan : Plan} (h : call.HasPlan plan) : call.plan = plan := by
  cases h with
  | outside hplace => rw [Call.plan, hplace]
  | absent hplace hstop =>
    rw [Call.plan, hplace]
    exact if_neg hstop
  | single hplace hstop hitem =>
    rw [Call.plan, hplace]
    dsimp only
    rw [if_pos hstop, itemAt_eq_ok_iff.2 hitem]
  | signs hplace hitem =>
    rw [Call.plan, hplace]
    dsimp only
    rw [itemAt_eq_ok_iff.2 hitem]
  | chain hplace hitem hsplits =>
    rw [Call.plan, hplace]
    dsimp only
    rw [itemAt_eq_ok_iff.2 hitem]
    dsimp only
    rw [hsplits]

/-- No look-up of an item fails, and none finds an item of the wrong kind. -/
theorem hasPlan_plan (call : Call) : call.HasPlan call.plan := by
  suffices hfound : ∃ plan, call.HasPlan plan by
    obtain ⟨plan, hplan⟩ := hfound
    rwa [hplan.plan_eq]
  cases hplace : call.weakest with
  | error error => exact ⟨_, .outside hplace⟩
  | ok found =>
    cases found with
    | none =>
      by_cases hstop : call.stop = call.start + 1
      · have hwithin := within_of_weakestPlace hplace
        have hlt : call.start < call.items.length := by omega
        exact ⟨_, .single hplace hstop (List.getElem?_eq_getElem hlt)⟩
      · exact ⟨_, .absent hplace hstop⟩
    | some place =>
      obtain ⟨_, op, _, _, _, _, _, _, hitem, _⟩ := exists_pieces_of_weakestPlace hplace
      cases op with
      | neg => exact ⟨_, .signs hplace hitem⟩
      | binary op =>
        obtain ⟨split, splits, hsplits⟩ := exists_splitPlaces hplace hitem
        exact ⟨_, .chain hplace hitem hsplits⟩

/-! ### The calls of a plan -/

/-- The calls that a call makes, each with what was found before it is made. -/
inductive Makes (call : Call) : Call → Prop where
  | group {inner : List Item} (hstop : call.stop = call.start + 1)
      (hitem : call.items[call.start]? = some (.group inner)) : Makes call (whole inner)
  | operand {place : Nat} (hplace : call.weakest = .ok (some place))
      (hitem : call.items[place]? = some (.token (.operator .neg))) :
      Makes call ⟨call.items, place + 1, call.stop⟩
  | first {place : Nat} {op : BinaryOp} {split : Nat × Operator} {splits : List (Nat × Operator)}
      (hplace : call.weakest = .ok (some place)) (hitem : call.items[place]? = some (.token (.operator (.binary op))))
      (hsplits : splitPlaces call.items op.precedence call.start call.stop = .ok (split :: splits)) :
      Makes call ⟨call.items, call.start, split.1⟩
  | piece {place : Nat} {op : BinaryOp} {split : Nat × Operator} {splits : List (Nat × Operator)} {piece : Piece}
      (hplace : call.weakest = .ok (some place)) (hitem : call.items[place]? = some (.token (.operator (.binary op))))
      (hsplits : splitPlaces call.items op.precedence call.start call.stop = .ok (split :: splits))
      (hpiece : piece ∈ pieces call.stop (split :: splits)) :
      Makes call ⟨call.items, piece.start, piece.stop⟩

variable {call sub : Call}

theorem makes_of_mem_calls (h : sub ∈ call.plan.calls) : call.Makes sub := by
  have hplan := call.hasPlan_plan
  generalize call.plan = plan at h hplan
  cases hplan with
  | outside hplace => nomatch h
  | absent hplace hstop => nomatch h
  | single hplace hstop hitem =>
    obtain ⟨inner, rfl, rfl⟩ := Plan.eq_group_of_mem_calls h
    exact .group hstop hitem
  | signs hplace hitem =>
    rw [List.mem_singleton.1 h]
    exact .operand hplace hitem
  | chain hplace hitem hsplits =>
    rcases List.mem_cons.1 h with rfl | hlink
    · exact .first hplace hitem hsplits
    · simp only [List.map_map, List.mem_map] at hlink
      obtain ⟨piece, hpiece, rfl⟩ := hlink
      exact .piece hplace hitem hsplits hpiece

theorem smaller_of_mem_calls (h : sub ∈ call.plan.calls) :
    (sizeOf sub.items < sizeOf call.items ∧ sub.stop ≤ sub.items.length) ∨
      sub.items = call.items ∧ sub.stop - sub.start < call.stop - call.start ∧ sub.stop ≤ call.stop := by
  cases makes_of_mem_calls h with
  | group _ hitem => exact .inl ⟨sizeOf_lt_of_getElem? hitem, Nat.le_refl _⟩
  | operand hplace _ =>
    obtain ⟨hle, hlt⟩ := le_and_lt_of_weakestPlace hplace
    exact .inr ⟨rfl, by dsimp only; omega, Nat.le_refl _⟩
  | first _ _ hsplits =>
    obtain ⟨hle, hlt⟩ := le_and_lt_of_splitPlaces hsplits _ List.mem_cons_self
    exact .inr ⟨rfl, by dsimp only; omega, Nat.le_of_lt hlt⟩
  | piece _ _ hsplits hpiece =>
    have hin := le_and_lt_of_splitPlaces hsplits
    obtain ⟨hle, hlt⟩ := hin _ List.mem_cons_self
    obtain ⟨hstart, hstop⟩ := lt_and_le_of_mem_pieces hin hpiece
    exact .inr ⟨rfl, by dsimp only; omega, hstop⟩

theorem induction {motive : Call → Prop} (h : ∀ call, (∀ sub ∈ call.plan.calls, motive sub) → motive call)
    (call : Call) : motive call :=
  h call fun sub _ => induction h sub
termination_by (sizeOf call.items, call.stop - call.start)
decreasing_by
  rcases smaller_of_mem_calls ‹_› with ⟨hsize, -⟩ | ⟨hitems, hlength, -⟩
  · exact .left _ _ hsize
  · rw [hitems]
    exact .right _ hlength

/-! ### The expression that is found -/

section Found

variable {build : Call → Except PlaceError Expr}

theorem weakest?_range_of_none (hplace : call.weakest = .ok none) : weakest? call.range = none := by
  have hwithin := within_of_weakestPlace hplace
  rw [weakest, weakestPlace_eq, weakestBetween_eq_ok hwithin] at hplace
  exact Option.map_eq_none_iff.1 (Except.ok.inj hplace)

theorem run_ofItem {item : Item} (hplace : call.weakest = .ok none) (hstop : call.stop = call.start + 1)
    (hitem : call.items[call.start]? = some item)
    (h : ∀ sub ∈ (Plan.ofItem item).calls, build sub = (Expr.ofItems sub.range).mapError .ofRange) :
    (Plan.ofItem item).run id build = (Expr.ofItems call.range).mapError .ofRange := by
  have hnone := weakest?_range_of_none hplace
  have hrange : call.range = [item] := by rw [range, hstop, range_of_getElem? hitem]
  rw [hrange] at hnone ⊢
  rcases item with (name | value | op | side) | inner
  · rw [Expr.ofItems_variable]
    rfl
  · rw [Expr.ofItems_number]
    rfl
  · nomatch hnone
  · rw [Expr.ofItems_bracket]
    rfl
  · rw [Expr.ofItems_group, Plan.ofItem, Plan.run, h _ (List.mem_singleton_self _), range_whole]

theorem ofItems_range_of_neg {place : Nat} (hplace : call.weakest = .ok (some place))
    (hitem : call.items[place]? = some (.token (.operator .neg))) :
    Expr.ofItems call.range =
      Expr.negTimes (place + 1 - call.start) <$> Expr.ofItems (range ⟨call.items, place + 1, call.stop⟩) := by
  obtain ⟨before, after, hrange, hbefore, hafter, hstart, hstop, htake, hdrop⟩ := pieces_of_weakestPlace hplace hitem
  have hweakest := weakest?_append_cons hbefore hafter
  have hsigns : place + 1 - call.start = before.length + 1 := by
    have hlength := (List.getElem?_eq_some_iff.1 hitem).1
    rw [← htake, List.length_drop, List.length_take]
    omega
  rw [range, range, hdrop, hrange, Expr.ofItems_of_weakest?_eq_neg hweakest, hsigns, List.append_cons,
    List.drop_left' (by simp)]

theorem foldlM_pieces {items : List Item} {build : Call → Except PlaceError Expr} {found : List Piece}
    {links : List (BinaryOp × List Item)} (hlinks : List.Forall₂ (Piece.IsOf items) found links)
    (hfound : ∀ piece ∈ found, build ⟨items, piece.start, piece.stop⟩ =
      (Expr.ofItems ((items.take piece.stop).drop piece.start)).mapError .ofRange) (left : Expr) :
    found.foldlM (fun left piece => Expr.addOperand id left piece.op (build ⟨items, piece.start, piece.stop⟩)) left =
      (links.foldlM (fun left (link : BinaryOp × List Item) =>
        return Expr.binary link.1 left (← Expr.ofItems link.2)) left).mapError .ofRange := by
  induction hlinks generalizing left with
  | nil => rfl
  | @cons piece link found links hpiece _ ih =>
    obtain ⟨hfirst, hrest⟩ := List.forall_mem_cons.1 hfound
    rw [List.foldlM_cons, List.foldlM_cons, hpiece.op_eq, hfirst, hpiece.operand_eq, mapError_bind]
    cases Expr.ofItems link.2 with
    | error error => rfl
    | ok right => exact ih hrest (.binary link.1 left right)

theorem run_chain {place : Nat} {op : BinaryOp} {split : Nat × Operator} {splits : List (Nat × Operator)}
    (hplace : call.weakest = .ok (some place)) (hitem : call.items[place]? = some (.token (.operator (.binary op))))
    (hsplits : splitPlaces call.items op.precedence call.start call.stop = .ok (split :: splits))
    (hfirst : build ⟨call.items, call.start, split.1⟩ =
      (Expr.ofItems (range ⟨call.items, call.start, split.1⟩)).mapError .ofRange)
    (hpieces : ∀ piece ∈ pieces call.stop (split :: splits), build ⟨call.items, piece.start, piece.stop⟩ =
      (Expr.ofItems (range ⟨call.items, piece.start, piece.stop⟩)).mapError .ofRange) :
    (Plan.chain ⟨call.items, call.start, split.1⟩ ((pieces call.stop (split :: splits)).map fun piece =>
      (piece.op, ⟨call.items, piece.start, piece.stop⟩))).run id build =
        (Expr.ofItems call.range).mapError .ofRange := by
  obtain ⟨hcutFirst, hlinks⟩ := pieces_of_splitPlaces (within_of_weakestPlace hplace) hsplits
  obtain ⟨before, after, hrange, hbefore, hafter, -⟩ := pieces_of_weakestPlace hplace hitem
  have hweakest : weakest? call.range = some (before.length, .binary op) := by
    rw [range, hrange]
    exact weakest?_append_cons hbefore hafter
  rw [Plan.run, Expr.ofItems_of_weakest?_eq_binary hweakest, hfirst, range, hcutFirst, mapError_bind]
  refine congrArg _ (funext fun left => ?_)
  rw [List.foldlM_map]
  exact foldlM_pieces hlinks hpieces left

/-- One step of the look-up: from the expressions of the ranges that it calls for, a plan makes the
expression of its own range. -/
theorem run_plan_eq (hwithin : call.stop ≤ call.start ∨ call.stop ≤ call.items.length)
    (h : ∀ sub ∈ call.plan.calls, build sub = (Expr.ofItems sub.range).mapError .ofRange) :
    call.plan.run id build = (Expr.ofItems call.range).mapError .ofRange := by
  have hplan := call.hasPlan_plan
  generalize call.plan = plan at h hplan ⊢
  cases hplan with
  | outside hplace =>
    rw [weakest, weakestPlace_eq, weakestBetween_eq_ok hwithin] at hplace
    nomatch hplace
  | absent hplace hstop =>
    have hlength : call.range.length ≠ 1 := by
      rw [range, List.length_drop, List.length_take]
      omega
    rw [Expr.ofItems_of_length_ne_one (weakest?_range_of_none hplace) hlength]
    rfl
  | single hplace hstop hitem => exact run_ofItem hplace hstop hitem h
  | signs hplace hitem =>
    rw [Plan.run, h _ (List.mem_singleton_self _), ofItems_range_of_neg hplace hitem, mapError_map]
  | chain hplace hitem hsplits =>
    obtain ⟨hfirst, hlinks⟩ := List.forall_mem_cons.1 h
    refine run_chain hplace hitem hsplits hfirst fun piece hpiece => ?_
    exact hlinks _ (List.mem_map_of_mem (List.mem_map_of_mem hpiece))

end Found

theorem within_of_mem_calls (hwithin : call.stop ≤ call.start ∨ call.stop ≤ call.items.length)
    (h : sub ∈ call.plan.calls) : sub.stop ≤ sub.start ∨ sub.stop ≤ sub.items.length := by
  rcases smaller_of_mem_calls h with ⟨-, hinside⟩ | ⟨hitems, hlength, hstop⟩
  · exact .inr hinside
  · rw [hitems]
    omega

theorem build_eq_ofItems (h : call.stop ≤ call.start ∨ call.stop ≤ call.items.length) :
    call.build = (Expr.ofItems call.range).mapError .ofRange := by
  induction call using Call.induction with
  | h call ih =>
    rw [build_eq_run]
    exact run_plan_eq h fun sub hsub => ih sub hsub (within_of_mem_calls h hsub)

end Call

theorem Expr.ofPlaces_whole (items : List Item) :
    ofPlaces items 0 items.length = (ofItems items).mapError .ofRange := by
  have hbuild : Call.build (.whole items) = _ := Call.build_eq_ofItems (.inr (Nat.le_refl _))
  rwa [Call.range_whole] at hbuild

/-- The look-up goes wrong only where the expression of the range does, and for the same reason. -/
theorem Expr.ofPlaces_eq_ofItemsBetween (items : List Item) (start stop : Nat) :
    ofPlaces items start stop = (ofItemsBetween items start stop).mapError .ofRange := by
  by_cases hwithin : stop ≤ start ∨ stop ≤ items.length
  · have hbuild : Call.build ⟨items, start, stop⟩ = _ := Call.build_eq_ofItems hwithin
    rw [ofItemsBetween, itemsBetween_eq_ok hwithin]
    exact hbuild
  · have hplace : Call.weakest ⟨items, start, stop⟩ = .error .outside := by
      refine (weakestPlace_eq items start stop).trans ?_
      rw [weakestBetween_eq_error (by omega) (by omega)]
      rfl
    have hbuild := Call.build_eq_run ⟨items, start, stop⟩
    rw [(Call.HasPlan.outside hplace).plan_eq] at hbuild
    rw [ofItemsBetween, itemsBetween_eq_error (by omega) (by omega)]
    exact hbuild

end Calculator
