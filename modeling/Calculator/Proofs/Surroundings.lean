import Calculator.Proofs.Plans

/-!
# A range among other items

The places of a range change when something is put in front of it, and with them every place that the
look-up of its expression computes: where the scans begin, where the weakest operator stands, where a chain
is split and where its pieces begin and end. They all move by the same distance
(`Call.plan_among`), so the calls that are made are those that were made before, at other places, and what
they find is the same (`Call.build_among`). The items that stand around a range are never looked at.
-/

namespace Calculator

section Scan

variable {σ : Type} {step : σ → Nat → Item → σ} {move : σ → σ} {front items : List Item}

theorem getElem?_among (back : List Item) {place : Nat} (h : place < items.length) :
    (front ++ items ++ back)[front.length + place]? = items[place]? := by
  rw [List.append_assoc, List.getElem?_append_right (Nat.le_add_right _ _), Nat.add_sub_cancel_left,
    List.getElem?_append_left h]

theorem getElem?_among_of_eq_some (back : List Item) {place : Nat} {item : Item} (h : items[place]? = some item) :
    (front ++ items ++ back)[front.length + place]? = some item :=
  (getElem?_among back (List.getElem?_eq_some_iff.1 h).1).trans h

/-- A scan whose steps do not mind that places have moved does the same at the places where the items are
now. -/
theorem scan_among (back : List Item)
    (hstep : ∀ state place item, step (move state) (front.length + place) item = move (step state place item))
    {place count : Nat} (h : count = 0 ∨ place + count ≤ items.length) (state : σ) :
    scan (front ++ items ++ back) step (front.length + place) count (move state) =
      move <$> scan items step place count state := by
  induction count generalizing place state with
  | zero => rfl
  | succ count ih =>
    rw [scan, scan, itemAt, itemAt, getElem?_among back (by omega), ← itemAt]
    cases itemAt items place with
    | error error => rfl
    | ok item =>
      show scan (front ++ items ++ back) step (front.length + (place + 1)) count
        (step (move state) (front.length + place) item) = move <$> scan items step (place + 1) count _
      rw [hstep]
      exact ih (by omega) _

end Scan

section Places

/-- The greatest precedence so far and the place at which its last operator is now. -/
def moveBest (distance : Nat) (best : Nat × Option Nat) : Nat × Option Nat :=
  (best.1, best.2.map (distance + ·))

/-- A split at the place at which its operator is now. -/
def moveSplit (distance : Nat) (split : Nat × Operator) : Nat × Operator :=
  (distance + split.1, split.2)

theorem keepWeakest_moveBest (distance : Nat) (best : Nat × Option Nat) (place : Nat) (item : Item) :
    keepWeakest (moveBest distance best) (distance + place) item = moveBest distance (keepWeakest best place item) := by
  unfold keepWeakest
  split
  · rw [apply_ite (moveBest distance)]
    rfl
  · rfl

theorem addSplit_moveSplit (precedence distance : Nat) (splits : List (Nat × Operator)) (place : Nat) (item : Item) :
    addSplit precedence (splits.map (moveSplit distance)) (distance + place) item =
      (addSplit precedence splits place item).map (moveSplit distance) := by
  unfold addSplit
  split
  · split
    · rw [List.map_append]
      rfl
    · rfl
  · rfl

variable {front items : List Item} {start stop : Nat}

theorem weakestPlace_among (back : List Item) (h : stop ≤ items.length) :
    weakestPlace (front ++ items ++ back) (front.length + start) (front.length + stop) =
      Option.map (front.length + ·) <$> weakestPlace items start stop := by
  have hscan : scan (front ++ items ++ back) keepWeakest (front.length + start) (stop - start) (0, none) =
      moveBest front.length <$> scan items keepWeakest start (stop - start) (0, none) :=
    scan_among back (keepWeakest_moveBest front.length) (by omega) (0, none)
  rw [weakestPlace, weakestPlace, Nat.add_sub_add_left, hscan]
  cases scan items keepWeakest start (stop - start) (0, none) <;> rfl

theorem splitPlaces_among (back : List Item) (precedence : Nat) (h : stop ≤ items.length) :
    splitPlaces (front ++ items ++ back) precedence (front.length + start) (front.length + stop) =
      List.map (moveSplit front.length) <$> splitPlaces items precedence start stop := by
  rw [splitPlaces, splitPlaces, Nat.add_sub_add_left]
  exact scan_among back (addSplit_moveSplit precedence front.length) (by omega) []

theorem pieces_among (distance : Nat) (splits : List (Nat × Operator)) :
    pieces (distance + stop) (splits.map (moveSplit distance)) =
      (pieces stop splits).map fun piece => ⟨piece.op, distance + piece.start, distance + piece.stop⟩ := by
  induction splits with
  | nil => rfl
  | cons split splits ih =>
    rw [List.map_cons, pieces, pieces, List.map_cons, ih]
    cases splits <;> rfl

end Places

/-! ### Calls -/

/-- The call for the same range, when there are items in front of it and behind it. -/
def Call.among (front back : List Item) (call : Call) : Call :=
  ⟨front ++ call.items ++ back, front.length + call.start, front.length + call.stop⟩

/-- The same plan at the places where the items are now. The items of a group have not moved. -/
def Plan.among (front back : List Item) : Plan → Plan
  | fail error => fail error
  | leaf expr => leaf expr
  | group inner => group inner
  | signs count operand => signs count (operand.among front back)
  | chain first links => chain (first.among front back) (links.map fun link => (link.1, link.2.among front back))

theorem Plan.ofItem_among (front back : List Item) (item : Item) : (ofItem item).among front back = ofItem item := by
  rcases item with (name | value | op | side) | inner <;> rfl

theorem Plan.run_among {front back : List Item} {build : Call → Except PlaceError Expr} {plan : Plan}
    (h : ∀ sub ∈ plan.calls, build (sub.among front back) = build sub) :
    (plan.among front back).run id build = plan.run id build := by
  cases plan with
  | fail error => rfl
  | leaf expr => rfl
  | group inner => rfl
  | signs count operand => rw [among, run, run, h operand (List.mem_singleton_self operand)]
  | chain first links =>
    obtain ⟨hfirst, hlinks⟩ := List.forall_mem_cons.1 h
    rw [among, run, run, hfirst]
    refine congrArg _ (funext fun left => ?_)
    rw [List.foldlM_map]
    refine foldlM_congr (fun link hlink left => ?_) left
    rw [hlinks _ (List.mem_map_of_mem hlink)]

namespace Call

variable {call : Call} {front back : List Item}

theorem weakest_among (h : call.stop ≤ call.items.length) :
    (call.among front back).weakest = Option.map (front.length + ·) <$> call.weakest :=
  weakestPlace_among back h

theorem HasPlan.among {plan : Plan} (hplan : call.HasPlan plan) (h : call.stop ≤ call.items.length) :
    (call.among front back).HasPlan (plan.among front back) := by
  have hweakest : (call.among front back).weakest = _ := weakest_among h
  cases hplan with
  | outside hplace =>
    rw [hplace] at hweakest
    exact .outside hweakest
  | absent hplace hstop =>
    rw [hplace] at hweakest
    refine .absent hweakest ?_
    simp only [Call.among]
    omega
  | single hplace hstop hitem =>
    rw [hplace] at hweakest
    rw [Plan.ofItem_among]
    refine .single hweakest ?_ (getElem?_among_of_eq_some back hitem)
    simp only [Call.among]
    omega
  | @signs place hplace hitem =>
    rw [hplace] at hweakest
    have hsigns : front.length + place + 1 - (call.among front back).start = place + 1 - call.start := by
      simp only [Call.among]
      omega
    rw [Plan.among, ← hsigns]
    exact .signs hweakest (getElem?_among_of_eq_some back hitem)
  | @chain place op split splits hplace hitem hsplits =>
    rw [hplace] at hweakest
    have hmoved : splitPlaces (call.among front back).items op.precedence (call.among front back).start
        (call.among front back).stop = .ok ((split :: splits).map (moveSplit front.length)) := by
      refine (splitPlaces_among back op.precedence h).trans ?_
      rw [hsplits]
      rfl
    have hplan := HasPlan.chain hweakest (getElem?_among_of_eq_some back hitem) hmoved
    have hpieces : pieces (call.among front back).stop ((split :: splits).map (moveSplit front.length)) = _ :=
      pieces_among front.length (split :: splits)
    rw [List.map_cons] at hpieces
    rw [hpieces, List.map_map] at hplan
    rw [Plan.among, List.map_map]
    exact hplan

/-- A call for a range that has moved has the plan that it had before, at the places where the items are
now. -/
theorem plan_among (h : call.stop ≤ call.items.length) : (call.among front back).plan = call.plan.among front back :=
  (call.hasPlan_plan.among h).plan_eq

theorem build_among (h : call.stop ≤ call.items.length) : (call.among front back).build = call.build := by
  induction call using Call.induction with
  | h call ih =>
    rw [build_eq_run, plan_among h, build_eq_run call]
    refine Plan.run_among fun sub hsub => ih sub hsub ?_
    rcases smaller_of_mem_calls hsub with ⟨-, hinside⟩ | ⟨hitems, -, hstop⟩
    · exact hinside
    · rw [hitems]
      exact Nat.le_trans hstop h

end Call

/-- The expression of a range does not depend on the items in front of it and behind it. -/
theorem ofItemsBetween_among (front items back : List Item) :
    Expr.ofPlaces (front ++ items ++ back) front.length (front.length + items.length) =
        Expr.ofPlaces items 0 items.length ∧
      Expr.ofItemsBetween (front ++ items ++ back) front.length (front.length + items.length) =
        Expr.ofItemsBetween items 0 items.length := by
  have hplaces : ((Call.whole items).among front back).build = (Call.whole items).build :=
    Call.build_among (Nat.le_refl _)
  refine ⟨hplaces, ?_⟩
  have hrange : ((front ++ items ++ back).take (front.length + items.length)).drop front.length = items := by
    rw [List.append_assoc, List.take_length_add_append, List.drop_left, List.take_left]
  rw [Expr.ofItemsBetween, Expr.ofItemsBetween, itemsBetween_eq_ok (by simp), itemsBetween_eq_ok (by simp), hrange,
    List.take_length, List.drop_zero]

end Calculator
