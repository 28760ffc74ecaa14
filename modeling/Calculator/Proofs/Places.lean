import Mathlib.Data.List.Forall2
import Calculator.Proofs.Except
import Calculator.Proofs.Split

/-!
# Ranges by their places

The expression of a range can be found by looking items up at their places: one scan of the range for
the place of its weakest operator, another one for the places at which a chain is split, and the pieces
are the places in between. Here every look-up may be outside the list, and every item that was looked up
may be of the wrong kind. `Expr.ofPlaces` says so at each step.

Only a range that ends beyond the items has places to which nothing belongs. In any other one the scans find
what can be told from its items: the weakest operator (`weakestPlace_eq`) and the chain into which the range
is cut (`pieces_of_splitPlaces`).
-/

namespace Calculator

/-- What can be wrong with the item at a place. -/
inductive PlaceError where
  /-- There is no item at the place. -/
  | outside
  /-- The only item of a range is no operand. -/
  | noOperand (item : Item)
  /-- The item at the place of the weakest operator is no operator. -/
  | noOperator (item : Item)
  /-- A chain is split at an operator that takes one operand. -/
  | noBinary (op : Operator)

def PlaceError.ofRange : RangeError → PlaceError
  | .outside => .outside
  | .strayBracket side => .noOperand (.token (.bracket side))

def itemAt (items : List Item) (place : Nat) : Except PlaceError Item :=
  match items[place]? with
  | some item => .ok item
  | none => .error .outside

theorem itemAt_eq_ok_iff {items : List Item} {place : Nat} {item : Item} :
    itemAt items place = .ok item ↔ items[place]? = some item := by
  unfold itemAt
  split <;> simp_all

section Scan

variable {σ : Type} (items : List Item) (step : σ → Nat → Item → σ)

/-- A look at a number of items from a place on, one after the other. -/
def scan (place : Nat) : Nat → σ → Except PlaceError σ
  | 0, state => .ok state
  | count + 1, state => do
    let item ← itemAt items place
    scan (place + 1) count (step state place item)

/-- The same steps over the items themselves, the first of which has the given place. -/
def walk (place : Nat) : List Item → σ → σ
  | [], state => state
  | item :: rest, state => walk (place + 1) rest (step state place item)

end Scan

/-- The greatest precedence so far and the place of its last operator. -/
def keepWeakest (best : Nat × Option Nat) (place : Nat) (item : Item) : Nat × Option Nat :=
  match item.operator? with
  | some op => if best.1 ≤ op.precedence then (op.precedence, some place) else best
  | none => best

def weakestPlace (items : List Item) (start stop : Nat) : Except PlaceError (Option Nat) :=
  Prod.snd <$> scan items keepWeakest start (stop - start) (0, none)

def addSplit (precedence : Nat) (splits : List (Nat × Operator)) (place : Nat) (item : Item) :
    List (Nat × Operator) :=
  match item.operator? with
  | some op => if op.precedence = precedence then splits ++ [(place, op)] else splits
  | none => splits

/-- The operators of one precedence with their places. -/
def splitPlaces (items : List Item) (precedence start stop : Nat) : Except PlaceError (List (Nat × Operator)) :=
  scan items (addSplit precedence) start (stop - start) []

/-- An operator of a chain and the places from which and to which its right operand goes. -/
structure Piece where
  op : Operator
  start : Nat
  stop : Nat

/-- The right operands go up to the next operator, the last one to the end of the range. -/
def pieces (stop : Nat) : List (Nat × Operator) → List Piece
  | [] => []
  | (place, op) :: splits => ⟨op, place + 1, splits.head?.elim stop Prod.fst⟩ :: pieces stop splits

/-! ### The places that are found are in the range -/

section Scan

variable {σ : Type} {items : List Item} {step : σ → Nat → Item → σ}

theorem scan_preserves {P : σ → Prop} {place count : Nat} {state result : σ} (hstate : P state)
    (hstep : ∀ state other item, place ≤ other → other < place + count → P state → P (step state other item))
    (h : scan items step place count state = .ok result) : P result := by
  induction count generalizing place state with
  | zero => exact Except.ok.inj h ▸ hstate
  | succ count ih =>
    rw [scan, bind_eq_ok_iff] at h
    obtain ⟨item, -, h⟩ := h
    refine ih (hstep state place item (Nat.le_refl _) (by omega) hstate) ?_ h
    intro state other item hle hlt
    exact hstep state other item (by omega) (by omega)

end Scan

theorem le_and_lt_of_weakestPlace {items : List Item} {start stop place : Nat}
    (h : weakestPlace items start stop = .ok (some place)) : start ≤ place ∧ place < stop := by
  obtain ⟨best, hbest, hplace⟩ := map_eq_ok_iff.1 h
  refine scan_preserves (P := fun best => ∀ place, best.2 = some place → start ≤ place ∧ place < stop)
    (by simp) ?_ hbest place hplace
  intro best other item hle hlt hbest place hplace
  unfold keepWeakest at hplace
  split at hplace
  · split at hplace
    · obtain rfl := Option.some.inj hplace
      omega
    · exact hbest place hplace
  · exact hbest place hplace

theorem le_and_lt_of_splitPlaces {items : List Item} {precedence start stop : Nat} {splits : List (Nat × Operator)}
    (h : splitPlaces items precedence start stop = .ok splits) :
    ∀ split ∈ splits, start ≤ split.1 ∧ split.1 < stop := by
  refine scan_preserves (P := fun splits => ∀ split ∈ splits, start ≤ split.1 ∧ split.1 < stop)
    (by simp) ?_ h
  intro splits other item hle hlt hsplits
  unfold addSplit
  split
  · split
    · intro split hsplit
      rcases List.mem_append.1 hsplit with hsplit | hsplit
      · exact hsplits split hsplit
      · obtain rfl := List.mem_singleton.1 hsplit
        exact ⟨hle, by omega⟩
    · exact hsplits
  · exact hsplits

theorem lt_and_le_of_mem_pieces {start stop : Nat} {splits : List (Nat × Operator)} {piece : Piece}
    (hsplits : ∀ split ∈ splits, start ≤ split.1 ∧ split.1 < stop) (hpiece : piece ∈ pieces stop splits) :
    start < piece.start ∧ piece.stop ≤ stop := by
  induction splits with
  | nil => nomatch hpiece
  | cons split splits ih =>
    obtain ⟨⟨hle, -⟩, hrest⟩ := List.forall_mem_cons.1 hsplits
    rcases List.mem_cons.1 hpiece with rfl | hpiece
    · refine ⟨Nat.lt_succ_of_le hle, ?_⟩
      cases splits with
      | nil => exact Nat.le_refl _
      | cons next splits => exact Nat.le_of_lt (hrest next List.mem_cons_self).2
    · exact ih hrest hpiece

namespace Expr

/-- One more operator of a chain, which has to be one with a right operand. What is wrong with an item
may be one error among others. -/
def addOperand {ε : Type} (wrong : PlaceError → ε) (left : Expr) (op : Operator) (right : Except ε Expr) :
    Except ε Expr :=
  match op with
  | .neg => .error (wrong (.noBinary .neg))
  | .binary op => binary op left <$> right

/-- The expression of the items between two places, with every place looked up. -/
def ofPlaces (items : List Item) (start stop : Nat) : Except PlaceError Expr :=
  match hplace : weakestPlace items start stop with
  | .error error => .error error
  | .ok none =>
    if stop = start + 1 then
      match hitem : itemAt items start with
      | .error error => .error error
      | .ok (.group inner) =>
        have := sizeOf_lt_of_getElem? (itemAt_eq_ok_iff.1 hitem)
        ofPlaces inner 0 inner.length
      | .ok (.token (.variable name)) => .ok (.variable name)
      | .ok (.token (.number value)) => .ok (.number value)
      | .ok item => .error (.noOperand item)
    else .ok .absent
  | .ok (some place) =>
    have := le_and_lt_of_weakestPlace hplace
    match itemAt items place with
    | .error error => .error error
    | .ok (.token (.operator .neg)) => negTimes (place + 1 - start) <$> ofPlaces items (place + 1) stop
    | .ok (.token (.operator (.binary op))) =>
      match hsplits : splitPlaces items op.precedence start stop with
      | .error error => .error error
      | .ok [] => .error .outside
      | .ok (split :: splits) => do
        have := le_and_lt_of_splitPlaces hsplits split List.mem_cons_self
        let first ← ofPlaces items start split.1
        (pieces stop (split :: splits)).attach.foldlM (fun left piece =>
          have := lt_and_le_of_mem_pieces (le_and_lt_of_splitPlaces hsplits) piece.2
          addOperand id left piece.1.op (ofPlaces items piece.1.start piece.1.stop)) first
    | .ok item => .error (.noOperator item)
termination_by (sizeOf items, stop - start)
decreasing_by
  · exact .left _ _ ‹_›
  all_goals exact .right _ (by omega)

end Expr

/-! ### What the scans find -/

section Scan

variable {σ : Type} {items : List Item} {step : σ → Nat → Item → σ}

theorem scan_eq_walk {place count : Nat} {state : σ} (h : count = 0 ∨ place + count ≤ items.length) :
    scan items step place count state = .ok (walk step place ((items.drop place).take count) state) := by
  induction count generalizing place state with
  | zero => rfl
  | succ count ih =>
    have hlt : place < items.length := by omega
    rw [scan, itemAt_eq_ok_iff.2 (List.getElem?_eq_getElem hlt), List.drop_eq_getElem_cons hlt, List.take_succ_cons, walk]
    exact ih (by omega)

theorem scan_eq_error {place count : Nat} {state : σ} (hcount : 0 < count) (h : items.length < place + count) :
    scan items step place count state = .error .outside := by
  induction count generalizing place state with
  | zero => nomatch hcount
  | succ count ih =>
    rw [scan]
    by_cases hlt : place < items.length
    · rw [itemAt_eq_ok_iff.2 (List.getElem?_eq_getElem hlt)]
      exact ih (by omega) (by omega)
    · rw [itemAt, List.getElem?_eq_none (Nat.le_of_not_lt hlt)]
      rfl

end Scan

theorem walk_keepWeakest (place : Nat) (range : List Item) (best : Nat × Option Nat) :
    walk keepWeakest place range best =
      match weakest? range with
      | none => best
      | some (found, op) => if best.1 ≤ op.precedence then (op.precedence, some (place + found)) else best := by
  fun_induction weakest? range generalizing place best with
  | case1 => rfl
  | case2 item rest hrest hitem ih => simp [walk, keepWeakest, hitem, hrest, ih]
  | case3 item rest found weakest hrest hitem ih =>
    simp [walk, keepWeakest, hitem, hrest, ih, Nat.add_assoc, Nat.add_comm 1]
  | case4 item rest op hrest hitem ih => simp [walk, keepWeakest, hitem, hrest, ih]
  | case5 item rest op found weakest hrest hitem hle ih =>
    rw [walk, ih, hrest, keepWeakest, hitem]
    grind
  | case6 item rest op found weakest hrest hitem hlt ih =>
    rw [walk, ih, hrest, keepWeakest, hitem]
    grind

/-- A scan of a range walks over its items, and only one that ends beyond the items goes wrong. -/
theorem scan_range {σ : Type} {step : σ → Nat → Item → σ} (items : List Item) (start stop : Nat) (state : σ) :
    scan items step start (stop - start) state =
      ((itemsBetween items start stop).mapError .ofRange).map (walk step start · state) := by
  by_cases hrange : stop ≤ start ∨ stop ≤ items.length
  · rw [scan_eq_walk (by omega), itemsBetween_eq_ok hrange, List.drop_take]
    rfl
  · rw [scan_eq_error (by omega) (by omega), itemsBetween_eq_error (by omega) (by omega)]
    rfl

theorem weakestPlace_eq (items : List Item) (start stop : Nat) :
    weakestPlace items start stop = (weakestBetween items start stop).mapError .ofRange := by
  rw [weakestPlace, scan_range, weakestBetween]
  cases itemsBetween items start stop with
  | error error => rfl
  | ok range =>
    show Except.ok (walk keepWeakest start range (0, none)).2 = Except.ok _
    rw [walk_keepWeakest]
    cases weakest? range with
    | none => rfl
    | some found => simp

theorem exists_pieces_of_weakestPlace {items : List Item} {start stop place : Nat}
    (h : weakestPlace items start stop = .ok (some place)) :
    ∃ before op after, (items.take stop).drop start = before ++ .token (.operator op) :: after ∧
      OperatorsBelow (op.precedence + 1) before ∧ OperatorsBelow op.precedence after ∧
      start ≤ place ∧ place < stop ∧ items[place]? = some (.token (.operator op)) ∧
      (items.take place).drop start = before ∧ (items.take stop).drop (place + 1) = after := by
  rw [weakestPlace_eq, mapError_eq_ok_iff] at h
  exact exists_pieces_of_weakestBetween h

theorem pieces_of_weakestPlace {items : List Item} {start stop place : Nat} {op : Operator}
    (h : weakestPlace items start stop = .ok (some place)) (hitem : items[place]? = some (.token (.operator op))) :
    ∃ before after, (items.take stop).drop start = before ++ .token (.operator op) :: after ∧
      OperatorsBelow (op.precedence + 1) before ∧ OperatorsBelow op.precedence after ∧ start ≤ place ∧ place < stop ∧
      (items.take place).drop start = before ∧ (items.take stop).drop (place + 1) = after := by
  rw [weakestPlace_eq, mapError_eq_ok_iff] at h
  exact pieces_of_weakestBetween h hitem

/-- The operators of the links of a chain, the first of which has the given place. -/
def placesOf (place : Nat) : List (BinaryOp × List Item) → List (Nat × Operator)
  | [] => []
  | (op, operand) :: links => (place, .binary op) :: placesOf (place + 1 + operand.length) links

theorem placesOf_eq_nil {place : Nat} {links : List (BinaryOp × List Item)} (h : placesOf place links = []) :
    links = [] := by
  cases links with
  | nil => rfl
  | cons link links => nomatch h

theorem walk_addSplit (op : BinaryOp) (place : Nat) (range : List Item) (splits : List (Nat × Operator)) :
    walk (addSplit op.precedence) place range splits =
      splits ++ placesOf (place + (Chain.cut op.precedence range).first.length) (Chain.cut op.precedence range).links := by
  fun_induction Chain.cut op.precedence range generalizing place splits with
  | case1 => simp [walk, placesOf]
  | case2 item rest other hitem ih =>
    obtain ⟨rfl, hother⟩ := Item.eq_of_binary? hitem
    simp [walk, addSplit, Item.operator?, Operator.precedence, hother, ih, Chain.link, placesOf]
  | case3 item rest hitem ih =>
    have hskip : addSplit op.precedence splits place item = splits := by
      unfold addSplit
      split
      · rename_i other hother
        obtain rfl := Item.eq_of_operator? hother
        rw [if_neg]
        intro hprecedence
        cases other with
        | neg => exact absurd hprecedence (Nat.ne_of_lt op.one_lt_precedence)
        | binary other =>
          rw [Operator.precedence] at hprecedence
          rw [Item.binary?, if_pos hprecedence] at hitem
          simp at hitem
      · rfl
    rw [walk, hskip, ih, Chain.cons, List.length_cons, Nat.add_assoc, Nat.add_comm 1]

theorem splitPlaces_eq {items range : List Item} {start stop : Nat} (op : BinaryOp)
    (h : itemsBetween items start stop = .ok range) :
    splitPlaces items op.precedence start stop =
      .ok (placesOf (start + (Chain.cut op.precedence range).first.length) (Chain.cut op.precedence range).links) := by
  rw [splitPlaces, scan_range, h]
  show Except.ok (walk (addSplit op.precedence) start range []) = Except.ok _
  rw [walk_addSplit, List.nil_append]

theorem range_take {items : List Item} {start stop count : Nat} (h : start + count ≤ stop) :
    (items.take (start + count)).drop start = ((items.take stop).drop start).take count := by
  rw [List.drop_take, List.drop_take, List.take_take, Nat.add_sub_cancel_left, Nat.min_eq_left (by omega)]

/-- A piece is the place of a link. -/
structure Piece.IsOf (items : List Item) (piece : Piece) (link : BinaryOp × List Item) : Prop where
  op_eq : piece.op = .binary link.1
  operand_eq : (items.take piece.stop).drop piece.start = link.2

theorem exists_link_of_mem {items : List Item} {pieces : List Piece} {links : List (BinaryOp × List Item)} {piece : Piece}
    (h : List.Forall₂ (Piece.IsOf items) pieces links) (hpiece : piece ∈ pieces) :
    ∃ link ∈ links, piece.IsOf items link := by
  induction h with
  | nil => nomatch hpiece
  | @cons first link rest links hfirst _ ih =>
    rcases List.mem_cons.1 hpiece with rfl | hpiece
    · exact ⟨link, List.mem_cons_self, hfirst⟩
    · obtain ⟨other, hother, hof⟩ := ih hpiece
      exact ⟨other, List.mem_cons_of_mem link hother, hof⟩

theorem forall₂_pieces {items : List Item} {stop place : Nat} {links : List (BinaryOp × List Item)}
    (h : (items.take stop).drop place = (Chain.mk [] links).items) :
    List.Forall₂ (Piece.IsOf items) (pieces stop (placesOf place links)) links := by
  induction links generalizing place with
  | nil => exact .nil
  | cons link links ih =>
    obtain ⟨op, operand⟩ := link
    have hrest : (items.take stop).drop (place + 1) = operand ++ (Chain.mk [] links).items := by
      rw [← List.drop_drop, h]
      rfl
    have hnext : (items.take stop).drop (place + 1 + operand.length) = (Chain.mk [] links).items := by
      rw [← List.drop_drop, hrest, List.drop_left]
    refine .cons ⟨rfl, ?_⟩ (ih hnext)
    cases links with
    | nil => simpa [placesOf, Chain.items] using hrest
    | cons next links =>
      have hlt : place + 1 + operand.length < stop := by
        have hlength := congrArg List.length hnext
        simp only [List.length_drop, List.length_take, Chain.items, List.nil_append, List.flatMap_cons, List.length_append,
          List.length_cons] at hlength
        omega
      show (items.take (place + 1 + operand.length)).drop (place + 1) = operand
      rw [range_take (Nat.le_of_lt hlt), hrest, List.take_left]

/-- The places of the splits and of the pieces are those of the chain into which the range is cut. -/
theorem pieces_of_splitPlaces {items : List Item} {start stop : Nat} {op : BinaryOp} {split : Nat × Operator}
    {splits : List (Nat × Operator)} (h : stop ≤ start ∨ stop ≤ items.length)
    (hsplits : splitPlaces items op.precedence start stop = .ok (split :: splits)) :
    (items.take split.1).drop start = (Chain.cut op.precedence ((items.take stop).drop start)).first ∧
      List.Forall₂ (Piece.IsOf items) (pieces stop (split :: splits))
        (Chain.cut op.precedence ((items.take stop).drop start)).links := by
  have hlt := (le_and_lt_of_splitPlaces hsplits split List.mem_cons_self).2
  have hitems := Chain.items_cut op.precedence ((items.take stop).drop start)
  rw [splitPlaces_eq op (itemsBetween_eq_ok h)] at hsplits
  generalize Chain.cut op.precedence ((items.take stop).drop start) = chain at hsplits hitems ⊢
  obtain ⟨first, links⟩ := chain
  have hplaces : placesOf (start + first.length) links = split :: splits := Except.ok.inj hsplits
  have hsplit : split.1 = start + first.length := by
    cases links with
    | nil => nomatch hplaces
    | cons link links => rw [← (List.cons.inj hplaces).1]
  have hdrop : (items.take stop).drop (start + first.length) = (Chain.mk [] links).items := by
    rw [← List.drop_drop, ← hitems]
    exact List.drop_left
  constructor
  · have hle : start + first.length ≤ stop := Nat.le_of_lt (hsplit ▸ hlt)
    rw [hsplit, range_take hle, ← hitems]
    exact List.take_left
  · rw [← hplaces]
    exact forall₂_pieces hdrop

theorem within_of_weakestPlace {items : List Item} {start stop : Nat} {found : Option Nat}
    (h : weakestPlace items start stop = .ok found) : stop ≤ start ∨ stop ≤ items.length := by
  by_contra hnot
  rw [weakestPlace_eq, mapError_eq_ok_iff, weakestBetween_eq_error (by omega) (by omega)] at h
  simp at h

theorem operatorsBelow_cut_of_weakestPlace {items : List Item} {start stop place : Nat} {op : BinaryOp}
    (hplace : weakestPlace items start stop = .ok (some place))
    (hitem : items[place]? = some (.token (.operator (.binary op)))) :
    OperatorsBelow op.precedence (Chain.cut op.precedence ((items.take stop).drop start)).first ∧
      ∀ link ∈ (Chain.cut op.precedence ((items.take stop).drop start)).links, OperatorsBelow op.precedence link.2 := by
  obtain ⟨before, after, hrange, hbefore, hafter, -⟩ := pieces_of_weakestPlace hplace hitem
  rw [hrange]
  exact Chain.operatorsBelow_cut (hbefore.append_cons hafter)

theorem exists_splitPlaces {items : List Item} {start stop place : Nat} {op : BinaryOp}
    (hplace : weakestPlace items start stop = .ok (some place))
    (hitem : items[place]? = some (.token (.operator (.binary op)))) :
    ∃ split splits, splitPlaces items op.precedence start stop = .ok (split :: splits) := by
  obtain ⟨before, after, hrange, -⟩ := pieces_of_weakestPlace hplace hitem
  have hmem : .token (.operator (.binary op)) ∈ (items.take stop).drop start := by simp [hrange]
  rw [splitPlaces_eq op (itemsBetween_eq_ok (within_of_weakestPlace hplace))]
  cases hplaces : placesOf _ (Chain.cut op.precedence ((items.take stop).drop start)).links with
  | nil => exact absurd (placesOf_eq_nil hplaces) (Chain.links_cut_ne_nil hmem)
  | cons split splits => exact ⟨split, splits, rfl⟩

end Calculator
