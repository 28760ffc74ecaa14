import Calculator.Proofs.Plans

/-!
# How many calls are open at once

A call that looks up a range is open until the calls that it makes have come to their ends. The calls that
are open at the same time are made one by the other, and there are few of them however long the range is:
each one either enters a group or passes on a piece of its range in which all operators are stronger than
one that is left behind (`Call.exists_of_mem_calls`). With three precedences this can go on for four calls
until a group has to be entered, so four calls for each level of groups are enough (`Fits`).

`Call.buildWithin` is the look-up with a budget for the calls that are open. Where the range fits the
budget, it is the look-up without one (`Call.buildWithin_eq`).
-/

namespace Calculator

namespace Item

mutual
/-- How deep groups are nested in an item. -/
def depth : Item → Nat
  | token _ => 0
  | group items => depths items + 1

def depths : List Item → Nat
  | [] => 0
  | item :: rest => max item.depth (depths rest)
end

theorem depths_le_iff {items : List Item} {bound : Nat} :
    depths items ≤ bound ↔ ∀ item ∈ items, item.depth ≤ bound := by
  induction items with
  | nil => simp [depths]
  | cons item rest ih => rw [depths, Nat.max_le, ih, List.forall_mem_cons]

theorem depths_le_of_subset {part items : List Item} (h : part ⊆ items) : depths part ≤ depths items := by
  rw [depths_le_iff]
  intro item hitem
  exact depths_le_iff.1 (Nat.le_refl _) item (h hitem)

@[simp] theorem depths_singleton_group (items : List Item) : depths [group items] = depths items + 1 := by
  simp [depths, depth]

end Item

/-! ### A look-up with a budget -/

/-- Why a look-up with a budget finds nothing. -/
inductive BudgetError where
  /-- One more call would be open than the budget allows. -/
  | exhausted
  | place (error : PlaceError)

/-- The look-up of a range with a budget for the calls that are open at the same time. -/
def Call.buildWithin : Nat → Call → Except BudgetError Expr
  | 0, _ => .error .exhausted
  | budget + 1, call => call.plan.run .place (buildWithin budget)

namespace Call

/-! ### What a call passes on -/

/-- A call is made for the group of which the range consists, or for a piece of the range in which all
operators are stronger than one that is left behind. -/
theorem exists_of_mem_calls {call sub : Call} (h : sub ∈ call.plan.calls) :
    (∃ inner, call.range = [.group inner] ∧ sub.range = inner) ∨
      ∃ op, .token (.operator op) ∈ call.range ∧ sub.range ⊆ call.range ∧ OperatorsBelow op.precedence sub.range := by
  cases makes_of_mem_calls h with
  | @group inner hstop hitem =>
    refine .inl ⟨inner, ?_, range_whole inner⟩
    rw [range, hstop, range_of_getElem? hitem]
  | operand hplace hitem =>
    obtain ⟨before, after, hrange, -, hafter, -, -, -, hsub⟩ := pieces_of_weakestPlace hplace hitem
    rw [range, range, hrange, hsub]
    refine .inr ⟨.neg, by simp, ?_, hafter⟩
    exact fun item hmem => List.mem_append_right _ (List.mem_cons_of_mem _ hmem)
  | @first place op _ _ hplace hitem hsplits =>
    obtain ⟨hle, hlt⟩ := le_and_lt_of_weakestPlace hplace
    obtain ⟨hfirst, -⟩ := pieces_of_splitPlaces (within_of_weakestPlace hplace) hsplits
    refine .inr ⟨.binary op, mem_range_iff.2 ⟨place, hle, hlt, hitem⟩, ?_⟩
    rw [range, hfirst]
    exact ⟨Chain.first_cut_subset _ _, (operatorsBelow_cut_of_weakestPlace hplace hitem).1⟩
  | @piece place op _ _ _ hplace hitem hsplits hpiece =>
    obtain ⟨hle, hlt⟩ := le_and_lt_of_weakestPlace hplace
    obtain ⟨-, hlinks⟩ := pieces_of_splitPlaces (within_of_weakestPlace hplace) hsplits
    obtain ⟨link, hlink, hof⟩ := exists_link_of_mem hlinks hpiece
    refine .inr ⟨.binary op, mem_range_iff.2 ⟨place, hle, hlt, hitem⟩, ?_⟩
    rw [range, hof.operand_eq]
    exact ⟨Chain.subset_of_mem_links_cut hlink, (operatorsBelow_cut_of_weakestPlace hplace hitem).2 link hlink⟩

/-! ### How many calls a range needs -/

/-- A number of calls is enough for a range: four for each level of groups in it, and as many more as some
bound on the precedences of its operators outside groups. -/
def Fits (calls : Nat) (range : List Item) : Prop :=
  ∃ bound, 0 < bound ∧ OperatorsBelow bound range ∧ 4 * Item.depths range + bound ≤ calls

theorem fits_of_depths_le {range : List Item} {depth : Nat} (h : Item.depths range ≤ depth) :
    Fits (4 * (depth + 1)) range :=
  ⟨4, by omega, operatorsBelow_four range, by omega⟩

/-- What a call makes of its own number of calls is one more than what it leaves to the calls in it. -/
theorem Fits.of_mem_calls {call sub : Call} {calls : Nat} (h : Fits (calls + 1) call.range)
    (hsub : sub ∈ call.plan.calls) : Fits calls sub.range := by
  obtain ⟨bound, hpos, hbelow, hcalls⟩ := h
  rcases exists_of_mem_calls hsub with ⟨inner, hrange, hinner⟩ | ⟨op, hop, hsubset, hstronger⟩
  · rw [hrange, Item.depths_singleton_group] at hcalls
    rw [hinner]
    exact ⟨4, by omega, operatorsBelow_four inner, by omega⟩
  · have hlt : op.precedence < bound := hbelow _ hop op rfl
    have hdepths := Item.depths_le_of_subset hsubset
    exact ⟨op.precedence, op.precedence_pos, hstronger, by omega⟩

theorem buildWithin_eq {call : Call} {budget : Nat} (h : Fits budget call.range) :
    call.buildWithin budget = call.build.mapError .place := by
  induction budget generalizing call with
  | zero =>
    obtain ⟨bound, hpos, -, hcalls⟩ := h
    omega
  | succ budget ih =>
    rw [buildWithin, build_eq_run]
    exact Plan.run_mapError fun sub hsub => ih (h.of_mem_calls hsub)

/-- Calls of which each is made by the one before it, and which are open at the same time. -/
def Nested (calls : List Call) : Prop :=
  calls.IsChain fun call sub => sub ∈ call.plan.calls

theorem Nested.length_le {call : Call} {inner : List Call} {budget : Nat} (h : Nested (call :: inner))
    (hfits : Fits budget call.range) : (call :: inner).length ≤ budget := by
  induction inner generalizing call budget with
  | nil =>
    obtain ⟨bound, hpos, -, hcalls⟩ := hfits
    rw [List.length_singleton]
    omega
  | cons sub inner ih =>
    obtain ⟨hsub, hinner⟩ := List.isChain_cons_cons.1 h
    cases budget with
    | zero =>
      obtain ⟨bound, hpos, -, hcalls⟩ := hfits
      omega
    | succ budget => exact Nat.succ_le_succ (ih hinner (hfits.of_mem_calls hsub))

/-- Four calls for each level of groups, and four more, are all that are ever open at the same time, and
with a budget of as many the look-up finds what it finds without one. -/
theorem open_calls_le_and_buildWithin_eq {items : List Item} {start stop depth : Nat}
    (h : Item.depths items ≤ depth) :
    (∀ inner, Nested (⟨items, start, stop⟩ :: inner) →
        (Call.mk items start stop :: inner).length ≤ 4 * (depth + 1)) ∧
      buildWithin (4 * (depth + 1)) ⟨items, start, stop⟩ =
        (Expr.ofItemsBetween items start stop).mapError fun error => .place (.ofRange error) := by
  have hrange : range ⟨items, start, stop⟩ ⊆ items := by
    intro item hitem
    exact List.mem_of_mem_take (List.mem_of_mem_drop hitem)
  have hfits : Fits (4 * (depth + 1)) (range ⟨items, start, stop⟩) :=
    fits_of_depths_le (Nat.le_trans (Item.depths_le_of_subset hrange) h)
  refine ⟨fun inner hinner => hinner.length_le hfits, ?_⟩
  rw [buildWithin_eq hfits, build, Expr.ofPlaces_eq_ofItemsBetween]
  cases Expr.ofItemsBetween items start stop <;> rfl

/-- A product behind a difference, with a sign and a group as its right operand. -/
theorem open_calls_of_signed_group :
    let items : List Item := [.token (.variable "x"), .token (.operator (.binary .sub)), .token (.variable "y"),
      .token (.operator (.binary .mul)), .token (.operator .neg), .group [.token (.variable "z")]]
    Item.depths items ≤ 1 ∧
      (∀ inner, Nested (⟨items, 0, 6⟩ :: inner) → (Call.mk items 0 6 :: inner).length ≤ 8) ∧
      buildWithin 8 ⟨items, 0, 6⟩ = (Expr.ofItemsBetween items 0 6).mapError fun error => .place (.ofRange error) := by
  have hdepth : Item.depths [.token (.variable "x"), .token (.operator (.binary .sub)), .token (.variable "y"),
      .token (.operator (.binary .mul)), .token (.operator .neg), .group [.token (.variable "z")]] ≤ 1 := by decide
  exact ⟨hdepth, open_calls_le_and_buildWithin_eq hdepth⟩

/-- Without groups, four calls may be needed: one for the difference, one for the product, one for the
sign and one for the variable behind it. -/
example :
    let items : List Item := [.token (.variable "x"), .token (.operator (.binary .sub)), .token (.variable "y"),
      .token (.operator (.binary .mul)), .token (.operator .neg), .token (.variable "z")]
    [3, 4].map (buildWithin · ⟨items, 0, 6⟩) = [.error .exhausted,
      .ok (.binary .sub (.variable "x") (.binary .mul (.variable "y") (.neg (.variable "z"))))] := by
  rfl

end Call

end Calculator
