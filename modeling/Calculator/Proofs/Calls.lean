import Mathlib.Logic.Relation
import Calculator.Proofs.Balance
import Calculator.Proofs.Signs

/-!
# The calls on the way to an expression

A call of the look-up leads to others (`Call.LeadsTo`). Whatever every plan passes on from a call to those
that it makes holds of all of them.

For the items of a text this is that signs are in place (`Call.OfText.of_mem_calls`). Hence a sign that is
the weakest operator of a range has nothing but signs in front of it, in every call that is made, and each
of the levels that such a call adds is one of these signs (`signsLead_of_leadsTo`).
-/

namespace Calculator

open Item

theorem Lexed.of_cut {range : List Item} (h : Lexed range) (precedence : Nat) :
    Lexed (Chain.cut precedence range).first ∧ ∀ link ∈ (Chain.cut precedence range).links, Lexed link.2 := by
  rw [← Chain.items_cut precedence range] at h
  generalize Chain.cut precedence range = chain at h
  obtain ⟨first, links⟩ := chain
  refine ⟨h.left, fun link hlink => ?_⟩
  obtain ⟨front, back, rfl⟩ := List.append_of_mem hlink
  have hlinks := h.right
  rw [List.flatMap_append, List.flatMap_cons] at hlinks
  exact hlinks.right.left.tail

namespace Call

/-- The range is one of the items of a text. -/
structure OfText (call : Call) : Prop where
  within : call.stop ≤ call.start ∨ call.stop ≤ call.items.length
  lexed : Lexed call.range

theorem OfText.of_mem_calls {call sub : Call} (h : call.OfText) (hsub : sub ∈ call.plan.calls) : sub.OfText where
  within := within_of_mem_calls h.within hsub
  lexed := by
    have hlexed := h.lexed
    cases makes_of_mem_calls hsub with
    | group hstop hitem =>
      rw [range, hstop, range_of_getElem? hitem] at hlexed
      rw [range_whole]
      exact hlexed.of_group
    | operand hplace hitem =>
      obtain ⟨before, after, hrange, -, -, -, -, -, hafter⟩ := pieces_of_weakestPlace hplace hitem
      rw [range, hrange] at hlexed
      rw [range, hafter]
      exact hlexed.right.tail
    | first _ _ hsplits =>
      rw [range, (pieces_of_splitPlaces h.within hsplits).1]
      exact (hlexed.of_cut _).1
    | piece _ _ hsplits hpiece =>
      obtain ⟨link, hlink, hof⟩ := exists_link_of_mem (pieces_of_splitPlaces h.within hsplits).2 hpiece
      rw [range, hof.operand_eq]
      exact (hlexed.of_cut _).2 link hlink

/-- One call leads to another by calls in between, or is the other. -/
def LeadsTo : Call → Call → Prop :=
  Relation.ReflTransGen fun call sub => sub ∈ call.plan.calls

theorem OfText.of_leadsTo {call last : Call} (h : call.OfText) (hlast : call.LeadsTo last) : last.OfText := by
  induction hlast with
  | refl => exact h
  | tail _ hsub ih => exact ih.of_mem_calls hsub

theorem OfText.of_lexed {items : List Item} (h : Lexed items) : (whole items).OfText := by
  refine ⟨.inr (Nat.le_refl _), ?_⟩
  rwa [range_whole]

/-- If the weakest operator is a sign, so is every item in front of it, and each of them adds one level to
the operand behind. -/
def SignsLead (call : Call) : Prop :=
  ∀ place, call.weakest = .ok (some place) → call.items[place]? = some (.token (.operator .neg)) →
    (∀ other, call.start ≤ other → other ≤ place → call.items[other]? = some (.token (.operator .neg))) ∧
      call.build = Expr.negTimes (place + 1 - call.start) <$> build ⟨call.items, place + 1, call.stop⟩

theorem OfText.eq_neg {call : Call} {place other : Nat} (h : call.OfText) (hplace : call.weakest = .ok (some place))
    (hneg : call.items[place]? = some (.token (.operator .neg))) (hstart : call.start ≤ other) (hle : other ≤ place) :
    call.items[other]? = some (.token (.operator .neg)) := by
  obtain ⟨before, after, hrange, hbefore, -, -, -, htake, -⟩ := pieces_of_weakestPlace hplace hneg
  have hlexed := h.lexed
  rw [range, hrange] at hlexed
  rcases Nat.eq_or_lt_of_le hle with rfl | hlt
  · exact hneg
  · have hlength := (List.getElem?_eq_some_iff.1 hneg).1
    have hfound := List.getElem?_eq_getElem (Nat.lt_trans hlt hlength)
    have hmem : call.items[other] ∈ before := by
      rw [← htake]
      exact mem_range_iff.2 ⟨other, hstart, hlt, hfound⟩
    rw [hfound, hlexed.eq_neg hbefore _ hmem]

theorem build_of_weakest_neg {call : Call} {place : Nat} (hplace : call.weakest = .ok (some place))
    (hneg : call.items[place]? = some (.token (.operator .neg))) :
    call.build = Expr.negTimes (place + 1 - call.start) <$> build ⟨call.items, place + 1, call.stop⟩ := by
  rw [build_eq_run, (HasPlan.signs hplace hneg).plan_eq]
  rfl

theorem OfText.signsLead {call : Call} (h : call.OfText) : call.SignsLead := by
  intro place hplace hneg
  refine ⟨fun other hstart hle => ?_, build_of_weakest_neg hplace hneg⟩
  exact h.eq_neg hplace hneg hstart hle

end Call

/-- Signs lead in every call that is made on the way to the expression of a text. -/
theorem signsLead_of_leadsTo {text : String} {tokens : List Token} (htokens : tokenize text = .ok tokens)
    (hmatched : ClosingsMatched text) :
    ∃ items expr, nest tokens = .ok items ∧ (Call.whole items).build = .ok expr ∧ parse text = .ok expr ∧
      ∀ call, (Call.whole items).LeadsTo call → call.SignsLead := by
  obtain ⟨items, hnest, hlexed, -⟩ := exists_lexed_of_tokenize htokens hmatched
  obtain ⟨expr, hexpr⟩ := Expr.exists_ofItems_eq_ok hlexed.nested
  refine ⟨items, expr, hnest, ?_, parse_eq_ok_of_nest htokens hnest hexpr, ?_⟩
  · show Expr.ofPlaces items 0 items.length = _
    rw [Expr.ofPlaces_whole, hexpr]
    rfl
  · intro call hcall
    exact ((Call.OfText.of_lexed hlexed).of_leadsTo hcall).signsLead

/-- Two signs in front of a bracket that has another one inside, all on the right of a product. -/
theorem signsLead_of_signs_in_product :
    tokenize "2*--(-x" = .ok [.number 2, .operator (.binary .mul), .operator .neg, .operator .neg,
        .bracket .opening, .operator .neg, .variable "x"] ∧
      ClosingsMatched "2*--(-x" ∧
      ∃ items expr, nest [.number 2, .operator (.binary .mul), .operator .neg, .operator .neg, .bracket .opening,
          .operator .neg, .variable "x"] = .ok items ∧
        (Call.whole items).build = .ok expr ∧ parse "2*--(-x" = .ok expr ∧
        ∀ call, (Call.whole items).LeadsTo call → call.SignsLead := by
  have htokens : tokenize "2*--(-x" = .ok [.number 2, .operator (.binary .mul), .operator .neg, .operator .neg,
      .bracket .opening, .operator .neg, .variable "x"] := by decide +kernel
  have hmatched : ClosingsMatched "2*--(-x" := by decide +kernel
  exact ⟨htokens, hmatched, signsLead_of_leadsTo htokens hmatched⟩

end Calculator
