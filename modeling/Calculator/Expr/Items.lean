import Calculator.Expr
import Calculator.Range

/-!
# The expression of a range of items

A range is split at its weakest operator. A binary one takes all its equals with it: they are folded
into a left spine, so `a - b - c` is `(a - b) - c`. A sign can only be weakest among signs, and each of
the items up to it adds one. Without an operator, a single item is a leaf or the group whose items are
the expression, and anything else is absent. Nothing is rejected, but a bracket that was not nested
before has no meaning as an operand.

The recursion is on the size of the range, with everything inside its groups counted: the pieces of a
chain, what follows a sign and the items of a group are all smaller. Each of the three cases has an
equation of its own, which is what other proofs should use.
-/

namespace Calculator

private theorem sizeOf_drop_succ_lt {items : List Item} {place : Nat} (h : place < items.length) :
    sizeOf (items.drop (place + 1)) < sizeOf items := by
  induction items generalizing place with
  | nil => nomatch h
  | cons item rest ih =>
    rw [List.drop_succ_cons, List.cons.sizeOf_spec]
    cases place with
    | zero => rw [List.drop_zero]; omega
    | succ place =>
      have := ih (Nat.lt_of_succ_lt_succ h)
      omega

namespace Expr

def ofItems (items : List Item) : Except RangeError Expr :=
  match hweakest : weakest? items with
  | none =>
    match items with
    | [.token (.number value)] => .ok (.number value)
    | [.token (.variable name)] => .ok (.variable name)
    | [.token (.bracket side)] => .error (.strayBracket side)
    | [.group inner] => ofItems inner
    | _ => .ok .absent
  | some (place, .neg) => do
    let operand ← ofItems (items.drop (place + 1))
    return negTimes (place + 1) operand
  | some (_, .binary op) => do
    let chain := Chain.cut op.precedence items
    let first ← ofItems chain.first
    chain.links.attach.foldlM (fun left link => return binary link.1.1 left (← ofItems link.1.2)) first
termination_by sizeOf items
decreasing_by
  · simp +arith
  · exact sizeOf_drop_succ_lt (List.getElem?_eq_some_iff.1 (getElem?_weakest? hweakest)).1
  · exact Chain.sizeOf_first_cut_lt (Chain.links_cut_ne_nil (List.mem_of_getElem? (getElem?_weakest? hweakest)))
  · exact Chain.sizeOf_lt_of_mem_links_cut link.2

theorem ofItems_of_weakest?_eq_none {items : List Item} (h : weakest? items = none) :
    ofItems items =
      match items with
      | [.token (.number value)] => .ok (.number value)
      | [.token (.variable name)] => .ok (.variable name)
      | [.token (.bracket side)] => .error (.strayBracket side)
      | [.group inner] => ofItems inner
      | _ => .ok .absent := by
  rw [ofItems]
  split
  · rfl
  all_goals
    rename_i hsome
    rw [h] at hsome
    nomatch hsome

theorem ofItems_of_weakest?_eq_neg {items : List Item} {place : Nat}
    (h : weakest? items = some (place, .neg)) :
    ofItems items = negTimes (place + 1) <$> ofItems (items.drop (place + 1)) := by
  rw [ofItems]
  split <;> rename_i hsome <;> rw [h] at hsome
  · nomatch hsome
  · obtain ⟨rfl, -⟩ := Prod.mk.inj (Option.some.inj hsome)
    rfl
  · nomatch hsome

theorem ofItems_of_weakest?_eq_binary {items : List Item} {place : Nat} {op : BinaryOp}
    (h : weakest? items = some (place, .binary op)) :
    ofItems items =
      ofItems (Chain.cut op.precedence items).first >>= fun first =>
        (Chain.cut op.precedence items).links.foldlM
          (fun left link => return binary link.1 left (← ofItems link.2)) first := by
  rw [ofItems]
  split <;> rename_i hsome <;> rw [h] at hsome
  · nomatch hsome
  · nomatch hsome
  · obtain ⟨-, hop⟩ := Prod.mk.inj (Option.some.inj hsome)
    obtain rfl := Operator.binary.inj hop
    refine congrArg _ (funext fun first => ?_)
    have hlinks := List.unattach_attach (l := (Chain.cut op.precedence items).links)
    exact (List.foldlM_subtype fun _ _ _ => rfl).trans (by rw [hlinks])

/-- The expression of the items between two places. -/
def ofItemsBetween (items : List Item) (start stop : Nat) : Except RangeError Expr := do
  ofItems (← itemsBetween items start stop)

end Expr

end Calculator
