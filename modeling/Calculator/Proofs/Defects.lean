import Calculator.Calculation

/-!
# Which fault is reported

An expression may have many faults: operands that are missing, variables without a value, and operators
that fail on the values of their operands. Missing operands are noticed before the operands of a node are
evaluated and failing operators after it, so the order matters. The nodes are looked at in the order of
`Expr.nodes`, in which every node comes before its operands. Of the defects, which can be told from a
single node (`Expr.defect?`), only the first one of this order is ever reported. An operator can fail
before that, but then all of its operands come before the defect as well. `Concludes` says so of the
outcome of an evaluation, whatever the arithmetic, and `denote_concludes` proves it by induction on the
expression.
-/

namespace Calculator

/-- What can be wrong with a node whatever the values of its operands are. -/
inductive Defect where
  | missingOperand (op : Operator)
  | unbound (name : String)
  deriving DecidableEq, Repr

namespace Defect

/-- The error that evaluation reports. -/
def error {ε : Type} : Defect → EvalError ε
  | missingOperand op => .missingOperand op
  | unbound name => .unbound name

/-- What a message calls the node. -/
def label : Defect → String
  | missingOperand op => op.symbol
  | unbound name => name

end Defect

variable {ν ε : Type}

namespace Expr

/-- The nodes of an expression, each with everything below it. A node comes before its operands, and the
left operand with all its nodes before the right one. -/
def nodes : Expr → List Expr
  | absent => []
  | number value => [number value]
  | .variable name => [.variable name]
  | neg operand => neg operand :: operand.nodes
  | binary op left right => binary op left right :: (left.nodes ++ right.nodes)

/-- The defect of the root. -/
def defect? (bindings : Bindings ν) : Expr → Option Defect
  | absent | number _ => none
  | .variable name => if (bindings name).isNone then some (.unbound name) else none
  | neg operand => if operand.isAbsent then some (.missingOperand .neg) else none
  | binary op left right =>
    if left.isAbsent || right.isAbsent then some (.missingOperand (.binary op)) else none

/-- The operands of the root have values, but its operator fails on them. -/
inductive FailsWith (arithmetic : Arithmetic ν ε) (bindings : Bindings ν) : Expr → ε → Prop where
  | neg {operand : Expr} {value : ν} {fault : ε} (hoperand : operand.eval arithmetic bindings = .ok value)
      (hfault : arithmetic.neg value = .error fault) : FailsWith arithmetic bindings (.neg operand) fault
  | binary {op : BinaryOp} {left right : Expr} {leftValue rightValue : ν} {fault : ε}
      (hleft : left.eval arithmetic bindings = .ok leftValue)
      (hright : right.eval arithmetic bindings = .ok rightValue)
      (hfault : arithmetic.apply op leftValue rightValue = .error fault) :
      FailsWith arithmetic bindings (.binary op left right) fault

theorem label_of_defect? {bindings : Bindings ν} {node : Expr} {defect : Defect}
    (h : node.defect? bindings = some defect) : node.label = .ok (some defect.label) := by
  cases node with
  | absent => simp [defect?] at h
  | number value => simp [defect?] at h
  | «variable» name =>
    obtain ⟨-, hdefect⟩ := Option.ite_none_right_eq_some.1 h
    obtain rfl := Option.some.inj hdefect
    rfl
  | neg operand =>
    obtain ⟨-, hdefect⟩ := Option.ite_none_right_eq_some.1 h
    obtain rfl := Option.some.inj hdefect
    rfl
  | binary op left right =>
    obtain ⟨-, hdefect⟩ := Option.ite_none_right_eq_some.1 h
    obtain rfl := Option.some.inj hdefect
    rfl

end Expr

/-! ### The outcome, told from the nodes -/

/-- No node has a defect. -/
def Intact (bindings : Bindings ν) (nodes : List Expr) : Prop :=
  ∀ node ∈ nodes, node.defect? bindings = none

theorem intact_nil (bindings : Bindings ν) : Intact bindings [] := by
  simp [Intact]

theorem intact_cons {bindings : Bindings ν} {node : Expr} {rest : List Expr} :
    Intact bindings (node :: rest) ↔ node.defect? bindings = none ∧ Intact bindings rest :=
  List.forall_mem_cons

theorem intact_append {bindings : Bindings ν} {front back : List Expr} :
    Intact bindings (front ++ back) ↔ Intact bindings front ∧ Intact bindings back :=
  List.forall_mem_append

theorem Intact.notMem {bindings : Bindings ν} {nodes : List Expr} {node : Expr} {defect : Defect}
    (h : Intact bindings nodes) (hdefect : node.defect? bindings = some defect) : node ∉ nodes := by
  intro hmem
  rw [h node hmem] at hdefect
  nomatch hdefect

/-- The outcome of an evaluation, seen from the nodes of the expression. -/
inductive Concludes (arithmetic : Arithmetic ν ε) (bindings : Bindings ν) (nodes : List Expr) :
    Except (EvalError ε) ν → Prop where
  | value {value : ν} (hintact : Intact bindings nodes) : Concludes arithmetic bindings nodes (.ok value)
  /-- An operator fails. Neither it nor anything below or before it has a defect. -/
  | fault {front rest : List Expr} {node : Expr} {fault : ε} (hnodes : nodes = front ++ node.nodes ++ rest)
      (hintact : Intact bindings (front ++ node.nodes)) (hfails : node.FailsWith arithmetic bindings fault) :
      Concludes arithmetic bindings nodes (.error (.arithmetic fault))
  /-- A defect is reported. Nothing before it has one. -/
  | defect {front rest : List Expr} {node : Expr} {defect : Defect} (hnodes : nodes = front ++ node :: rest)
      (hintact : Intact bindings front) (hdefect : node.defect? bindings = some defect) :
      Concludes arithmetic bindings nodes (.error defect.error)

section Concludes

variable {arithmetic : Arithmetic ν ε} {bindings : Bindings ν} {nodes front all : List Expr}
  {result : Except (EvalError ε) ν}

theorem Concludes.behind (h : Concludes arithmetic bindings nodes result) (hfront : Intact bindings front) :
    Concludes arithmetic bindings (front ++ nodes) result := by
  cases h with
  | value hintact => exact .value (intact_append.2 ⟨hfront, hintact⟩)
  | @fault before rest node fault hnodes hintact hfails =>
    have hsplit : front ++ nodes = front ++ before ++ node.nodes ++ rest := by
      simp only [hnodes, List.append_assoc]
    refine .fault hsplit ?_ hfails
    rw [List.append_assoc]
    exact intact_append.2 ⟨hfront, hintact⟩
  | @defect before rest node defect hnodes hintact hdefect =>
    have hsplit : front ++ nodes = front ++ before ++ node :: rest := by
      simp only [hnodes, List.append_assoc]
    exact .defect hsplit (intact_append.2 ⟨hfront, hintact⟩) hdefect

theorem Concludes.mono {error : EvalError ε} (h : Concludes arithmetic bindings nodes (.error error))
    (hstart : nodes <+: all) : Concludes arithmetic bindings all (.error error) := by
  obtain ⟨behind, rfl⟩ := hstart
  cases h with
  | @fault before rest node fault hnodes hintact hfails =>
    have hsplit : nodes ++ behind = before ++ node.nodes ++ (rest ++ behind) := by
      simp only [hnodes, List.append_assoc]
    exact .fault hsplit hintact hfails
  | @defect before rest node defect hnodes hintact hdefect =>
    have hsplit : nodes ++ behind = before ++ node :: (rest ++ behind) := by
      simp only [hnodes, List.append_assoc, List.cons_append]
    exact .defect hsplit hintact hdefect

/-- One evaluation after the other: the second one starts only when the first has got over its nodes. -/
theorem Concludes.bind {next : ν → Except (EvalError ε) ν} (h : Concludes arithmetic bindings nodes result)
    (hstart : nodes <+: all)
    (hnext : ∀ value, result = .ok value → Intact bindings nodes → Concludes arithmetic bindings all (next value)) :
    Concludes arithmetic bindings all (result >>= next) := by
  cases result with
  | error error => exact h.mono hstart
  | ok value =>
    cases h with
    | value hintact => exact hnext value rfl hintact

theorem Concludes.of_defect {node : Expr} {defect : Defect} (h : node.defect? bindings = some defect)
    (rest : List Expr) : Concludes arithmetic bindings (node :: rest) (.error defect.error) :=
  .defect (List.nil_append _).symm (intact_nil bindings) h

theorem Concludes.of_apply {expr : Expr} {applied : Except ε ν} (hintact : Intact bindings expr.nodes)
    (hfails : ∀ fault, applied = .error fault → expr.FailsWith arithmetic bindings fault) :
    Concludes arithmetic bindings expr.nodes (applied.mapError .arithmetic) := by
  cases applied with
  | ok value => exact .value hintact
  | error fault =>
    have hsplit : expr.nodes = [] ++ expr.nodes ++ [] := (List.append_nil _).symm
    exact .fault hsplit hintact (hfails fault rfl)

theorem Expr.denote_concludes (arithmetic : Arithmetic ν ε) (bindings : Bindings ν) {expr : Expr}
    (h : expr.isAbsent = false) :
    Concludes arithmetic bindings expr.nodes (expr.denote arithmetic bindings) := by
  induction expr with
  | absent => nomatch h
  | number value => exact .value (intact_cons.2 ⟨rfl, intact_nil bindings⟩)
  | «variable» name =>
    rw [denote]
    cases hvalue : bindings name with
    | some value =>
      have hroot : (Expr.variable name).defect? bindings = none := by simp [defect?, hvalue]
      exact .value (intact_cons.2 ⟨hroot, intact_nil bindings⟩)
    | none =>
      have hroot : (Expr.variable name).defect? bindings = some (.unbound name) := by simp [defect?, hvalue]
      exact .of_defect hroot []
  | neg operand ih =>
    rw [denote]
    by_cases habsent : operand.isAbsent
    · have hroot : (neg operand).defect? bindings = some (.missingOperand .neg) := if_pos habsent
      rw [if_pos habsent]
      exact .of_defect hroot operand.nodes
    · have hroot : (neg operand).defect? bindings = none := if_neg habsent
      have hoperand := (ih (Bool.eq_false_iff.2 habsent)).behind (intact_cons.2 ⟨hroot, intact_nil bindings⟩)
      rw [if_neg habsent]
      refine hoperand.bind (List.prefix_refl _) fun value hvalue hintact => ?_
      rw [← eval_eq_denote] at hvalue
      exact .of_apply hintact fun fault hfault => .neg hvalue hfault
  | binary op left right ihLeft ihRight =>
    rw [denote]
    by_cases habsent : left.isAbsent || right.isAbsent
    · have hroot : (binary op left right).defect? bindings = some (.missingOperand (.binary op)) := if_pos habsent
      rw [if_pos habsent]
      exact .of_defect hroot (left.nodes ++ right.nodes)
    · have hroot : (binary op left right).defect? bindings = none := if_neg habsent
      obtain ⟨hleft, hright⟩ := Bool.or_eq_false_iff.1 (Bool.eq_false_iff.2 habsent)
      have hfront := (ihLeft hleft).behind (intact_cons.2 ⟨hroot, intact_nil bindings⟩)
      rw [if_neg habsent]
      refine hfront.bind (List.prefix_append _ right.nodes) fun leftValue hleftValue hintactLeft => ?_
      refine ((ihRight hright).behind hintactLeft).bind (List.prefix_refl _) fun rightValue hrightValue hintact => ?_
      rw [← eval_eq_denote] at hleftValue hrightValue
      exact .of_apply hintact fun fault hfault => .binary hleftValue hrightValue hfault

theorem exists_append_of_intact {rest before after : List Expr} {node : Expr} {defect : Defect}
    (h : front ++ rest = before ++ node :: after) (hfront : Intact bindings front)
    (hdefect : node.defect? bindings = some defect) : ∃ more, before = front ++ more := by
  rcases List.append_eq_append_iff.1 h with ⟨more, hbefore, -⟩ | ⟨more, hmore, hrest⟩
  · exact ⟨more, hbefore⟩
  · cases more with
    | nil => exact ⟨[], by rw [hmore, List.append_nil, List.append_nil]⟩
    | cons first more =>
      obtain ⟨rfl, -⟩ := List.cons.inj hrest
      exact (hfront.notMem hdefect (by simp [hmore])).elim

end Concludes

/-- If some node of an expression has a defect, evaluation reports the first of them, under the label of
the node, or it fails before that at an operator all of whose nodes come before the defect. If none has
one, there is a value or an operator that fails. -/
theorem eval_reports_first_defect (bindings : Bindings Number) {expr : Expr} (hpresent : expr.isAbsent = false) :
    (∀ before node after defect, expr.nodes = before ++ node :: after → Intact bindings before →
        node.defect? bindings = some defect →
        node.label = .ok (some defect.label) ∧
          (expr.eval Number.arithmetic bindings = .error defect.error ∨
            ∃ front op left right rest fault, before = front ++ (Expr.binary op left right).nodes ++ rest ∧
              (Expr.binary op left right).FailsWith Number.arithmetic bindings fault ∧
              expr.eval Number.arithmetic bindings = .error (.arithmetic fault))) ∧
      (Intact bindings expr.nodes →
        (∃ value, expr.eval Number.arithmetic bindings = .ok value) ∨
          ∃ fault, expr.eval Number.arithmetic bindings = .error (.arithmetic fault)) := by
  have hconcludes := Expr.denote_concludes Number.arithmetic bindings hpresent
  rw [← Expr.eval_eq_denote] at hconcludes
  generalize expr.eval Number.arithmetic bindings = outcome at hconcludes
  constructor
  · intro before node after defect hnodes hbefore hdefect
    refine ⟨Expr.label_of_defect? hdefect, ?_⟩
    cases hconcludes with
    | value hintact =>
      exact (hintact.notMem hdefect (by simp [hnodes])).elim
    | @fault front rest failing fault hsplit hintact hfails =>
      obtain ⟨more, hmore⟩ := exists_append_of_intact (hsplit.symm.trans hnodes) hintact hdefect
      right
      cases hfails with
      | neg hoperand hfault => nomatch hfault
      | @binary op left right _ _ _ hleft hright hfault =>
        exact ⟨front, op, left, right, more, fault, hmore, .binary hleft hright hfault, rfl⟩
    | @defect front rest found first hsplit hfront hfirst =>
      have hfound := List.findSome?_eq_some_iff.2 ⟨front, found, rest, hsplit, hfirst, hfront⟩
      rw [List.findSome?_eq_some_iff.2 ⟨before, node, after, hnodes, hdefect, hbefore⟩] at hfound
      obtain rfl := Option.some.inj hfound
      exact .inl rfl
  · intro hintact
    cases hconcludes with
    | @value value _ => exact .inl ⟨value, rfl⟩
    | @fault front rest failing fault hsplit _ hfails => exact .inr ⟨fault, rfl⟩
    | @defect front rest found first hsplit hfront hfirst =>
      exact (hintact.notMem hfirst (by simp [hsplit])).elim

/-- In `1/0 + x*(y-)` the first defect is that `x` has no value. The division comes before it and fails,
the missing operand comes behind it. -/
theorem first_defect_behind_division_by_zero :
    let division := Expr.binary .div (.number 1) (.number 0)
    let product := Expr.binary .mul (.variable "x") (.binary .sub (.variable "y") .absent)
    let expr := Expr.binary .add division product
    let bindings : Bindings Number := fun _ => none
    expr.isAbsent = false ∧ Intact bindings [expr, division, .number 1, .number 0, product] ∧
      (Expr.variable "x").defect? bindings = some (.unbound "x") ∧
      (Expr.variable "x").label = .ok (some "x") ∧
      expr.eval Number.arithmetic bindings = .error (.arithmetic .intDivisionByZero) ∧
      ∃ front op left right rest fault,
        [expr, division, .number 1, .number 0, product] = front ++ (Expr.binary op left right).nodes ++ rest ∧
        (Expr.binary op left right).FailsWith Number.arithmetic bindings fault ∧
        expr.eval Number.arithmetic bindings = .error (.arithmetic fault) := by
  intro division product expr bindings
  have hintact : Intact bindings [expr, division, .number 1, .number 0, product] := by
    simp [intact_cons, intact_nil, expr, division, product, Expr.defect?, Expr.isAbsent]
  have heval : expr.eval Number.arithmetic bindings = .error (.arithmetic .intDivisionByZero) := by
    rw [Expr.eval_eq_denote]
    rfl
  obtain ⟨hlabel, houtcome⟩ :=
    (eval_reports_first_defect bindings (show expr.isAbsent = false from rfl)).1 _ (.variable "x") _
      (.unbound "x") rfl hintact rfl
  refine ⟨rfl, hintact, rfl, hlabel, heval, houtcome.resolve_left fun hunbound => ?_⟩
  rw [heval] at hunbound
  nomatch hunbound

end Calculator
