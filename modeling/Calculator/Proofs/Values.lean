import Mathlib.Logic.Function.Basic
import Calculator.Proofs.Machine
import Calculator.Proofs.Substitution

/-!
# An expression in the place of its value

It makes no difference whether a variable is bound to the value of an expression or the expression stands
in its place, neither for the value of the whole nor for what goes wrong first
(`Expr.eval_substitute_eq_update`).

The machine does more where the expression stands, and it does so in the middle of other tasks. But once
the expression is done, its value lies on the results and the tasks behind it are as they were
(`Machine.reaches_of_denote`), which is what looking up the variable comes to. So each task of the shorter
run is matched by some of the longer one (`exists_reaches_of_step`), and both runs end alike
(`Machine.run_substitute`), whatever is on the stacks when they start.
-/

namespace Calculator

variable {ν ε : Type} {arithmetic : Arithmetic ν ε} {bindings : Bindings ν}

/-! ### What has a value -/

namespace Expr

variable {operand left right : Expr} {op : BinaryOp} {name : String} {value : ν}

theorem isAbsent_eq_false_of_denote (h : operand.denote arithmetic bindings = .ok value) :
    operand.isAbsent = false := by
  cases operand with
  | absent => simp [denote] at h
  | number constant => rfl
  | «variable» name => rfl
  | neg inner => rfl
  | binary op left right => rfl

theorem denote_variable_eq_ok_iff :
    (Expr.variable name).denote arithmetic bindings = .ok value ↔ bindings name = some value := by
  rw [denote]
  cases bindings name <;> simp

theorem denote_neg_eq_ok_iff :
    (neg operand).denote arithmetic bindings = .ok value ↔
      ∃ inner, operand.denote arithmetic bindings = .ok inner ∧ arithmetic.neg inner = .ok value := by
  rw [denote]
  by_cases habsent : operand.isAbsent = true
  · rw [if_pos habsent]
    refine iff_of_false (by simp) ?_
    rintro ⟨inner, hinner, -⟩
    simp [isAbsent_eq_false_of_denote hinner] at habsent
  · rw [if_neg habsent, bind_eq_ok_iff]
    simp only [mapError_eq_ok_iff]

theorem denote_binary_eq_ok_iff :
    (binary op left right).denote arithmetic bindings = .ok value ↔
      ∃ leftValue rightValue, left.denote arithmetic bindings = .ok leftValue ∧
        right.denote arithmetic bindings = .ok rightValue ∧ arithmetic.apply op leftValue rightValue = .ok value := by
  rw [denote]
  by_cases habsent : (left.isAbsent || right.isAbsent) = true
  · rw [if_pos habsent]
    refine iff_of_false (by simp) ?_
    rintro ⟨leftValue, rightValue, hleft, hright, -⟩
    simp [isAbsent_eq_false_of_denote hleft, isAbsent_eq_false_of_denote hright] at habsent
  · rw [if_neg habsent]
    simp only [bind_eq_ok_iff, mapError_eq_ok_iff]
    constructor
    · rintro ⟨leftValue, hleft, rightValue, hright, h⟩
      exact ⟨leftValue, rightValue, hleft, hright, h⟩
    · rintro ⟨leftValue, rightValue, hleft, hright, h⟩
      exact ⟨leftValue, hleft, rightValue, hright, h⟩

end Expr

namespace Machine

/-! ### The tasks of one expression -/

theorem Reaches.trans {first middle last : State ν} {m n : Nat} (hfirst : Reaches arithmetic bindings first m middle)
    (hlast : Reaches arithmetic bindings middle n last) : Reaches arithmetic bindings first (m + n) last := by
  induction hfirst with
  | refl =>
    rw [Nat.zero_add]
    exact hlast
  | step hstep _ ih =>
    rw [Nat.add_right_comm]
    exact .step hstep (ih hlast)

theorem reaches_of_denote {expr : Expr} {value : ν} (h : expr.denote arithmetic bindings = .ok value)
    (rest : List Task) (results : List ν) :
    Reaches arithmetic bindings ⟨.visit expr :: rest, results⟩ expr.taskCount ⟨rest, value :: results⟩ := by
  induction expr generalizing value rest results with
  | absent => simp [Expr.denote] at h
  | number constant =>
    obtain rfl := Except.ok.inj h
    exact .step rfl (.refl _)
  | «variable» name =>
    rw [Expr.denote_variable_eq_ok_iff] at h
    exact .step (by rw [step, h]) (.refl _)
  | neg operand ih =>
    obtain ⟨inner, hinner, h⟩ := Expr.denote_neg_eq_ok_iff.1 h
    have hpresent := Expr.isAbsent_eq_false_of_denote hinner
    have hnegate : Reaches arithmetic bindings ⟨.negate :: rest, inner :: results⟩ 1 ⟨rest, value :: results⟩ :=
      .step (by rw [step, h]) (.refl _)
    exact .step (by simp [step, hpresent]) ((ih hinner _ results).trans hnegate)
  | binary op left right ihLeft ihRight =>
    obtain ⟨leftValue, rightValue, hleft, hright, h⟩ := Expr.denote_binary_eq_ok_iff.1 h
    have hpresentLeft := Expr.isAbsent_eq_false_of_denote hleft
    have hpresentRight := Expr.isAbsent_eq_false_of_denote hright
    have hcombine : Reaches arithmetic bindings ⟨.combine op :: rest, rightValue :: leftValue :: results⟩ 1
        ⟨rest, value :: results⟩ := .step (by rw [step, h]) (.refl _)
    have hoperands := (ihLeft hleft (.visit right :: .combine op :: rest) results).trans
      ((ihRight hright (.combine op :: rest) (leftValue :: results)).trans hcombine)
    rw [← Nat.add_assoc] at hoperands
    exact .step (by simp [step, hpresentLeft, hpresentRight]) hoperands

end Machine

/-! ### Tasks with an expression in the place of a variable -/

namespace Expr

theorem isAbsent_substitute {operand : Expr} (h : operand.isAbsent = false) (expr : Expr) (name : String) :
    (expr.substitute name operand).isAbsent = expr.isAbsent := by
  cases expr with
  | absent => rfl
  | number constant => rfl
  | «variable» other =>
    rw [substitute]
    split
    · exact h
    · rfl
  | neg inner => rfl
  | binary op left right => rfl

end Expr

namespace Task

/-- The task for the expression with another one in the place of every variable of that name. -/
def substitute (name : String) (operand : Expr) : Task → Task
  | visit expr => visit (expr.substitute name operand)
  | negate => negate
  | combine op => combine op

end Task

namespace Machine

def State.substitute (name : String) (operand : Expr) (state : State ν) : State ν :=
  { state with tasks := state.tasks.map (Task.substitute name operand) }

theorem State.substitute_cons (name : String) (operand : Expr) (task : Task) (rest : List Task) (results : List ν) :
    State.substitute name operand ⟨task :: rest, results⟩ =
      ⟨task.substitute name operand :: rest.map (Task.substitute name operand), results⟩ :=
  rfl

variable {name : String} {operand : Expr} {value : ν}

theorem step_substitute (hoperand : operand.isAbsent = false) (value : ν) {task : Task}
    (htask : task ≠ .visit (.variable name)) (rest : List Task) (results : List ν) :
    step arithmetic bindings (task.substitute name operand) (rest.map (Task.substitute name operand)) results =
      State.substitute name operand <$>
        step arithmetic (Function.update bindings name (some value)) task rest results := by
  have habsent := Expr.isAbsent_substitute hoperand
  cases task with
  | visit expr =>
    rw [Task.substitute]
    cases expr with
    | absent => rfl
    | number constant => rfl
    | «variable» other =>
      have hname : other ≠ name := fun heq => htask (heq ▸ rfl)
      rw [Expr.substitute, if_neg hname, step, step, Function.update_of_ne hname]
      cases bindings other <;> rfl
    | neg inner =>
      rw [Expr.substitute, step, step, habsent]
      split <;> rfl
    | binary op left right =>
      rw [Expr.substitute, step, step, habsent, habsent]
      split <;> rfl
  | negate =>
    cases results with
    | nil => rfl
    | cons top results =>
      rw [Task.substitute, step, step]
      cases arithmetic.neg top <;> rfl
  | combine op =>
    rcases results with _ | ⟨right, _ | ⟨left, results⟩⟩
    · rfl
    · rfl
    · rw [Task.substitute, step, step]
      cases arithmetic.apply op left right <;> rfl

theorem step_bound (name : String) (value : ν) (rest : List Task) (results : List ν) :
    step arithmetic (Function.update bindings name (some value)) (.visit (.variable name)) rest results =
      .ok ⟨rest, value :: results⟩ := by
  rw [step, Function.update_self]

/-- A task that is done with the variable bound to a value is matched by the tasks that are done with an
expression of this value in its place. -/
theorem exists_reaches_of_step {task : Task} {rest : List Task} {results : List ν} {next : State ν}
    (hoperand : operand.denote arithmetic bindings = .ok value)
    (h : step arithmetic (Function.update bindings name (some value)) task rest results = .ok next) :
    ∃ n, Reaches arithmetic bindings (State.substitute name operand ⟨task :: rest, results⟩) n
      (next.substitute name operand) := by
  by_cases htask : task = .visit (.variable name)
  · subst htask
    rw [step_bound] at h
    obtain rfl := Except.ok.inj h
    rw [State.substitute_cons, Task.substitute, Expr.substitute, if_pos rfl]
    exact ⟨_, reaches_of_denote hoperand _ results⟩
  · have hpresent := Expr.isAbsent_eq_false_of_denote hoperand
    rw [State.substitute_cons]
    refine ⟨1, .step ?_ (.refl _)⟩
    rw [step_substitute hpresent value htask, h]
    rfl

theorem Reaches.exists_substitute {state last : State ν} {n : Nat}
    (hoperand : operand.denote arithmetic bindings = .ok value)
    (h : Reaches arithmetic (Function.update bindings name (some value)) state n last) :
    ∃ m, Reaches arithmetic bindings (state.substitute name operand) m (last.substitute name operand) := by
  induction h with
  | refl state => exact ⟨0, .refl _⟩
  | step hstep _ ih =>
    obtain ⟨first, hfirst⟩ := exists_reaches_of_step hoperand hstep
    obtain ⟨others, hothers⟩ := ih
    exact ⟨first + others, hfirst.trans hothers⟩

theorem Ends.substitute {state : State ν} {outcome : Outcome ν ε} (hoperand : operand.isAbsent = false)
    (h : Ends arithmetic (Function.update bindings name (some value)) state outcome) :
    Ends arithmetic bindings (state.substitute name operand) outcome := by
  obtain ⟨tasks, results⟩ := state
  cases tasks with
  | nil => exact h
  | cons task rest =>
    change step arithmetic (Function.update bindings name (some value)) task rest results = .error outcome at h
    have htask : task ≠ .visit (.variable name) := by
      intro heq
      rw [heq, step_bound] at h
      simp at h
    rw [State.substitute_cons, Ends, step_substitute hoperand value htask, h]
    rfl

/-- From any state on, the outcome is the same with the variable bound to a value and with an expression of
this value in its place. -/
theorem run_substitute (hoperand : operand.denote arithmetic bindings = .ok value) (state : State ν) :
    run arithmetic bindings (state.substitute name operand) =
      run arithmetic (Function.update bindings name (some value)) state := by
  obtain ⟨n, last, hreaches, hends⟩ :=
    exists_reaches_ends arithmetic (Function.update bindings name (some value)) state
  obtain ⟨m, hsubstituted⟩ := hreaches.exists_substitute hoperand
  exact (hsubstituted.eq_run_of_ends (hends.substitute (Expr.isAbsent_eq_false_of_denote hoperand))).symm

end Machine

namespace Expr

theorem eval_eq_of_run_eq {others : Bindings ν} {expr other : Expr}
    (h : Machine.run arithmetic bindings (.start expr) = Machine.run arithmetic others (.start other)) :
    expr.eval arithmetic bindings = other.eval arithmetic others := by
  rw [eval_eq_denote, eval_eq_denote]
  rw [Machine.run_start, Machine.run_start] at h
  cases hvalue : expr.denote arithmetic bindings <;> cases hother : other.denote arithmetic others <;> simp_all

/-- An expression in the place of a variable counts as much as its value does. -/
theorem eval_substitute_eq_update {operand : Expr} {value : ν} (expr : Expr) (name : String)
    (h : operand.eval arithmetic bindings = .ok value) :
    (expr.substitute name operand).eval arithmetic bindings =
      expr.eval arithmetic (Function.update bindings name (some value)) := by
  rw [eval_eq_denote] at h
  exact eval_eq_of_run_eq (Machine.run_substitute h (.start expr))

/-- Under `x = 5` the expression `x-1` has the value 4, so it makes `x/(x-4)+y` fail as `x = 4` does: the
division comes before the variable without a value. -/
theorem eval_substitute_division_by_zero :
    let operand := binary .sub (.variable "x") (.number 1)
    let expr := binary .add (binary .div (.variable "x") (binary .sub (.variable "x") (.number 4))) (.variable "y")
    let bindings : Bindings Number := Function.update (fun _ => none) "x" (some (.int 5))
    operand.eval Number.arithmetic bindings = .ok (.int 4) ∧
      (expr.substitute "x" operand).eval Number.arithmetic bindings =
        expr.eval Number.arithmetic (Function.update bindings "x" (some (.int 4))) ∧
      expr.eval Number.arithmetic (Function.update bindings "x" (some (.int 4))) =
        .error (.arithmetic .intDivisionByZero) := by
  intro operand expr bindings
  have hoperand : operand.eval Number.arithmetic bindings = .ok (.int 4) := by
    rw [eval_eq_denote]
    rfl
  refine ⟨hoperand, eval_substitute_eq_update expr "x" hoperand, ?_⟩
  rw [eval_eq_denote]
  rfl

end Expr

end Calculator
