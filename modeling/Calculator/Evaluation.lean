import Calculator.Arithmetic
import Calculator.Expr

/-!
# Evaluation

An expression has a value by recursion on its structure, `Expr.denote`: an operator that misses an
operand fails at once, otherwise the left operand is evaluated before the right one. Expressions may be
as deep as their texts are long, so the value is computed without recursion, by a machine with a stack
of tasks and a stack of results. `run_visit` says that visiting an expression leaves exactly its value
on the results, whatever lies below and whatever is still to be done; hence the machine never lacks a
result, and `Expr.eval` reads off the one that it ends with. The two agree: `Expr.eval_eq_denote`.
-/

namespace Calculator

/-- Why an expression has no value. -/
inductive EvalError (ε : Type) where
  /-- There is no expression. -/
  | empty
  | missingOperand (op : Operator)
  | unbound (name : String)
  /-- An operator failed on the values of its operands. -/
  | arithmetic (error : ε)
  deriving DecidableEq, Repr

/-- The values of the variables, as far as they have one. -/
abbrev Bindings (ν : Type) := String → Option ν

variable {ν ε : Type}

namespace Expr

def isAbsent : Expr → Bool
  | absent => true
  | _ => false

def denote (arithmetic : Arithmetic ν ε) (bindings : Bindings ν) : Expr → Except (EvalError ε) ν
  | absent => .error .empty
  | number value => .ok (arithmetic.ofInt value)
  | .variable name =>
    match bindings name with
    | some value => .ok value
    | none => .error (.unbound name)
  | neg operand =>
    if operand.isAbsent then .error (.missingOperand .neg)
    else do
      let value ← operand.denote arithmetic bindings
      (arithmetic.neg value).mapError .arithmetic
  | binary op left right =>
    if left.isAbsent || right.isAbsent then .error (.missingOperand (.binary op))
    else do
      let leftValue ← left.denote arithmetic bindings
      let rightValue ← right.denote arithmetic bindings
      (arithmetic.apply op leftValue rightValue).mapError .arithmetic

/-- The number of tasks that visiting an expression gives rise to. -/
def taskCount : Expr → Nat
  | absent | number _ | .variable _ => 1
  | neg operand => operand.taskCount + 2
  | binary _ left right => left.taskCount + right.taskCount + 2

end Expr

/-- What the machine still has to do. -/
inductive Task where
  | visit (expr : Expr)
  /-- Negate the latest result. -/
  | negate
  /-- Apply an operator to the latest result and the one before, which is the left operand. -/
  | combine (op : BinaryOp)

def Task.weight : Task → Nat
  | visit expr => expr.taskCount
  | negate | combine _ => 1

/-- How a run of the machine ends. -/
inductive Outcome (ν ε : Type) where
  /-- No task is left. The latest result comes first. -/
  | finished (results : List ν)
  | failed (error : EvalError ε)
  /-- A task needed more results than there were. -/
  | underflow
  deriving DecidableEq, Repr

namespace Machine

/-- The tasks that are left, with the next one first, and the results so far, with the latest one first. -/
structure State (ν : Type) where
  tasks : List Task
  results : List ν

/-- The state in which an expression is to be visited and nothing else. -/
def State.start (expr : Expr) : State ν := ⟨[.visit expr], []⟩

def totalWeight : List Task → Nat
  | [] => 0
  | task :: rest => task.weight + totalWeight rest

theorem totalWeight_cons (task : Task) (tasks : List Task) :
    totalWeight (task :: tasks) = task.weight + totalWeight tasks :=
  rfl

/-- Do a task, when `rest` are the tasks behind it. It leads to another state or ends the run. -/
def step (arithmetic : Arithmetic ν ε) (bindings : Bindings ν) (task : Task) (rest : List Task)
    (results : List ν) : Except (Outcome ν ε) (State ν) :=
  match task, results with
  | .visit .absent, _ => .error (.failed .empty)
  | .visit (.number value), results => .ok ⟨rest, arithmetic.ofInt value :: results⟩
  | .visit (.variable name), results =>
    match bindings name with
    | some value => .ok ⟨rest, value :: results⟩
    | none => .error (.failed (.unbound name))
  | .visit (.neg operand), results =>
    if operand.isAbsent then .error (.failed (.missingOperand .neg))
    else .ok ⟨.visit operand :: .negate :: rest, results⟩
  | .visit (.binary op left right), results =>
    if left.isAbsent || right.isAbsent then .error (.failed (.missingOperand (.binary op)))
    else .ok ⟨.visit left :: .visit right :: .combine op :: rest, results⟩
  | .negate, value :: results =>
    match arithmetic.neg value with
    | .ok result => .ok ⟨rest, result :: results⟩
    | .error error => .error (.failed (.arithmetic error))
  | .combine op, right :: left :: results =>
    match arithmetic.apply op left right with
    | .ok result => .ok ⟨rest, result :: results⟩
    | .error error => .error (.failed (.arithmetic error))
  | .negate, [] | .combine _, [] | .combine _, [_] => .error .underflow

theorem totalWeight_step {arithmetic : Arithmetic ν ε} {bindings : Bindings ν} {task : Task} {rest : List Task}
    {results : List ν} {next : State ν} (h : step arithmetic bindings task rest results = .ok next) :
    totalWeight next.tasks + 1 = totalWeight (task :: rest) := by
  cases task with
  | visit expr =>
    cases expr with
    | absent => nomatch h
    | number value =>
      rw [← Except.ok.inj h, totalWeight_cons, Task.weight, Expr.taskCount, Nat.add_comm]
    | «variable» name =>
      rw [step] at h
      split at h
      · rw [← Except.ok.inj h, totalWeight_cons, Task.weight, Expr.taskCount, Nat.add_comm]
      · nomatch h
    | neg operand =>
      rw [step] at h
      split at h
      · nomatch h
      · rw [← Except.ok.inj h]
        simp only [totalWeight_cons, Task.weight, Expr.taskCount]
        omega
    | binary op left right =>
      rw [step] at h
      split at h
      · nomatch h
      · rw [← Except.ok.inj h]
        simp only [totalWeight_cons, Task.weight, Expr.taskCount]
        omega
  | negate =>
    cases results with
    | nil => nomatch h
    | cons value results =>
      rw [step] at h
      split at h
      · rw [← Except.ok.inj h, totalWeight_cons, Task.weight, Nat.add_comm]
      · nomatch h
  | combine op =>
    rcases results with _ | ⟨right, _ | ⟨left, results⟩⟩
    · nomatch h
    · nomatch h
    · rw [step] at h
      split at h
      · rw [← Except.ok.inj h, totalWeight_cons, Task.weight, Nat.add_comm]
      · nomatch h

/-- Do tasks until none is left or one of them ends the run. -/
def run (arithmetic : Arithmetic ν ε) (bindings : Bindings ν) : State ν → Outcome ν ε
  | ⟨[], results⟩ => .finished results
  | ⟨task :: rest, results⟩ =>
    match hstep : step arithmetic bindings task rest results with
    | .ok next =>
      have := totalWeight_step hstep
      run arithmetic bindings next
    | .error outcome => outcome
termination_by state => totalWeight state.tasks

theorem run_cons (arithmetic : Arithmetic ν ε) (bindings : Bindings ν) (task : Task) (rest : List Task)
    (results : List ν) :
    run arithmetic bindings ⟨task :: rest, results⟩ =
      match step arithmetic bindings task rest results with
      | .ok next => run arithmetic bindings next
      | .error outcome => outcome := by
  rw [run]
  split <;> rename_i hstep <;> simp only [hstep]

/-- Visiting an expression puts its value on the results and goes on, or fails as it fails. -/
theorem run_visit (arithmetic : Arithmetic ν ε) (bindings : Bindings ν) (expr : Expr) (rest : List Task)
    (results : List ν) :
    run arithmetic bindings ⟨.visit expr :: rest, results⟩ =
      match expr.denote arithmetic bindings with
      | .ok value => run arithmetic bindings ⟨rest, value :: results⟩
      | .error error => .failed error := by
  induction expr generalizing rest results with
  | absent => rw [run_cons, step, Expr.denote]
  | number value => rw [run_cons, step, Expr.denote]
  | «variable» name =>
    rw [run_cons, step, Expr.denote]
    cases bindings name <;> rfl
  | neg operand ih =>
    rw [run_cons, step, Expr.denote]
    by_cases habsent : operand.isAbsent
    · rw [if_pos habsent, if_pos habsent]
    · rw [if_neg habsent, if_neg habsent]
      dsimp only
      rw [ih]
      cases operand.denote arithmetic bindings with
      | error error => rfl
      | ok value =>
        dsimp only
        rw [run_cons, step]
        change _ = match (arithmetic.neg value).mapError EvalError.arithmetic with
          | .ok value => _ | .error error => _
        cases arithmetic.neg value <;> rfl
  | binary op left right ihLeft ihRight =>
    rw [run_cons, step, Expr.denote]
    by_cases habsent : left.isAbsent || right.isAbsent
    · rw [if_pos habsent, if_pos habsent]
    · rw [if_neg habsent, if_neg habsent]
      dsimp only
      rw [ihLeft]
      cases left.denote arithmetic bindings with
      | error error => rfl
      | ok leftValue =>
        dsimp only
        rw [ihRight]
        cases right.denote arithmetic bindings with
        | error error => rfl
        | ok rightValue =>
          dsimp only
          rw [run_cons, step]
          change _ = match (arithmetic.apply op leftValue rightValue).mapError EvalError.arithmetic with
            | .ok value => _ | .error error => _
          cases arithmetic.apply op leftValue rightValue <;> rfl

theorem run_start (arithmetic : Arithmetic ν ε) (bindings : Bindings ν) (expr : Expr) :
    run arithmetic bindings (.start expr) =
      match expr.denote arithmetic bindings with
      | .ok value => .finished [value]
      | .error error => .failed error := by
  rw [State.start, run_visit]
  cases expr.denote arithmetic bindings with
  | ok value =>
    dsimp only
    rw [run]
  | error error => rfl

theorem run_start_ne {arithmetic : Arithmetic ν ε} {bindings : Bindings ν} {expr : Expr} :
    run arithmetic bindings (.start expr) ≠ .finished [] ∧
      run arithmetic bindings (.start expr) ≠ .underflow := by
  rw [run_start]
  cases expr.denote arithmetic bindings <;> exact ⟨nofun, nofun⟩

end Machine

namespace Expr

def eval (arithmetic : Arithmetic ν ε) (bindings : Bindings ν) (expr : Expr) : Except (EvalError ε) ν :=
  match h : Machine.run arithmetic bindings (.start expr) with
  | .finished (value :: _) => .ok value
  | .failed error => .error error
  | .finished [] => absurd h Machine.run_start_ne.1
  | .underflow => absurd h Machine.run_start_ne.2

theorem eval_eq_denote (arithmetic : Arithmetic ν ε) (bindings : Bindings ν) (expr : Expr) :
    expr.eval arithmetic bindings = expr.denote arithmetic bindings := by
  have hrun := Machine.run_start arithmetic bindings expr
  unfold eval
  split <;> rename_i h
  · rw [h] at hrun
    cases hvalue : expr.denote arithmetic bindings with
    | ok value =>
      rw [hvalue] at hrun
      rw [(List.cons.inj (Outcome.finished.inj hrun)).1]
    | error error =>
      rw [hvalue] at hrun
      nomatch hrun
  · rw [h] at hrun
    cases hvalue : expr.denote arithmetic bindings with
    | ok value =>
      rw [hvalue] at hrun
      nomatch hrun
    | error error =>
      rw [hvalue] at hrun
      rw [Outcome.failed.inj hrun]
  · exact absurd h Machine.run_start_ne.1
  · exact absurd h Machine.run_start_ne.2

end Expr

end Calculator
