import Calculator.Evaluation

/-!
# Runs of the evaluation machine

`Machine.run` says with what a run ends. Here the run itself is followed, task by task, through the
states that it reaches. Each task that is done takes one off the total weight of the tasks, so a run
comes to its end after no more tasks than the expression gives rise to (`Reaches.totalWeight_add`). Every
state on the way has the outcome of the first one (`Reaches.run_eq`). So what is known of that outcome is
known of all states: none of them has a task that lacks a result, and if no task is left there is just
one result, the value of the expression.
-/

namespace Calculator

variable {ν ε : Type} {arithmetic : Arithmetic ν ε} {bindings : Bindings ν}

namespace Machine

/-- By doing a number of tasks the machine comes from one state to another. -/
inductive Reaches (arithmetic : Arithmetic ν ε) (bindings : Bindings ν) : State ν → Nat → State ν → Prop where
  | refl (state : State ν) : Reaches arithmetic bindings state 0 state
  | step {task : Task} {rest : List Task} {results : List ν} {next last : State ν} {n : Nat}
      (hstep : step arithmetic bindings task rest results = .ok next)
      (hrest : Reaches arithmetic bindings next n last) :
      Reaches arithmetic bindings ⟨task :: rest, results⟩ (n + 1) last

/-- The run ends in this state, with an outcome: no task is left, or the next one cannot be done. -/
def Ends (arithmetic : Arithmetic ν ε) (bindings : Bindings ν) : State ν → Outcome ν ε → Prop
  | ⟨[], results⟩, outcome => outcome = .finished results
  | ⟨task :: rest, results⟩, outcome => step arithmetic bindings task rest results = .error outcome

theorem Reaches.totalWeight_add {state last : State ν} {n : Nat}
    (h : Reaches arithmetic bindings state n last) : n + totalWeight last.tasks = totalWeight state.tasks := by
  induction h with
  | refl => exact Nat.zero_add _
  | step hstep _ ih =>
    have hweight := totalWeight_step hstep
    dsimp only
    omega

theorem Reaches.run_eq {state last : State ν} {n : Nat} (h : Reaches arithmetic bindings state n last) :
    run arithmetic bindings last = run arithmetic bindings state := by
  induction h with
  | refl => rfl
  | step hstep _ ih => rw [ih, run_cons, hstep]

theorem Ends.run_eq {state : State ν} {outcome : Outcome ν ε} (h : Ends arithmetic bindings state outcome) :
    run arithmetic bindings state = outcome := by
  obtain ⟨tasks, results⟩ := state
  cases tasks with
  | nil =>
    rw [run]
    exact h.symm
  | cons task rest =>
    change step arithmetic bindings task rest results = .error outcome at h
    rw [run_cons, h]

theorem exists_reaches_ends (arithmetic : Arithmetic ν ε) (bindings : Bindings ν) (state : State ν) :
    ∃ n last, Reaches arithmetic bindings state n last ∧
      Ends arithmetic bindings last (run arithmetic bindings state) := by
  fun_induction run arithmetic bindings state with
  | case1 results => exact ⟨0, _, .refl _, rfl⟩
  | case2 task rest results next hstep _ ih =>
    obtain ⟨n, last, hreaches, hends⟩ := ih
    exact ⟨n + 1, last, .step hstep hreaches, hends⟩
  | case3 task rest results outcome hstep => exact ⟨0, _, .refl _, hstep⟩

theorem Reaches.eq_run_of_ends {state last : State ν} {n : Nat} {outcome : Outcome ν ε}
    (h : Reaches arithmetic bindings state n last) (hends : Ends arithmetic bindings last outcome) :
    outcome = run arithmetic bindings state :=
  hends.run_eq.symm.trans h.run_eq

/-- Evaluation agrees with the recursion on the expression. The machine ends with the value as its only
result, or with the error of the recursion, after at most as many tasks as the expression gives rise to,
and on the way to it no task lacks a result. -/
theorem eval_and_reaches_start (arithmetic : Arithmetic ν ε) (bindings : Bindings ν) (expr : Expr) :
    expr.eval arithmetic bindings = expr.denote arithmetic bindings ∧
      (∃ n last, Reaches arithmetic bindings (.start expr) n last ∧
        match expr.denote arithmetic bindings with
        | .ok value => Ends arithmetic bindings last (.finished [value])
        | .error error => Ends arithmetic bindings last (.failed error)) ∧
      ∀ n state, Reaches arithmetic bindings (.start expr) n state →
        n + totalWeight state.tasks = expr.taskCount ∧ ¬ Ends arithmetic bindings state .underflow ∧
          ∀ results, Ends arithmetic bindings state (.finished results) → ∃ value, results = [value] := by
  refine ⟨Expr.eval_eq_denote arithmetic bindings expr, ?_, fun n state hreaches => ⟨?_, ?_, ?_⟩⟩
  · obtain ⟨n, last, hreaches, hends⟩ := exists_reaches_ends arithmetic bindings (State.start expr)
    refine ⟨n, last, hreaches, ?_⟩
    rw [run_start] at hends
    cases hvalue : expr.denote arithmetic bindings with
    | ok value =>
      rw [hvalue] at hends
      exact hends
    | error error =>
      rw [hvalue] at hends
      exact hends
  · exact hreaches.totalWeight_add
  · intro hends
    exact run_start_ne.2 (hreaches.eq_run_of_ends hends).symm
  · intro results hends
    have hresults := hreaches.eq_run_of_ends hends
    rw [run_start] at hresults
    cases hvalue : expr.denote arithmetic bindings with
    | ok value =>
      rw [hvalue] at hresults
      exact ⟨value, Outcome.finished.inj hresults⟩
    | error error =>
      rw [hvalue] at hresults
      nomatch hresults

end Machine

end Calculator
