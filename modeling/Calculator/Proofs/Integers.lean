import Calculator.Proofs.Values
import Calculator.Proofs.Variables

/-!
# Values that are whole numbers

Whole numbers are exact as long as nothing makes floats of them, and there are two things that do: every
division, even one without a remainder, and a variable that is bound to a float. An expression with neither
has the value that the same sums, differences and products have among the integers, however large, and its
evaluation cannot fail. Any other value is a float. Both halves come from one fact: an evaluation ends with
a whole number exactly if `Expr.HasInteger` finds it without any arithmetic of floats
(`Expr.denote_eq_int_iff`).
-/

namespace Calculator

/-- What an operator makes of two integers among the integers. Division may lead out of them. -/
def BinaryOp.integer? (left right : Int) : BinaryOp → Option Int
  | add => some (left + right)
  | sub => some (left - right)
  | mul => some (left * right)
  | div => none

theorem BinaryOp.integer?_eq_none_iff {left right : Int} {op : BinaryOp} :
    op.integer? left right = none ↔ op = .div := by
  cases op <;> simp [integer?]

namespace Number

variable {op : BinaryOp} {left right : Number} {value : Int}

theorem applyFloats_ne_int (op : BinaryOp) (left right : Float) (value : Int) :
    applyFloats op left right ≠ .ok (.int value) := by
  cases op with
  | add => simp [applyFloats]
  | sub => simp [applyFloats]
  | mul => simp [applyFloats]
  | div =>
    rw [applyFloats]
    split <;> simp

theorem applyInts_eq_int_iff {left right : Int} :
    applyInts op left right = .ok (.int value) ↔ op.integer? left right = some value := by
  cases op with
  | add => simp [applyInts, BinaryOp.integer?]
  | sub => simp [applyInts, BinaryOp.integer?]
  | mul => simp [applyInts, BinaryOp.integer?]
  | div =>
    rw [applyInts, BinaryOp.integer?]
    split
    · simp
    · cases Binary64.ofQuotient? left right <;> simp

theorem neg_eq_int_iff {operand : Number} :
    neg operand = .int value ↔ ∃ inner, operand = .int inner ∧ -inner = value := by
  cases operand <;> simp [neg]

theorem apply_eq_int_iff :
    apply op left right = .ok (.int value) ↔
      ∃ leftInt rightInt, left = .int leftInt ∧ right = .int rightInt ∧ op.integer? leftInt rightInt = some value := by
  have hfloats (left right : Number) :
      (do applyFloats op (← left.toFloat) (← right.toFloat)) ≠ .ok (.int value) := by
    intro h
    obtain ⟨leftFloat, -, h⟩ := bind_eq_ok_iff.1 h
    obtain ⟨rightFloat, -, h⟩ := bind_eq_ok_iff.1 h
    exact applyFloats_ne_int op leftFloat rightFloat value h
  cases left with
  | int left =>
    cases right with
    | int right => simp [apply, applyInts_eq_int_iff]
    | float right => exact iff_of_false (hfloats (.int left) (.float right)) (by simp)
  | float left => exact iff_of_false (hfloats (.float left) right) (by simp)

end Number

namespace Expr

/-- Some operator is a division. -/
def HasDivision : Expr → Prop
  | absent | number _ | .variable _ => False
  | neg operand => operand.HasDivision
  | binary op left right => op = .div ∨ left.HasDivision ∨ right.HasDivision

/-- The expression has this value among the integers: it is made of signs, sums, differences and products of
numbers and of variables that are bound to whole numbers. -/
inductive HasInteger (bindings : Bindings Number) : Expr → Int → Prop where
  | number (value : Int) : HasInteger bindings (.number value) value
  | variable {name : String} {value : Int} (h : bindings name = some (.int value)) :
      HasInteger bindings (.variable name) value
  | neg {operand : Expr} {value : Int} (h : HasInteger bindings operand value) :
      HasInteger bindings (.neg operand) (-value)
  | binary {op : BinaryOp} {left right : Expr} {leftValue rightValue value : Int}
      (hleft : HasInteger bindings left leftValue) (hright : HasInteger bindings right rightValue)
      (hvalue : op.integer? leftValue rightValue = some value) : HasInteger bindings (.binary op left right) value

/-! ### What has a value -/

section Value

variable {ν ε : Type} {arithmetic : Arithmetic ν ε} {bindings : Bindings ν} {expr : Expr} {value : ν}

theorem complete_of_denote (h : expr.denote arithmetic bindings = .ok value) : expr.Complete := by
  induction expr generalizing value with
  | absent => simp [denote] at h
  | number constant => trivial
  | «variable» name => trivial
  | neg operand ih =>
    obtain ⟨inner, hinner, -⟩ := denote_neg_eq_ok_iff.1 h
    exact ih hinner
  | binary op left right ihLeft ihRight =>
    obtain ⟨leftValue, rightValue, hleft, hright, -⟩ := denote_binary_eq_ok_iff.1 h
    exact ⟨ihLeft hleft, ihRight hright⟩

theorem exists_eq_some_of_denote (h : expr.denote arithmetic bindings = .ok value) {name : String}
    (hname : expr.Mentions name) : ∃ bound, bindings name = some bound := by
  induction expr generalizing value with
  | absent => exact hname.elim
  | number constant => exact hname.elim
  | «variable» other =>
    obtain rfl : other = name := hname
    exact ⟨value, denote_variable_eq_ok_iff.1 h⟩
  | neg operand ih =>
    obtain ⟨inner, hinner, -⟩ := denote_neg_eq_ok_iff.1 h
    exact ih hinner hname
  | binary op left right ihLeft ihRight =>
    obtain ⟨leftValue, rightValue, hleft, hright, -⟩ := denote_binary_eq_ok_iff.1 h
    rcases hname with hname | hname
    · exact ihLeft hleft hname
    · exact ihRight hright hname

end Value

/-! ### What is a whole number -/

section Integer

variable {bindings : Bindings Number} {expr : Expr} {value : Int}

/-- Evaluation ends with a whole number exactly if the expression has it as its value among the integers. -/
theorem denote_eq_int_iff :
    expr.denote Number.arithmetic bindings = .ok (.int value) ↔ expr.HasInteger bindings value := by
  constructor
  · intro h
    induction expr generalizing value with
    | absent => simp [denote] at h
    | number constant =>
      obtain rfl := Number.int.inj (Except.ok.inj h)
      exact .number constant
    | «variable» name => exact .variable (denote_variable_eq_ok_iff.1 h)
    | neg operand ih =>
      obtain ⟨inner, hinner, h⟩ := denote_neg_eq_ok_iff.1 h
      obtain ⟨integer, rfl, rfl⟩ := Number.neg_eq_int_iff.1 (Except.ok.inj h)
      exact .neg (ih hinner)
    | binary op left right ihLeft ihRight =>
      obtain ⟨leftValue, rightValue, hleft, hright, h⟩ := denote_binary_eq_ok_iff.1 h
      obtain ⟨leftInt, rightInt, rfl, rfl, hvalue⟩ := Number.apply_eq_int_iff.1 h
      exact .binary (ihLeft hleft) (ihRight hright) hvalue
  · intro h
    induction h with
    | number value => rfl
    | «variable» h => exact denote_variable_eq_ok_iff.2 h
    | neg _ ih => exact denote_neg_eq_ok_iff.2 ⟨_, ih, rfl⟩
    | binary _ _ hvalue ihLeft ihRight =>
      have happly := Number.apply_eq_int_iff.2 ⟨_, _, rfl, rfl, hvalue⟩
      exact denote_binary_eq_ok_iff.2 ⟨_, _, ihLeft, ihRight, happly⟩

theorem HasInteger.not_hasDivision (h : expr.HasInteger bindings value) : ¬ expr.HasDivision := by
  induction h with
  | number value => exact id
  | «variable» h => exact id
  | neg _ ih => exact ih
  | binary _ _ hvalue ihLeft ihRight =>
    rintro (rfl | hleft | hright)
    · simp [BinaryOp.integer?] at hvalue
    · exact ihLeft hleft
    · exact ihRight hright

theorem HasInteger.exists_eq_int (h : expr.HasInteger bindings value) {name : String} (hname : expr.Mentions name) :
    ∃ bound, bindings name = some (.int bound) := by
  induction h with
  | number value => exact hname.elim
  | @«variable» other value h =>
    obtain rfl : other = name := hname
    exact ⟨value, h⟩
  | neg _ ih => exact ih hname
  | binary _ _ _ ihLeft ihRight =>
    rcases hname with hname | hname
    · exact ihLeft hname
    · exact ihRight hname

theorem exists_hasInteger (hcomplete : expr.Complete) (hdivision : ¬ expr.HasDivision)
    (hbound : ∀ name, expr.Mentions name → ∃ bound, bindings name = some (.int bound)) :
    ∃ value, expr.HasInteger bindings value := by
  induction expr with
  | absent => exact hcomplete.elim
  | number value => exact ⟨value, .number value⟩
  | «variable» name =>
    obtain ⟨value, hvalue⟩ := hbound name rfl
    exact ⟨value, .variable hvalue⟩
  | neg operand ih =>
    obtain ⟨value, hvalue⟩ := ih hcomplete hdivision hbound
    exact ⟨-value, .neg hvalue⟩
  | binary op left right ihLeft ihRight =>
    simp only [HasDivision, not_or] at hdivision
    obtain ⟨hop, hdivisionLeft, hdivisionRight⟩ := hdivision
    obtain ⟨leftValue, hleft⟩ := ihLeft hcomplete.1 hdivisionLeft fun name hname => hbound name (.inl hname)
    obtain ⟨rightValue, hright⟩ := ihRight hcomplete.2 hdivisionRight fun name hname => hbound name (.inr hname)
    obtain ⟨value, hvalue⟩ := Option.ne_none_iff_exists'.1 (mt BinaryOp.integer?_eq_none_iff.1 hop)
    exact ⟨value, .binary hleft hright hvalue⟩

end Integer

end Expr

/-- Without divisions, and with whole numbers for its variables, an expression evaluates to its exact value
among the integers. And whenever there is a value, it is a whole number exactly if there is no division and
no variable is bound to a float. -/
theorem eval_eq_integer_and_int_iff (bindings : Bindings Number) (expr : Expr) :
    (expr.Complete → ¬ expr.HasDivision →
        (∀ name, expr.Mentions name → ∃ bound, bindings name = some (.int bound)) →
        ∃ value, expr.HasInteger bindings value ∧ expr.eval Number.arithmetic bindings = .ok (.int value)) ∧
      ∀ number, expr.eval Number.arithmetic bindings = .ok number →
        ((∃ value, number = .int value) ↔
          ¬ expr.HasDivision ∧ ∀ name, expr.Mentions name → ∀ float, bindings name ≠ some (.float float)) := by
  simp only [Expr.eval_eq_denote]
  refine ⟨fun hcomplete hdivision hbound => ?_, fun number hnumber => ⟨?_, ?_⟩⟩
  · obtain ⟨value, hvalue⟩ := Expr.exists_hasInteger hcomplete hdivision hbound
    exact ⟨value, hvalue, Expr.denote_eq_int_iff.2 hvalue⟩
  · rintro ⟨value, rfl⟩
    have hvalue := Expr.denote_eq_int_iff.1 hnumber
    refine ⟨hvalue.not_hasDivision, fun name hname float hfloat => ?_⟩
    obtain ⟨bound, hbound⟩ := hvalue.exists_eq_int hname
    simp [hbound] at hfloat
  · rintro ⟨hdivision, hfloats⟩
    have hbound : ∀ name, expr.Mentions name → ∃ bound, bindings name = some (.int bound) := by
      intro name hname
      obtain ⟨bound, hbound⟩ := Expr.exists_eq_some_of_denote hnumber hname
      cases bound with
      | int bound => exact ⟨bound, hbound⟩
      | float float => exact absurd hbound (hfloats name hname float)
    obtain ⟨value, hvalue⟩ := Expr.exists_hasInteger (Expr.complete_of_denote hnumber) hdivision hbound
    exact ⟨value, Except.ok.inj (hnumber.symm.trans (Expr.denote_eq_int_iff.2 hvalue))⟩

/-- In `x*x--3` the square of a number beyond 2^53 is exact. The sign of a float is a float. -/
theorem eval_of_large_square_and_signed_float :
    let square := Expr.binary .sub (.binary .mul (.variable "x") (.variable "x")) (.neg (.number 3))
    let signed := Expr.neg (.variable "y")
    let bindings : Bindings Number := fun name =>
      if name = "x" then some (.int 10000000000000001) else some (.float 0.5)
    (square.Complete ∧ ¬ square.HasDivision ∧
        ∀ name, square.Mentions name → ∃ bound, bindings name = some (.int bound)) ∧
      square.HasInteger bindings 100000000000000020000000000000004 ∧
      square.eval Number.arithmetic bindings = .ok (.int 100000000000000020000000000000004) ∧
      signed.eval Number.arithmetic bindings = .ok (.float (-0.5)) ∧
      ((∃ value, Number.float (-0.5) = .int value) ↔
        ¬ signed.HasDivision ∧ ∀ name, signed.Mentions name → ∀ float, bindings name ≠ some (.float float)) := by
  intro square signed bindings
  have hcomplete : square.Complete := by decide
  have hdivision : ¬ square.HasDivision := by simp [square, Expr.HasDivision]
  have hbound : ∀ name, square.Mentions name → ∃ bound, bindings name = some (.int bound) := by
    rintro name ((rfl | rfl) | hnone)
    · exact ⟨_, rfl⟩
    · exact ⟨_, rfl⟩
    · exact hnone.elim
  have hsquare : square.eval Number.arithmetic bindings = .ok (.int 100000000000000020000000000000004) := by
    rw [Expr.eval_eq_denote]
    rfl
  have hsigned : signed.eval Number.arithmetic bindings = .ok (.float (-0.5)) := by
    rw [Expr.eval_eq_denote]
    rfl
  obtain ⟨value, hvalue, heval⟩ := (eval_eq_integer_and_int_iff bindings square).1 hcomplete hdivision hbound
  obtain rfl := Number.int.inj (Except.ok.inj (hsquare.symm.trans heval))
  exact ⟨⟨hcomplete, hdivision, hbound⟩, hvalue, hsquare, hsigned,
    (eval_eq_integer_and_int_iff bindings signed).2 _ hsigned⟩

end Calculator
