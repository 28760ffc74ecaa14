/-!
# Decimal numerals

A numeral is a run of the digits `0` to `9`. Whole numbers are read from numerals and written as
numerals of at most `Numeral.maxDigits` digits. A longer one is refused in either direction, because
the work of converting it grows with the square of its length. Numbers of any size may still be
computed with: the limit is on their texts alone.
-/

namespace Calculator

inductive NumeralError where
  /-- A numeral of this many digits, leading zeros counted, was to be read. -/
  | tooLongToRead (digits : Nat)
  /-- A number with more than `Numeral.maxDigits` digits was to be written. -/
  | tooLongToWrite
  deriving DecidableEq, Repr

def NumeralError.message : NumeralError → String
  | tooLongToRead digits =>
    "Exceeds the limit (4300 digits) for integer string conversion: value has " ++ digits.repr ++
      " digits; use sys.set_int_max_str_digits() to increase the limit"
  | tooLongToWrite =>
    "Exceeds the limit (4300 digits) for integer string conversion; " ++
      "use sys.set_int_max_str_digits() to increase the limit"

namespace Numeral

def maxDigits : Nat := 4300

/-- The least natural number whose numeral is too long. -/
def bound : Nat := Nat.pow 10 maxDigits

def read (digits : List Char) : Except NumeralError Nat :=
  if digits.length ≤ maxDigits then .ok (Nat.ofDigitChars 10 digits 0)
  else .error (.tooLongToRead digits.length)

/-- The numeral without leading zeros, behind a minus for a negative number. The minus does not count
towards the limit. -/
def write (value : Int) : Except NumeralError String :=
  if value.natAbs < bound then
    .ok (if value < 0 then "-" ++ value.natAbs.repr else value.natAbs.repr)
  else .error .tooLongToWrite

theorem length_toDigits_le_maxDigits_iff {n : Nat} : (Nat.toDigits 10 n).length ≤ maxDigits ↔ n < bound := by
  have hpos : 0 < maxDigits := by decide
  delta bound
  rw [Nat.pow_eq, Nat.length_toDigits_le_iff (by decide) hpos]

theorem read_toDigits {n : Nat} (h : n < bound) : read (Nat.toDigits 10 n) = .ok n := by
  have hlength := length_toDigits_le_maxDigits_iff.2 h
  rw [read, if_pos hlength, Nat.ofDigitChars_toDigits (by decide) (by decide)]

private theorem ofDigitChars_lt {digits : List Char} (h : ∀ c ∈ digits, c.isDigit) (start : Nat) :
    Nat.ofDigitChars 10 digits start < (start + 1) * Nat.pow 10 digits.length := by
  induction digits generalizing start with
  | nil =>
    rw [Nat.ofDigitChars_nil]
    exact Nat.lt_of_lt_of_eq (Nat.lt_succ_self start) (Nat.mul_one _).symm
  | cons c digits ih =>
    have hdigit := (Char.isDigit_iff_toNat.1 (h c List.mem_cons_self)).2
    have hvalue : c.toNat - '0'.toNat ≤ 9 := Nat.sub_le_sub_right hdigit _
    have hrest := ih (fun d hd => h d (List.mem_cons_of_mem c hd)) (10 * start + (c.toNat - '0'.toNat))
    have hstart : 10 * start + (c.toNat - '0'.toNat) + 1 ≤ (start + 1) * 10 := by omega
    have hpow : (start + 1) * Nat.pow 10 (digits.length + 1) = (start + 1) * 10 * Nat.pow 10 digits.length := by
      rw [Nat.pow_eq, Nat.pow_succ', Nat.mul_assoc]
      rfl
    rw [Nat.ofDigitChars_cons, List.length_cons, hpow]
    exact Nat.lt_of_lt_of_le hrest (Nat.mul_le_mul_right _ hstart)

/-- A numeral that is read stands for a number that can be written. -/
theorem lt_bound_of_read {digits : List Char} {n : Nat} (hdigits : ∀ c ∈ digits, c.isDigit)
    (h : read digits = .ok n) : n < bound := by
  unfold read at h
  split at h
  · rename_i hlength
    obtain rfl := Except.ok.inj h
    have hlt := ofDigitChars_lt hdigits 0
    rw [Nat.zero_add, Nat.one_mul, Nat.pow_eq] at hlt
    delta bound
    rw [Nat.pow_eq]
    exact Nat.lt_of_lt_of_le hlt (Nat.pow_le_pow_right (by decide) hlength)
  · nomatch h

theorem write_natCast {n : Nat} (h : n < bound) : write n = .ok (String.ofList (Nat.toDigits 10 n)) := by
  rw [write, if_pos (by rwa [Int.natAbs_natCast]), if_neg (by omega), Int.natAbs_natCast,
    Nat.repr_eq_ofList_toDigits]

end Numeral

end Calculator
