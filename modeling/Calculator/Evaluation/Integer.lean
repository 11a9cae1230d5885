import Calculator.Evaluation.Error

/-!
# Exact integer arithmetic

Integers have 64 bits, and no operation on them wraps around.  `exact` takes a result
computed in unbounded integers and keeps it when it fits, so sums, differences, products
and absolute values are what they are in mathematics or an overflow.

## Powers

The exact power is computed only where it can fit.  The bases `0`, `1` and `-1` have a
power for every exponent.  Every other base has at least the size of two, so that no
power with an exponent of 64 or more fits; for these bases the exponent also has to be a
32-bit number, as `exponentWord` requires.

## Remainders

The remainder of a floored division has the sign of the divisor.  It is found from the
truncated remainder, which has the sign of the dividend, by adding the divisor once when
the signs differ.  The two summands have opposite signs then, so the sum fits.
-/

namespace Calculator
namespace Integer

/-- The 64-bit integer equal to a result, or an overflow. -/
def exact (n : Int) : Except EvaluationError Int64 :=
  if Int64.minValue.toInt ≤ n ∧ n ≤ Int64.maxValue.toInt then .ok (Int64.ofInt n)
  else .error .overflow

/-- The sum of two integers, if it fits. -/
def add (a b : Int64) : Except EvaluationError Int64 := exact (a.toInt + b.toInt)

/-- The difference of two integers, if it fits. -/
def sub (a b : Int64) : Except EvaluationError Int64 := exact (a.toInt - b.toInt)

/-- The product of two integers, if it fits. -/
def mul (a b : Int64) : Except EvaluationError Int64 := exact (a.toInt * b.toInt)

/-- The absolute value of an integer, if it fits; that of the least one does not. -/
def abs (a : Int64) : Except EvaluationError Int64 := exact a.toInt.natAbs

/-- An exponent as a 32-bit number, if it is one. -/
def exponentWord (n : Int64) : Except EvaluationError UInt32 :=
  if 0 ≤ n.toInt ∧ n.toInt < 4294967296 then .ok (UInt32.ofNat n.toInt.toNat)
  else .error .overflow

/-- The power of an integer with an exponent that is not negative, if it fits. -/
def power (base exponent : Int64) : Except EvaluationError Int64 :=
  if exponent = 0 then .ok 1
  else if base = 0 ∨ base = 1 then .ok base
  else if base = -1 then .ok (if exponent.toInt % 2 = 0 then 1 else -1)
  else
    match exponentWord exponent with
    | .error e => .error e
    | .ok word => if 64 ≤ word then .error .overflow else exact (Int.pow base.toInt word.toNat)

/-- The remainder of the floored division of two integers; there is none by zero. -/
def floorMod? (a b : Int64) : Option Int64 :=
  if b = 0 then none
  else
    let remainder := a % b
    if remainder ≠ 0 ∧ (decide (remainder < 0)) ≠ decide (b < 0) then some (remainder + b)
    else some remainder

end Integer
end Calculator
