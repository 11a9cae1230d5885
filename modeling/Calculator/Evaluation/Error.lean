/-!
# Errors of evaluation

An expression that can be read may still have no value.  Each reason is a constructor
here, and `EvaluationError.message` is the one place where the reasons are put into
words.
-/

namespace Calculator

/-- The reasons why an expression has no value. -/
inductive EvaluationError where
  | divisionByZero
  | zeroToZeroPower
  | nonIntegerPowerOfNonPositive
  | modulusOfNonInteger
  | nonPositiveLog
  | negativeRoot
  | nonPositiveLn
  | arcsinOutOfRange
  | arccosOutOfRange
  | arctanOutOfRange
  | overflow
deriving DecidableEq, Repr

/-- What is said about an expression that has no value. -/
def EvaluationError.message : EvaluationError → String
  | divisionByZero => "division by zero"
  | zeroToZeroPower => "0 ^ 0 is undefined"
  | nonIntegerPowerOfNonPositive => "non-integer power of a non-positive number"
  | modulusOfNonInteger => "modulus with non-integer arguments"
  | nonPositiveLog => "non-positive number in log"
  | negativeRoot => "negative number in a root"
  | nonPositiveLn => "non-positive number in ln"
  | arcsinOutOfRange => "asin value out of [-1, 1]"
  | arccosOutOfRange => "acos value out of [-1, 1]"
  | arctanOutOfRange => "atan value out of [-pi/2, pi/2]"
  | overflow => "integer overflow"

end Calculator
