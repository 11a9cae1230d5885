import Calculator.Evaluation.Integer
import Calculator.Number
import Calculator.Operator

/-!
# Operations on numbers

What the operators and functions do to values.  Sums, differences, products, moduli and
absolute values of integers are exact integers, and so are powers of integers with an
exponent that is not negative; every other operation widens its operands to reals and
gives a real.  Real arithmetic is that of IEEE 754 doubles, and a result may be infinite
or undefined; an error arises only where an operation itself refuses its operands.

## Refusals

Division refuses a divisor of zero, a power the case of zero to the zeroth, a negative
integer exponent of zero and a real exponent of a base that is not positive.  Logarithms
refuse arguments that are not positive, the inverse trigonometric functions arguments
outside of an interval, and the modulus operands that are not integers.

A root is a power with the reciprocal of its degree.  Of a negative number there are
only roots of odd integer degree, the negated roots of its size.  The tests are made in
this order: zero under a root of negative degree, an odd integer degree, a negative
number, a degree of zero.
-/

namespace Calculator

open EvaluationError

namespace Number

/-- An operation that is exact on two integers and otherwise one on reals. -/
def arithmetic (onIntegers : Int64 → Int64 → Except EvaluationError Int64)
    (onReals : Float → Float → Float) (left right : Number) : Except EvaluationError Number :=
  match left, right with
  | integer a, integer b => (onIntegers a b).map integer
  | _, _ => .ok (real (onReals left.toReal right.toReal))

/-- The real quotient. -/
def quotient (left right : Number) : Except EvaluationError Number :=
  if right.isZero then .error divisionByZero else .ok (real (left.toReal / right.toReal))

/-- A power as a real. -/
def realPower (base exponent : Number) : Number := real (Float.pow base.toReal exponent.toReal)

/-- The power, exact for an integer and an integer exponent that is not negative. -/
def power (base exponent : Number) : Except EvaluationError Number :=
  if base.isZero && exponent.isZero then .error zeroToZeroPower
  else
    match base, exponent with
    | _, real _ =>
      if base.toReal ≤ 0.0 then .error nonIntegerPowerOfNonPositive
      else .ok (realPower base exponent)
    | _, integer e =>
      if e < 0 then
        if base.isZero then .error divisionByZero else .ok (realPower base exponent)
      else
        match base with
        | integer b => (Integer.power b e).map integer
        | real _ => .ok (realPower base exponent)

/-- The floored modulus of two integers. -/
def modulus : Number → Number → Except EvaluationError Number
  | integer a, integer b =>
    match Integer.floorMod? a b with
    | some remainder => .ok (integer remainder)
    | none => .error divisionByZero
  | _, _ => .error modulusOfNonInteger

/-- The logarithm of a number to a base.  The base is not tested.  One of one divides by zero,
so that the result is undefined for the argument one and infinite for every other number; one
that is not positive gives an undefined or a zero result. -/
def logarithm (argument base : Number) : Except EvaluationError Number :=
  if argument.toReal ≤ 0.0 then .error nonPositiveLog
  else .ok (real (argument.toReal.log / base.toReal.log))

/-- The root of a number, its power with the reciprocal of the degree. -/
def root (radicand degree : Number) : Except EvaluationError Number :=
  let x := radicand.toReal
  let exponent := 1.0 / degree.toReal
  if radicand.isZero && degree.isNegative then .error divisionByZero
  else if degree.isOddInteger then
    let size := Float.pow x.abs exponent
    .ok (real (if radicand.isNegative then -size else size))
  else if radicand.isNegative then .error negativeRoot
  else if degree.isZero then .error divisionByZero
  else if degree = integer 2 then .ok (real x.sqrt)
  else .ok (real (Float.pow x exponent))

/-- A function of a real that is defined on a closed interval. -/
def onInterval (low high : Float) (outside : EvaluationError) (f : Float → Float) (x : Float) :
    Except EvaluationError Number :=
  if low ≤ x ∧ x ≤ high then .ok (real (f x)) else .error outside

end Number

/-- Half the circle constant, rounded to the nearest double. -/
def halfPi : Float := 1.5707963267948966

/-- The result of an operator. -/
def Operator.eval : Operator → Number → Number → Except EvaluationError Number
  | add => Number.arithmetic Integer.add (· + ·)
  | sub => Number.arithmetic Integer.sub (· - ·)
  | mul => Number.arithmetic Integer.mul (· * ·)
  | div => Number.quotient
  | pow => Number.power
  | mod => Number.modulus
  | logBase => Number.logarithm
  | root => Number.root

/-- The result of a function. -/
def Function.eval (f : Function) (argument : Number) : Except EvaluationError Number :=
  match f with
  | sin => .ok (.real argument.toReal.sin)
  | cos => .ok (.real argument.toReal.cos)
  | tan => .ok (.real argument.toReal.tan)
  | arcsin => Number.onInterval (-1.0) 1.0 arcsinOutOfRange Float.asin argument.toReal
  | arccos => Number.onInterval (-1.0) 1.0 arccosOutOfRange Float.acos argument.toReal
  | arctan => Number.onInterval (-halfPi) halfPi arctanOutOfRange Float.atan argument.toReal
  | squareRoot => Number.root argument (.integer 2)
  | ln =>
    if argument.toReal ≤ 0.0 then .error nonPositiveLn else .ok (.real argument.toReal.log)
  | abs =>
    match argument with
    | .integer n => (Integer.abs n).map .integer
    | .real x => .ok (.real x.abs)

end Calculator
