import Calculator.Evaluation.Operation
import Calculator.Expr

/-!
# The value of an expression

An expression tree is evaluated from its leaves up, the left operand of an operator
before the right one and both before the operator.  The first operation that fails
decides the result, and nothing after it is evaluated.
-/

namespace Calculator

/-- The value of an expression, or the error of the first operation that fails. -/
def Expr.value : Expr → Except EvaluationError Number
  | number n => .ok n
  | call f argument => do
    let a ← argument.value
    f.eval a
  | binary left o right => do
    let l ← left.value
    let r ← right.value
    o.eval l r

end Calculator
