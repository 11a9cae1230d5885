import Calculator.Number
import Calculator.Operator

/-!
# Expressions

An expression that has been read is a tree.  Parentheses are gone, constants have become
the real numbers they name, and a leading minus sign has become a subtraction from the
integer zero, so three kinds of node are enough.

`Expr.text` writes a tree with all its parentheses.  The ones around the argument of a
function are left out where the argument brings its own.
-/

namespace Calculator

/-- An expression tree. -/
inductive Expr where
  | number (n : Number)
  | call (f : Function) (argument : Expr)
  | binary (left : Expr) (o : Operator) (right : Expr)
deriving DecidableEq, Repr

namespace Expr

/-- Whether the outermost node is an operator with its operands. -/
def isBinary : Expr → Bool
  | binary .. => true
  | number _ | call .. => false

/-- A tree written with all its parentheses. -/
def text : Expr → String
  | number n => n.text
  | call f argument =>
    if argument.isBinary then f.name ++ argument.text else f.name ++ "(" ++ argument.text ++ ")"
  | binary left o right => "(" ++ left.text ++ " " ++ o.symbol ++ " " ++ right.text ++ ")"

/-- The number of steps from the outermost node to the deepest leaf. -/
def depth : Expr → Nat
  | number _ => 0
  | call _ argument => argument.depth + 1
  | binary left _ right => max left.depth right.depth + 1

end Expr
end Calculator
