/-!
# Operators, functions and constants

The vocabulary of expressions apart from numbers and parentheses.  Eight operators
stand between two operands, five of them written as symbols and three as words; nine
functions stand before one operand; two constants stand for real numbers.

## Binding strength

`Operator.precedence` orders the operators by how tightly they bind, and
`Precedence.admits` turns that order into the one question a reader of expressions
asks: may an operand that is being read at some least precedence be continued by this
operator?  Operators of equal precedence group to the left, so an operator does not
continue an operand read at its own precedence, with `^`, which groups to the right, as
the one exception.  The lowest precedence admits every operator and belongs to no
operator; the two highest admit none.
-/

namespace Calculator

/-- How tightly a place in an expression binds, from the loosest to the tightest. -/
inductive Precedence where
  | lowest
  | sum
  | product
  | power
  | call
  | group
deriving DecidableEq, Repr

namespace Precedence

/-- The place of a precedence in the order from loose to tight. -/
def rank : Precedence → Nat
  | lowest => 0
  | sum => 1
  | product => 2
  | power => 3
  | call => 4
  | group => 5

instance : LE Precedence := ⟨fun p q => p.rank ≤ q.rank⟩

instance : LT Precedence := ⟨fun p q => p.rank < q.rank⟩

instance (p q : Precedence) : Decidable (p ≤ q) := inferInstanceAs (Decidable (p.rank ≤ q.rank))

instance (p q : Precedence) : Decidable (p < q) := inferInstanceAs (Decidable (p.rank < q.rank))

/-- Which of two precedences binds more tightly. -/
def compare (p q : Precedence) : Ordering := Ord.compare p.rank q.rank

end Precedence

/-- The operators that stand between two operands. -/
inductive Operator where
  | add
  | sub
  | mul
  | div
  | pow
  | mod
  | logBase
  | root
deriving DecidableEq, Repr

namespace Operator

/-- How an operator is written. -/
def symbol : Operator → String
  | add => "+"
  | sub => "-"
  | mul => "*"
  | div => "/"
  | pow => "^"
  | mod => "mod"
  | logBase => "log_base"
  | root => "yth_root"

/-- Whether an operator is written as a word. -/
def isWord : Operator → Bool
  | mod | logBase | root => true
  | add | sub | mul | div | pow => false

/-- How tightly an operator binds its operands. -/
def precedence : Operator → Precedence
  | add | sub => .sum
  | mul | div => .product
  | pow => .power
  | mod | logBase | root => .call

/-- Whether a chain of this operator groups to the right. -/
def isRightAssociative : Operator → Bool
  | pow => true
  | _ => false

end Operator

/-- Whether an operand read at this least precedence may go on with an operator: the
operator binds more tightly, or equally tightly and groups to the right. -/
def Precedence.admits (least : Precedence) (o : Operator) : Bool :=
  decide (least < o.precedence) || (decide (least = o.precedence) && o.isRightAssociative)

@[simp] theorem Precedence.lowest_admits (o : Operator) : Precedence.lowest.admits o = true := by
  cases o <;> rfl

@[simp] theorem Precedence.call_admits (o : Operator) : Precedence.call.admits o = false := by
  cases o <;> rfl

/-- The functions of one operand, which is written after the name. -/
inductive Function where
  | sin
  | cos
  | tan
  | arcsin
  | arccos
  | arctan
  | squareRoot
  | ln
  | abs
deriving DecidableEq, Repr

/-- How a function is written. -/
def Function.name : Function → String
  | sin => "sin"
  | cos => "cos"
  | tan => "tan"
  | arcsin => "arcsin"
  | arccos => "arccos"
  | arctan => "arctan"
  | squareRoot => "sroot"
  | ln => "ln"
  | abs => "abs"

/-- The named real numbers. -/
inductive Constant where
  | pi
  | e
deriving DecidableEq, Repr

namespace Constant

/-- How a constant is written. -/
def name : Constant → String
  | pi => "pi"
  | e => "e"

/-- The double nearest to a constant. -/
def value : Constant → Float
  | pi => 3.141592653589793
  | e => 2.718281828459045

end Constant
end Calculator
