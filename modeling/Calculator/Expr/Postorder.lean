import Calculator.Expr

/-!
# Trees as sequences of instructions

A tree can be written down without parentheses by naming every node after its operands.
Read as instructions to a stack, that sequence says: a number is pushed, a function
replaces the topmost entry, and an operator replaces the two topmost entries, the lower
of which is its left operand.  `Expr.postorder` writes the sequence and
`Expr.ofPostorder?` builds the tree again; no other tree has the same sequence, because
`ofPostorder?_postorder` recovers the tree from it.
-/

namespace Calculator

/-- One node of a tree, as an instruction to a stack. -/
inductive Instruction where
  | push (n : Number)
  | call (f : Function)
  | apply (o : Operator)
deriving DecidableEq, Repr

namespace Expr

/-- The nodes of a tree, each after its operands. -/
def postorder : Expr → List Instruction
  | number n => [.push n]
  | call f argument => argument.postorder ++ [.call f]
  | binary left o right => left.postorder ++ right.postorder ++ [.apply o]

/-- The stack of trees that a sequence of instructions leaves, unless it asks for an
operand that is not there. -/
def stackOfPostorder? (stack : List Expr) : List Instruction → Option (List Expr)
  | [] => some stack
  | .push n :: rest => stackOfPostorder? (number n :: stack) rest
  | .call f :: rest =>
    match stack with
    | argument :: stack => stackOfPostorder? (call f argument :: stack) rest
    | [] => none
  | .apply o :: rest =>
    match stack with
    | right :: left :: stack => stackOfPostorder? (binary left o right :: stack) rest
    | _ => none

/-- The tree that a sequence of instructions builds, if it builds exactly one. -/
def ofPostorder? (instructions : List Instruction) : Option Expr :=
  match stackOfPostorder? [] instructions with
  | some [tree] => some tree
  | _ => none

/-- The nodes of a tree leave that tree on top of the stack. -/
theorem stackOfPostorder?_postorder_append (tree : Expr) (stack : List Expr)
    (rest : List Instruction) :
    stackOfPostorder? stack (tree.postorder ++ rest) =
      stackOfPostorder? (tree :: stack) rest := by
  induction tree generalizing stack rest with
  | number n => simp [postorder, stackOfPostorder?]
  | call f argument ih => simp [postorder, ih, stackOfPostorder?]
  | binary left o right ihl ihr => simp [postorder, ihl, ihr, stackOfPostorder?]

/-- A tree is recovered from the sequence of its nodes. -/
@[simp] theorem ofPostorder?_postorder (tree : Expr) :
    ofPostorder? tree.postorder = some tree := by
  have h := stackOfPostorder?_postorder_append tree [] []
  rw [List.append_nil] at h
  simp [ofPostorder?, h, stackOfPostorder?]

end Expr
end Calculator
