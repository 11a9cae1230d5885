import Calculator.Evaluation.Value
import Calculator.Expr.Postorder
import Calculator.Proofs.Results

/-!
# Evaluation on a stack

The nodes of a tree, each after its operands, are a program for a machine with a stack of numbers:
a number is pushed, and a function or an operator takes its operands from the stack and leaves its
result there.  The machine stops at the first instruction that fails.  It can fail in a way in
which an expression cannot, namely when an operand is missing; on the nodes of a tree this never
happens, and what it leaves is the value of the tree (`run_postorder`).

## The first failure

Which operation is the first one to fail can be said without the machine.  `Expr.parts` lists the
expressions that a tree is made of, in the order of their nodes, and the error of the tree is that
of the first part without a value.  `FirstFailure` says so, and says that the machine gets that far
and not further.  The machine works on an operand with other entries below it, which are values it
has seen already; for this reason both are proved for every stack, by induction on the tree.
-/

namespace Calculator

/-! ## The machine -/

namespace Machine

/-- Why an instruction fails: an operand is missing, or the operation has no result. -/
inductive Fault where
  | underflow
  | operation (e : EvaluationError)
deriving DecidableEq, Repr

/-- The result of an operation on top of a stack. -/
def onto (stack : List Number) (result : Except EvaluationError Number) :
    Except Fault (List Number) :=
  (result.map (· :: stack)).mapError .operation

/-- The stack behind an instruction.  The right operand of an operator is above the left one. -/
def execute (stack : List Number) : Instruction → Except Fault (List Number)
  | .push n => .ok (n :: stack)
  | .call f =>
    match stack with
    | argument :: stack => onto stack (f.eval argument)
    | [] => .error .underflow
  | .apply o =>
    match stack with
    | right :: left :: stack => onto stack (o.eval left right)
    | _ => .error .underflow

/-- The stack behind all instructions, or the fault of the first one that fails. -/
def run (stack : List Number) : List Instruction → Except Fault (List Number)
  | [] => .ok stack
  | i :: rest => do
    let stack ← execute stack i
    run stack rest

variable {stack : List Number} {result : Except EvaluationError Number} {e : EvaluationError}

@[simp] theorem onto_ok (n : Number) : onto stack (.ok n) = .ok (n :: stack) := rfl

@[simp] theorem onto_error : onto stack (.error e) = .error (.operation e) := rfl

/-- An operation that fails fails on every stack, and with its own error. -/
@[simp] theorem onto_eq_error_iff {fault : Fault} :
    onto stack result = .error fault ↔ ∃ e, result = .error e ∧ fault = .operation e := by
  cases result <;> simp [eq_comm]

/-- The machine goes on with the stack that it has reached, unless it has stopped. -/
theorem run_append (before later : List Instruction) :
    run stack (before ++ later) = run stack before >>= (run · later) := by
  induction before generalizing stack with
  | nil => rfl
  | cons i rest ih =>
    rw [List.cons_append, run, run]
    cases execute stack i with
    | error => rfl
    | ok next => exact ih

/-- One instruction more is executed on the stack that is reached. -/
theorem run_concat (before : List Instruction) (i : Instruction) :
    run stack (before ++ [i]) = run stack before >>= (execute · i) := by
  have single (next : List Number) : run next [i] = execute next i := by
    rw [run]
    cases execute next i <;> rfl
  simp only [run_append, single]

/-- Nothing that comes later changes how the machine has stopped. -/
theorem run_append_of_error {before : List Instruction} {fault : Fault}
    (failed : run stack before = .error fault) (later : List Instruction) :
    run stack (before ++ later) = .error fault := by
  rw [run_append, failed]
  rfl

end Machine

open Machine

/-- **The nodes of an expression leave its value on the stack**, or fail as it does. -/
theorem Expr.run_postorder (t : Expr) (stack : List Number) :
    run stack t.postorder = onto stack t.value := by
  induction t generalizing stack with
  | number n => rfl
  | call f argument ih =>
    rw [postorder, run_concat, ih, value]
    cases argument.value <;> rfl
  | binary left o right ihl ihr =>
    rw [postorder, run_concat, run_append, ihl, value]
    cases left.value with
    | error => rfl
    | ok l =>
      refine (congrArg (· >>= (execute · (.apply o))) (ihr (l :: stack))).trans ?_
      cases right.value <;> rfl

/-! ## Parts -/

namespace Expr

variable {stack : List Number} {t s argument left right : Expr} {f : Function} {o : Operator}
  {before : List Expr} {e : EvaluationError} {n : Number}

/-- The expressions that an expression is made of, each after its operands. -/
def parts : Expr → List Expr
  | number n => [number n]
  | call f argument => argument.parts ++ [call f argument]
  | binary left o right => left.parts ++ right.parts ++ [binary left o right]

/-- What is done last to evaluate an expression. -/
def node : Expr → Instruction
  | number n => .push n
  | call f _ => .call f
  | binary _ o _ => .apply o

/-- The nodes of a tree are those of its parts. -/
theorem map_node_parts (t : Expr) : t.parts.map node = t.postorder := by
  induction t with
  | number n => rfl
  | call f argument ih => simp [parts, postorder, node, ih]
  | binary left o right ihl ihr => simp [parts, postorder, node, ihl, ihr]

/-- The parts of an expression with a value have values. -/
theorem forall_parts_value (known : t.value = .ok n) : ∀ p ∈ t.parts, ∃ m, p.value = .ok m := by
  induction t generalizing n with
  | number m => exact List.forall_mem_singleton.mpr ⟨n, known⟩
  | call f argument ih =>
    obtain ⟨a, inner, -⟩ := bind_eq_ok_iff.mp known
    exact List.forall_mem_append.mpr ⟨ih inner, List.forall_mem_singleton.mpr ⟨n, known⟩⟩
  | binary left o right ihl ihr =>
    obtain ⟨l, inLeft, rest⟩ := bind_eq_ok_iff.mp known
    obtain ⟨r, inRight, -⟩ := bind_eq_ok_iff.mp rest
    have operands := List.forall_mem_append.mpr ⟨ihl inLeft, ihr inRight⟩
    exact List.forall_mem_append.mpr ⟨operands, List.forall_mem_singleton.mpr ⟨n, known⟩⟩

/-- The nodes of the parts of an expression with a value leave that value. -/
theorem run_parts (known : t.value = .ok n) :
    run stack (t.parts.map node) = .ok (n :: stack) := by
  rw [map_node_parts, run_postorder, known, onto_ok]

/-! ## The first failure -/

/-- The first part without a value, and those before it.  The machine, with some entries on its
stack, executes the nodes of all parts before it and stops at its node. -/
structure FirstFailure (stack : List Number) (t : Expr) (before : List Expr) (s : Expr)
    (e : EvaluationError) : Prop where
  begins : before ++ [s] <+: t.parts
  known : ∀ p ∈ before, ∃ n, p.value = .ok n
  failed : s.value = .error e
  stops : ∃ reached, run stack (before.map node) = .ok reached ∧
    execute reached s.node = .error (.operation e)

/-- The first failure in an operand that is evaluated at once is that of the whole. -/
theorem FirstFailure.of_prefix (first : FirstFailure stack argument before s e)
    (atOnce : argument.parts <+: t.parts) : FirstFailure stack t before s e :=
  { first with begins := first.begins.trans atOnce }

/-- The first failure in a right operand is that of the whole if the left operand has a value,
which is then on the stack. -/
theorem FirstFailure.of_right {l : Number} (known : left.value = .ok l)
    (first : FirstFailure (l :: stack) right before s e) :
    FirstFailure stack (binary left o right) (left.parts ++ before) s e where
  begins := by
    rw [List.append_assoc]
    exact ((List.prefix_append_right_inj _).mpr first.begins).trans (List.prefix_append _ _)
  known := List.forall_mem_append.mpr ⟨forall_parts_value known, first.known⟩
  failed := first.failed
  stops := by
    rw [List.map_append, run_append, run_parts known]
    exact first.stops

/-- An operation that fails on values is the first failure. -/
theorem FirstFailure.last {reached : List Number} (last : t.parts = before ++ [t])
    (known : ∀ p ∈ before, ∃ n, p.value = .ok n) (failed : t.value = .error e)
    (reaches : run stack (before.map node) = .ok reached) : FirstFailure stack t before t e where
  begins := last ▸ List.prefix_rfl
  known := known
  failed := failed
  stops := by
    refine ⟨reached, reaches, ?_⟩
    have whole := run_postorder t stack
    rwa [← map_node_parts, last, List.map_append, List.map_singleton, run_concat, reaches,
      failed] at whole

/-- **An expression that fails has a first failure, with its error.** -/
theorem exists_firstFailure (failed : t.value = .error e) (stack : List Number) :
    ∃ before s, FirstFailure stack t before s e := by
  induction t generalizing stack with
  | number n => cases failed
  | call f argument ih =>
    rcases bind_eq_error_iff.mp failed with inner | ⟨a, known, -⟩
    · obtain ⟨before, s, first⟩ := ih inner stack
      exact ⟨before, s, first.of_prefix (List.prefix_append _ _)⟩
    · exact ⟨_, _, .last rfl (forall_parts_value known) failed (run_parts known)⟩
  | binary left o right ihl ihr =>
    rcases bind_eq_error_iff.mp failed with inLeft | ⟨l, knownLeft, rest⟩
    · obtain ⟨before, s, first⟩ := ihl inLeft stack
      refine ⟨before, s, first.of_prefix ?_⟩
      rw [parts, List.append_assoc]
      exact List.prefix_append _ _
    rcases bind_eq_error_iff.mp rest with inRight | ⟨r, knownRight, -⟩
    · obtain ⟨before, s, first⟩ := ihr inRight (l :: stack)
      exact ⟨_, s, first.of_right knownLeft⟩
    · have reaches : run stack ((left.parts ++ right.parts).map node) = .ok (r :: l :: stack) := by
        rw [List.map_append, run_append, run_parts knownLeft]
        exact run_parts knownRight
      have operands := List.forall_mem_append.mpr
        ⟨forall_parts_value knownLeft, forall_parts_value knownRight⟩
      exact ⟨_, _, .last rfl operands failed reaches⟩

/-- The machine stops at the first failure, whatever instructions come later. -/
theorem FirstFailure.run_append_eq_error (first : FirstFailure stack t before s e)
    (later : List Instruction) :
    run stack ((before ++ [s]).map node ++ later) = .error (.operation e) := by
  obtain ⟨reached, reaches, stops⟩ := first.stops
  refine run_append_of_error ?_ later
  rw [List.map_append, List.map_singleton, run_concat, reaches]
  exact stops

/-- The error of the first failure is that of the whole. -/
theorem FirstFailure.value_eq_error (first : FirstFailure stack t before s e) :
    t.value = .error e := by
  obtain ⟨after, split⟩ := first.begins
  have stopped := first.run_append_eq_error (after.map node)
  rw [← List.map_append, split, map_node_parts, run_postorder] at stopped
  obtain ⟨e', failed, ⟨⟩⟩ := onto_eq_error_iff.mp stopped
  exact failed

/-- **The value of an expression is what the machine makes of its nodes.**  No operand is ever
missing, and one entry is left if nothing fails.  The expression has an error exactly where that is
the error of the first of its parts to fail, at whose node the machine stops, whatever instructions
come after that node. -/
theorem value_eq_run (t : Expr) :
    run [] t.postorder = (t.value.map fun n => [n]).mapError .operation ∧
    (∀ k, run [] (t.postorder.take k) ≠ .error .underflow) ∧
    ∀ e, t.value = .error e ↔ ∃ before s, FirstFailure [] t before s e ∧
      ∀ later, run [] ((before ++ [s]).map node ++ later) = .error (.operation e) := by
  have whole : run [] t.postorder = onto [] t.value := run_postorder t []
  refine ⟨whole, fun k missing => ?_, fun e => ⟨fun failed => ?_, ?_⟩⟩
  · have missing := run_append_of_error missing (t.postorder.drop k)
    rw [List.take_append_drop, whole] at missing
    obtain ⟨e, -, ⟨⟩⟩ := onto_eq_error_iff.mp missing
  · obtain ⟨before, s, first⟩ := exists_firstFailure failed []
    exact ⟨before, s, first, first.run_append_eq_error⟩
  · rintro ⟨before, s, first, -⟩
    exact first.value_eq_error

/-- In `1/0 + ln 0` the machine stops at the division. -/
example : run [] (binary (binary (number (.integer 1)) .div (number (.integer 0))) .add
    (call .ln (number (.integer 0)))).postorder = .error (.operation .divisionByZero) := rfl

end Expr
end Calculator
