import Calculator.Evaluation.Value
import Calculator.Proofs.Integer
import Calculator.Proofs.Results
import Mathlib.Algebra.Order.Group.Unbundled.Int

/-!
# Integer values are exact

The value of an expression in unbounded integers, and what it has to do with the value that is
computed.  `Expr.int?` is a second evaluation: it knows sums, differences, products, powers,
moduli and absolute values, has no bound, and gives nothing where a real number takes part.
The two agree in the only way they can.  The computed value is an integer exactly when the
unbounded one is there and fits at every place in the tree, and then it is that integer; and an
overflow is reported only if there is a place where the unbounded value is there and does not
fit.

## One operation

`Exact result z?` says this of a single operation: the integer that it gives is the unbounded
one, and it reports an overflow only for an unbounded result that does not fit.  The operations
that give reals, and those that refuse their operands for another reason, are exact for
nothing at all (`exact_real`, `exact_error`).  So there is one statement for every operator and
every pair of operands, integers or not (`Operator.exact_eval`), and the same for the functions.

## A whole tree

A tree may have an unbounded value that fits although a part of it does not, so that the
computation stops at this part.  For this reason the statement about trees is about all places
of a tree, `IsPartOf`, and the induction is one over the tree with a case for every kind of
node.
-/

namespace Calculator

open Integer (Fits)

/-- The unbounded integer that a number is; a real number is none. -/
def Number.int? : Number → Option Int
  | integer n => some n.toInt
  | real _ => none

/-- The result of an operator in unbounded integers. -/
def Operator.int? : Operator → Int → Int → Option Int
  | add, a, b => some (a + b)
  | sub, a, b => some (a - b)
  | mul, a, b => some (a * b)
  | pow, a, b => if b < 0 ∨ a = 0 ∧ b = 0 then none else some (a ^ b.toNat)
  | mod, a, b => if b = 0 then none else some (a - b * a.fdiv b)
  | div, _, _ | logBase, _, _ | root, _, _ => none

/-- The result of a function in unbounded integers. -/
def Function.int? : Function → Int → Option Int
  | abs, a => some |a|
  | _, _ => none

namespace Expr

/-- The value of an expression in unbounded integers.  It is there only if all parts of the
expression have one. -/
def int? : Expr → Option Int
  | number n => n.int?
  | call f argument => argument.int?.bind f.int?
  | binary left o right => left.int?.bind fun a => right.int?.bind (o.int? a)

/-- A tree is another one or stands somewhere in it. -/
inductive IsPartOf : Expr → Expr → Prop
  | refl (t : Expr) : IsPartOf t t
  | argument {s t : Expr} (f : Function) : IsPartOf s t → IsPartOf s (call f t)
  | left {s l : Expr} (o : Operator) (r : Expr) : IsPartOf s l → IsPartOf s (binary l o r)
  | right {s r : Expr} (l : Expr) (o : Operator) : IsPartOf s r → IsPartOf s (binary l o r)

end Expr

/-! ## One operation -/

/-- A result is an integer exactly where there is an unbounded one, and it is that one; and it
is an overflow only if the unbounded one does not fit. -/
structure Exact (result : Except EvaluationError Number) (z? : Option Int) : Prop where
  integer_iff : ∀ n : Int64, result = .ok (.integer n) ↔ z? = some n.toInt
  overflow : result = .error .overflow → ∃ z, z? = some z ∧ ¬ Fits z

/-- A real number is exact for nothing. -/
theorem exact_real (x : Float) : Exact (.ok (.real x)) none :=
  ⟨fun _ => iff_of_false nofun nofun, nofun⟩

/-- An error that is no overflow is exact for nothing. -/
theorem exact_error {e : EvaluationError} (other : e ≠ .overflow) : Exact (.error e) none :=
  ⟨fun _ => iff_of_false nofun nofun, fun h => absurd (Except.error.inj h) other⟩

/-- An integer is exact for itself. -/
theorem exact_integer (n : Int64) : Exact (.ok (.integer n)) (some n.toInt) where
  integer_iff m := by simp [Int64.toInt_inj]
  overflow := nofun

/-- An unbounded result that is kept if it fits is exact. -/
theorem exact_map_integer (z : Int) :
    Exact ((Integer.exact z).map Number.integer) (some z) := by
  cases kept : Integer.exact z with
  | ok n =>
    rw [← Integer.exact_eq_ok_iff.mp kept]
    exact exact_integer n
  | error e =>
    obtain ⟨rfl, large⟩ := Integer.exact_eq_error_iff.mp kept
    refine ⟨fun n => iff_of_false nofun ?_, fun _ => ⟨z, rfl, large⟩⟩
    rintro ⟨⟩
    exact large (Integer.fits_toInt n)

/-! ## The operators -/

namespace Number

variable (l r : Number)

/-- Sums, differences and products. -/
theorem exact_arithmetic {onIntegers : Int64 → Int64 → Except EvaluationError Int64}
    {onReals : Float → Float → Float} {f : Int → Int → Int}
    (unbounded : ∀ a b, onIntegers a b = Integer.exact (f a.toInt b.toInt)) :
    Exact (arithmetic onIntegers onReals l r)
      (l.int?.bind fun a => r.int?.bind fun b => some (f a b)) := by
  cases l with
  | integer a =>
    cases r with
    | integer b =>
      rw [arithmetic, unbounded]
      exact exact_map_integer _
    | real y => exact exact_real _
  | real x => exact exact_real _

/-- Quotients are real, and no quotient overflows. -/
theorem exact_quotient : Exact (l.quotient r) none := by
  unfold quotient
  split
  · exact exact_error nofun
  · exact exact_real _

/-- Logarithms are real, and no logarithm overflows. -/
theorem exact_logarithm : Exact (l.logarithm r) none := by
  unfold logarithm
  split
  · exact exact_error nofun
  · exact exact_real _

/-- Roots are real, and no root overflows. -/
theorem exact_root : Exact (l.root r) none := by
  fun_cases root l r with
  | case1 => exact exact_error nofun
  | case2 => exact exact_real _
  | case3 => exact exact_error nofun
  | case4 => exact exact_error nofun
  | case5 => exact exact_real _
  | case6 => exact exact_real _

/-- The modulus is the remainder of the floored division. -/
theorem exact_modulus :
    Exact (l.modulus r) (l.int?.bind fun a => r.int?.bind (Operator.mod.int? a)) := by
  cases l with
  | integer a =>
    cases r with
    | integer b =>
      simp only [modulus, int?, Operator.int?, Option.bind_some]
      cases found : Integer.floorMod? a b with
      | none =>
        have zero : b.toInt = 0 := Int64.toInt_inj.mpr (Integer.floorMod?_eq_none_iff.mp found)
        rw [if_pos zero]
        exact exact_error nofun
      | some remainder =>
        obtain ⟨nonzero, floored⟩ := Integer.floorMod?_eq_some_iff.mp found
        have nonzero : b.toInt ≠ 0 := fun zero => nonzero (Int64.toInt_inj.mp zero)
        rw [if_neg nonzero, ← Int.fmod_def, ← floored]
        exact exact_integer remainder
    | real y => exact exact_error nofun
  | real x => exact exact_error nofun

/-- A power with a real exponent is real, and none overflows. -/
theorem exact_power_real (y : Float) : Exact (l.power (real y)) none := by
  unfold power
  split
  · exact exact_error nofun
  · dsimp only
    split
    · exact exact_error nofun
    · exact exact_real _

/-- A power of a real base is real, and none overflows. -/
theorem exact_real_power (x : Float) : Exact ((real x).power r) none := by
  cases r with
  | real y => exact exact_power_real _ y
  | integer b =>
    unfold power
    split
    · exact exact_error nofun
    · dsimp only
      split
      · split
        · exact exact_error nofun
        · exact exact_real _
      · exact exact_real _

/-- The power of two integers is the exact one where there is one, and else a real number or
a refusal. -/
theorem exact_integer_power (a b : Int64) :
    Exact ((integer a).power (integer b)) (Operator.pow.int? a.toInt b.toInt) := by
  have zero_iff (n : Int64) : (integer n).isZero = true ↔ n.toInt = 0 := by
    rw [isZero, beq_iff_eq, ← Int64.toInt_inj, Int64.toInt_zero]
  rw [power, Operator.int?]
  split
  case isTrue zeros =>
    rw [Bool.and_eq_true, zero_iff, zero_iff] at zeros
    rw [if_pos (.inr zeros)]
    exact exact_error (by decide)
  case isFalse zeros =>
    rw [Bool.and_eq_true, zero_iff, zero_iff] at zeros
    split
    case isTrue negative =>
      rw [Int64.lt_iff_toInt_lt, Int64.toInt_zero] at negative
      rw [if_pos (show b.toInt < 0 ∨ _ from .inl negative)]
      split
      · exact exact_error (by decide)
      · exact exact_real _
    case isFalse nonneg =>
      rw [Int64.lt_iff_toInt_lt, Int64.toInt_zero] at nonneg
      rw [if_neg (not_or.mpr ⟨nonneg, zeros⟩), Integer.power_eq_exact a (Int.not_lt.mp nonneg)]
      exact exact_map_integer _

end Number

/-- **Every operator is exact**, whatever its operands are. -/
theorem Operator.exact_eval (o : Operator) (l r : Number) :
    Exact (o.eval l r) (l.int?.bind fun a => r.int?.bind (o.int? a)) := by
  have nothing (h : ∀ a b, o.int? a b = none) :
      (l.int?.bind fun a => r.int?.bind (o.int? a)) = none := by simp [h]
  cases o with
  | add => exact l.exact_arithmetic r fun _ _ => rfl
  | sub => exact l.exact_arithmetic r fun _ _ => rfl
  | mul => exact l.exact_arithmetic r fun _ _ => rfl
  | pow =>
    cases l with
    | real x => exact Number.exact_real_power r x
    | integer a =>
      cases r with
      | real y => exact Number.exact_power_real _ y
      | integer b => exact Number.exact_integer_power a b
  | mod => exact l.exact_modulus r
  | div =>
    rw [nothing fun _ _ => rfl]
    exact l.exact_quotient r
  | logBase =>
    rw [nothing fun _ _ => rfl]
    exact l.exact_logarithm r
  | root =>
    rw [nothing fun _ _ => rfl]
    exact l.exact_root r

/-! ## The functions -/

/-- The functions with an interval give reals or refuse their argument. -/
theorem Number.exact_onInterval {low high : Float} {outside : EvaluationError}
    {f : Float → Float} (other : outside ≠ .overflow) (x : Float) :
    Exact (onInterval low high outside f x) none := by
  unfold onInterval
  split
  · exact exact_real _
  · exact exact_error other

/-- **Every function is exact**, whatever its argument is. -/
theorem Function.exact_eval (f : Function) (a : Number) :
    Exact (f.eval a) (a.int?.bind f.int?) := by
  have nothing (h : ∀ a, f.int? a = none) : a.int?.bind f.int? = none := by simp [h]
  cases f with
  | abs =>
    cases a with
    | integer n =>
      have size : (n.toInt.natAbs : Int) = |n.toInt| := Int.natCast_natAbs _
      rw [eval, Integer.abs, size]
      exact exact_map_integer _
    | real x => exact exact_real _
  | sin =>
    rw [nothing fun _ => rfl]
    exact exact_real _
  | cos =>
    rw [nothing fun _ => rfl]
    exact exact_real _
  | tan =>
    rw [nothing fun _ => rfl]
    exact exact_real _
  | arcsin =>
    rw [nothing fun _ => rfl, eval]
    exact Number.exact_onInterval (by decide) _
  | arccos =>
    rw [nothing fun _ => rfl, eval]
    exact Number.exact_onInterval (by decide) _
  | arctan =>
    rw [nothing fun _ => rfl, eval]
    exact Number.exact_onInterval (by decide) _
  | squareRoot =>
    rw [nothing fun _ => rfl]
    exact Number.exact_root a _
  | ln =>
    rw [nothing fun _ => rfl, eval]
    split
    · exact exact_error nofun
    · exact exact_real _

/-! ## Whole trees -/

namespace Expr

/-- The unbounded value is there and fits, at every place of a tree. -/
def FitsThroughout (t : Expr) : Prop := ∀ s, IsPartOf s t → ∃ z, s.int? = some z ∧ Fits z

/-- What is true throughout a tree is true of the tree. -/
theorem FitsThroughout.exists_int? {t : Expr} (fits : t.FitsThroughout) :
    ∃ z, t.int? = some z ∧ Fits z :=
  fits t (.refl t)

theorem fitsThroughout_number_iff {n : Number} :
    (number n).FitsThroughout ↔ ∃ z, n.int? = some z ∧ Fits z := by
  refine ⟨FitsThroughout.exists_int?, ?_⟩
  rintro here s ⟨⟩
  exact here

theorem fitsThroughout_call_iff {f : Function} {argument : Expr} :
    (call f argument).FitsThroughout ↔
      argument.FitsThroughout ∧ ∃ z, (call f argument).int? = some z ∧ Fits z := by
  constructor
  · exact fun fits => ⟨fun s part => fits s (.argument f part), fits.exists_int?⟩
  · rintro ⟨inside, here⟩ s part
    cases part with
    | refl => exact here
    | argument _ part => exact inside s part

theorem fitsThroughout_binary_iff {left right : Expr} {o : Operator} :
    (binary left o right).FitsThroughout ↔ left.FitsThroughout ∧ right.FitsThroughout ∧
      ∃ z, (binary left o right).int? = some z ∧ Fits z := by
  constructor
  · exact fun fits => ⟨fun s part => fits s (.left o right part),
      fun s part => fits s (.right left o part), fits.exists_int?⟩
  · rintro ⟨inLeft, inRight, here⟩ s part
    cases part with
    | refl => exact here
    | left _ _ part => exact inLeft s part
    | right _ _ part => exact inRight s part

/-- The value of a tree is exact: it is an integer where the unbounded value fits throughout,
and it is an overflow only if there is a place where the unbounded value does not fit. -/
structure IsExact (t : Expr) : Prop where
  integer_iff : ∀ n : Int64, t.value = .ok (.integer n) ↔ t.FitsThroughout ∧ t.int? = some n.toInt
  overflow : t.value = .error .overflow → ∃ s z, IsPartOf s t ∧ s.int? = some z ∧ ¬ Fits z

/-- A tree that fits throughout has an integer value. -/
theorem IsExact.exists_integer {t : Expr} (exact : t.IsExact) (fits : t.FitsThroughout) :
    ∃ n : Int64, t.value = .ok (.integer n) ∧ t.int? = some n.toInt := by
  obtain ⟨z, value, small⟩ := fits.exists_int?
  obtain ⟨n, rfl⟩ := small.exists_toInt
  exact ⟨n, (exact.integer_iff n).mpr ⟨fits, value⟩, value⟩

/-- A number is exact. -/
theorem isExact_number (n : Number) : (number n).IsExact where
  integer_iff m := by
    rw [value, int?, fitsThroughout_number_iff, Except.ok.injEq]
    cases n with
    | integer n =>
      rw [Number.int?, Option.some_inj, Int64.toInt_inj, Number.integer.injEq]
      exact ⟨fun same => ⟨⟨_, rfl, Integer.fits_toInt n⟩, same⟩, And.right⟩
    | real x => exact iff_of_false nofun fun h => nomatch h.2
  overflow := nofun

/-- An unbounded result of a function comes from an integer argument, which is the unbounded
value of its expression. -/
theorem IsExact.int?_call {f : Function} {argument : Expr} {a : Number} {z : Int}
    (inside : argument.IsExact) (computed : argument.value = .ok a)
    (unbounded : a.int?.bind f.int? = some z) :
    argument.FitsThroughout ∧ (call f argument).int? = some z := by
  cases a with
  | real x => cases unbounded
  | integer m =>
    obtain ⟨fits, operand⟩ := (inside.integer_iff m).mp computed
    rw [int?, operand]
    exact ⟨fits, unbounded⟩

/-- An unbounded result of an operator comes from integer operands, which are the unbounded
values of their expressions. -/
theorem IsExact.int?_binary {left right : Expr} {o : Operator} {l r : Number} {z : Int}
    (inLeft : left.IsExact) (inRight : right.IsExact) (computedLeft : left.value = .ok l)
    (computedRight : right.value = .ok r)
    (unbounded : (l.int?.bind fun a => r.int?.bind (o.int? a)) = some z) :
    left.FitsThroughout ∧ right.FitsThroughout ∧ (binary left o right).int? = some z := by
  cases l with
  | real x => cases unbounded
  | integer a =>
    cases r with
    | real y => cases unbounded
    | integer b =>
      obtain ⟨fitsLeft, leftOperand⟩ := (inLeft.integer_iff a).mp computedLeft
      obtain ⟨fitsRight, rightOperand⟩ := (inRight.integer_iff b).mp computedRight
      rw [int?, leftOperand, rightOperand]
      exact ⟨fitsLeft, fitsRight, unbounded⟩

/-- A function of an argument that is exact is exact. -/
theorem isExact_call (f : Function) {argument : Expr} (inside : argument.IsExact) :
    (call f argument).IsExact where
  integer_iff n := by
    rw [value, fitsThroughout_call_iff, bind_eq_ok_iff]
    constructor
    · rintro ⟨a, computed, result⟩
      have unbounded := ((f.exact_eval a).integer_iff n).mp result
      obtain ⟨fits, whole⟩ := inside.int?_call computed unbounded
      exact ⟨⟨fits, n.toInt, whole, Integer.fits_toInt n⟩, whole⟩
    · rintro ⟨⟨fits, -⟩, whole⟩
      obtain ⟨m, computed, operand⟩ := inside.exists_integer fits
      rw [int?, operand] at whole
      exact ⟨.integer m, computed, ((f.exact_eval (.integer m)).integer_iff n).mpr whole⟩
  overflow failed := by
    rcases bind_eq_error_iff.mp failed with failed | ⟨a, computed, failed⟩
    · obtain ⟨s, z, part, large⟩ := inside.overflow failed
      exact ⟨s, z, .argument f part, large⟩
    · obtain ⟨z, unbounded, large⟩ := (f.exact_eval a).overflow failed
      exact ⟨_, z, .refl _, (inside.int?_call computed unbounded).2, large⟩

/-- An operator between operands that are exact is exact. -/
theorem isExact_binary {left right : Expr} (o : Operator) (inLeft : left.IsExact)
    (inRight : right.IsExact) : (binary left o right).IsExact where
  integer_iff n := by
    rw [value, fitsThroughout_binary_iff, bind_eq_ok_iff]
    simp only [bind_eq_ok_iff]
    constructor
    · rintro ⟨l, computedLeft, r, computedRight, result⟩
      have unbounded := ((o.exact_eval l r).integer_iff n).mp result
      obtain ⟨fitsLeft, fitsRight, whole⟩ :=
        inLeft.int?_binary inRight computedLeft computedRight unbounded
      exact ⟨⟨fitsLeft, fitsRight, n.toInt, whole, Integer.fits_toInt n⟩, whole⟩
    · rintro ⟨⟨fitsLeft, fitsRight, -⟩, whole⟩
      obtain ⟨a, computedLeft, leftOperand⟩ := inLeft.exists_integer fitsLeft
      obtain ⟨b, computedRight, rightOperand⟩ := inRight.exists_integer fitsRight
      rw [int?, leftOperand, rightOperand] at whole
      exact ⟨.integer a, computedLeft, .integer b, computedRight,
        ((o.exact_eval (.integer a) (.integer b)).integer_iff n).mpr whole⟩
  overflow failed := by
    -- the first of the three steps that fails: left operand, right operand, the operator
    rcases bind_eq_error_iff.mp failed with failed | ⟨l, computedLeft, failed⟩
    · obtain ⟨s, z, part, large⟩ := inLeft.overflow failed
      exact ⟨s, z, .left o right part, large⟩
    rcases bind_eq_error_iff.mp failed with failed | ⟨r, computedRight, failed⟩
    · obtain ⟨s, z, part, large⟩ := inRight.overflow failed
      exact ⟨s, z, .right left o part, large⟩
    · obtain ⟨z, unbounded, large⟩ := (o.exact_eval l r).overflow failed
      have whole := (inLeft.int?_binary inRight computedLeft computedRight unbounded).2.2
      exact ⟨_, z, .refl _, whole, large⟩

/-- **Integer values are exact and overflows are honest.**  A tree has an integer value exactly
when its unbounded value is there and fits throughout, and then it has this value; and it
overflows only if the unbounded value of some part of it does not fit. -/
theorem integer_value_exact (t : Expr) :
    (∀ n : Int64, t.value = .ok (.integer n) ↔
      (∀ s, IsPartOf s t → ∃ z, s.int? = some z ∧ Fits z) ∧ t.int? = some n.toInt) ∧
    (t.value = .error .overflow → ∃ s z, IsPartOf s t ∧ s.int? = some z ∧ ¬ Fits z) := by
  have exact : t.IsExact := by
    induction t with
    | number n => exact isExact_number n
    | call f argument ih => exact isExact_call f ih
    | binary left o right ihl ihr => exact isExact_binary o ihl ihr
  exact ⟨exact.integer_iff, exact.overflow⟩

/-- The least integer has a remainder by `-1`, where no part overflows, and has no absolute
value, also where a remainder by it would be small. -/
theorem integer_value_exact_least :
    (∀ s, IsPartOf s (binary (number (.integer (-9223372036854775808))) .mod
      (number (.integer (-1)))) → ∃ z, s.int? = some z ∧ Fits z) ∧
    (binary (number (.integer 7)) .mod
      (call .abs (number (.integer (-9223372036854775808))))).value = .error .overflow ∧
    ∃ s z, IsPartOf s (binary (number (.integer 7)) .mod
      (call .abs (number (.integer (-9223372036854775808))))) ∧ s.int? = some z ∧ ¬ Fits z := by
  have fits : (binary (number (.integer (-9223372036854775808))) .mod
      (number (.integer (-1)))).value = .ok (.integer 0) := by
    decide +kernel
  have overflows : (binary (number (.integer 7)) .mod
      (call .abs (number (.integer (-9223372036854775808))))).value = .error .overflow := by
    decide +kernel
  exact ⟨(((integer_value_exact _).1 0).mp fits).1, overflows,
    (integer_value_exact _).2 overflows⟩

end Expr
end Calculator
