import Calculator.Evaluation.Operation
import Calculator.Proofs.Binary64.Sign
import Calculator.Proofs.Integer

/-!
# What becomes of powers and roots

A power or a root of two numbers is an integer, a real number or a refusal, and which of these
it is depends on the kinds of the numbers, on the sides of zero on which they lie, and for
integers on whether the power fits.  Here the cases are said without the order in which the
tests are made, each with the one thing that becomes of it.

## Sides of zero

`compareZero?` is how a number, widened to a real, compares to zero.  The tests look at an
integer as it is and at a real by its bits, and in both cases they find this
(`isZero_iff`, `isNegative_iff`); for an integer that is so because widening never takes it to
the other side of zero, or onto it (`compareZero?_integer`).  An undefined result is on no side,
so it is neither zero nor below zero.

## Outcomes

`PowerOutcome` and `RootOutcome` have one constructor for each thing that can come out, with the
case in which it does.  The tests of the definitions are gone through once, to see that every
result is one of the constructors; that no other result goes with a case is then a matter of
the cases, which exclude each other.

A root of degree zero is a division by zero only where the radicand is not negative: of a
negative number the degree is tested for being odd and for nothing else
(`root_zero_of_negative`).
-/

namespace Calculator

open EvaluationError
open Integer (Fits)

namespace Number

variable {base exponent radicand degree : Number}

/-! ## Sides of zero -/

/-- How a number compares to zero when it is widened to a real; an undefined result does not. -/
def compareZero? (n : Number) : Option Ordering := Binary64.compareZero? n.toReal

/-- An integer is widened to its own side of zero. -/
theorem compareZero?_integer (n : Int64) :
    (integer n).compareZero? = some (compare n.toInt 0) :=
  Binary64.compareZero?_ofInt n.toInt

theorem isZero_iff (n : Number) : n.isZero = true ↔ n.compareZero? = some .eq := by
  cases n with
  | integer n =>
    rw [isZero, compareZero?_integer, beq_iff_eq, Option.some_inj, compare_eq_iff_eq,
      ← Int64.toInt_inj, Int64.toInt_zero]
  | real x => exact Binary64.beq_zero_iff x

theorem isNegative_iff (n : Number) : n.isNegative = true ↔ n.compareZero? = some .lt := by
  cases n with
  | integer n =>
    rw [isNegative, compareZero?_integer, decide_eq_true_iff, Option.some_inj,
      compare_lt_iff_lt, Int64.lt_iff_toInt_lt, Int64.toInt_zero]
  | real x => exact decide_eq_true_iff.trans (Binary64.lt_zero_iff x)

theorem isOddInteger_iff (n : Number) :
    n.isOddInteger = true ↔ ∃ m : Int64, n = integer m ∧ Odd m.toInt := by
  cases n with
  | integer n => simp [isOddInteger, Int.odd_iff]
  | real x => simp [isOddInteger]

/-! ## Powers -/

/-- Zero is raised to the power of zero. -/
def ZeroToZero (base exponent : Number) : Prop :=
  base.compareZero? = some .eq ∧ exponent.compareZero? = some .eq

/-- Zero is raised to the power of a negative integer. -/
def ReciprocalOfZero (base exponent : Number) : Prop :=
  base.compareZero? = some .eq ∧ ∃ e : Int64, exponent = integer e ∧ e.toInt < 0

/-- A base that is zero or negative, as a real, is raised to a real power. -/
def RealPowerOfNonPositive (base exponent : Number) : Prop :=
  (∃ y, exponent = real y) ∧ (base.compareZero? = some .eq ∨ base.compareZero? = some .lt)

/-- The power in unbounded integers, of two integers the second of which is not negative. -/
def unboundedPower? : Number → Number → Option Int
  | integer b, integer e => if 0 ≤ e.toInt then some (b.toInt ^ e.toInt.toNat) else none
  | _, _ => none

theorem unboundedPower?_of_negative (base : Number) {e : Int64} (negative : e.toInt < 0) :
    unboundedPower? base (integer e) = none := by
  cases base with
  | integer b => exact if_neg (Int.not_le.mpr negative)
  | real x => rfl

theorem unboundedPower?_real (base : Number) (y : Float) :
    unboundedPower? base (real y) = none := by
  cases base <;> rfl

/-- A power with a real exponent is no reciprocal. -/
theorem RealPowerOfNonPositive.not_reciprocalOfZero
    (nonPositive : RealPowerOfNonPositive base exponent) : ¬ ReciprocalOfZero base exponent := by
  obtain ⟨⟨y, rfl⟩, -⟩ := nonPositive
  rintro ⟨-, e, ⟨⟩, -⟩

theorem ReciprocalOfZero.unboundedPower?_eq_none
    (reciprocal : ReciprocalOfZero base exponent) : unboundedPower? base exponent = none := by
  obtain ⟨-, e, rfl, negative⟩ := reciprocal
  exact unboundedPower?_of_negative base negative

theorem RealPowerOfNonPositive.unboundedPower?_eq_none
    (nonPositive : RealPowerOfNonPositive base exponent) :
    unboundedPower? base exponent = none := by
  obtain ⟨⟨y, rfl⟩, -⟩ := nonPositive
  exact unboundedPower?_real base y

/-- Where there is an unbounded power, the exponent is neither negative nor real. -/
theorem not_of_unboundedPower? {z : Int} (power : unboundedPower? base exponent = some z) :
    ¬ ReciprocalOfZero base exponent ∧ ¬ RealPowerOfNonPositive base exponent := by
  constructor
  · intro reciprocal
    cases reciprocal.unboundedPower?_eq_none.symm.trans power
  · intro nonPositive
    cases nonPositive.unboundedPower?_eq_none.symm.trans power

/-- What comes out of a power, and in which case. -/
inductive PowerOutcome (base exponent : Number) : Except EvaluationError Number → Prop
  | zeroToZero : ZeroToZero base exponent →
      PowerOutcome base exponent (.error zeroToZeroPower)
  | reciprocal : ¬ ZeroToZero base exponent → ReciprocalOfZero base exponent →
      PowerOutcome base exponent (.error divisionByZero)
  | nonPositive : ¬ ZeroToZero base exponent → RealPowerOfNonPositive base exponent →
      PowerOutcome base exponent (.error nonIntegerPowerOfNonPositive)
  | exact (n : Int64) : ¬ ZeroToZero base exponent →
      unboundedPower? base exponent = some n.toInt → PowerOutcome base exponent (.ok (integer n))
  | overflow (z : Int) : ¬ ZeroToZero base exponent → unboundedPower? base exponent = some z →
      ¬ Fits z → PowerOutcome base exponent (.error overflow)
  | real (x : Float) : ¬ ZeroToZero base exponent → ¬ ReciprocalOfZero base exponent →
      ¬ RealPowerOfNonPositive base exponent → unboundedPower? base exponent = none →
      PowerOutcome base exponent (.ok (real x))

/-- A power of an integer with an exponent that is not negative comes out if it fits. -/
theorem powerOutcome_integer {b e : Int64} (zeros : ¬ ZeroToZero (integer b) (integer e))
    (nonneg : 0 ≤ e.toInt) :
    PowerOutcome (integer b) (integer e) ((Integer.power b e).map integer) := by
  have unbounded : unboundedPower? (integer b) (integer e) = some (b.toInt ^ e.toInt.toNat) :=
    if_pos nonneg
  rw [Integer.power_eq_exact b nonneg]
  cases kept : Integer.exact (b.toInt ^ e.toInt.toNat) with
  | ok n =>
    rw [← Integer.exact_eq_ok_iff.mp kept] at unbounded
    exact .exact n zeros unbounded
  | error error =>
    obtain ⟨rfl, large⟩ := Integer.exact_eq_error_iff.mp kept
    exact .overflow _ zeros unbounded large

/-- A power with a negative integer exponent is the real reciprocal, unless the base is zero. -/
theorem powerOutcome_negative {e : Int64} (zeros : ¬ ZeroToZero base (integer e))
    (negative : e.toInt < 0) :
    PowerOutcome base (integer e) (if base.isZero then .error divisionByZero
      else .ok (realPower base (integer e))) := by
  have noReal : ¬ RealPowerOfNonPositive base (integer e) := by
    rintro ⟨⟨y, ⟨⟩⟩, -⟩
  have reciprocal_iff : base.isZero = true ↔ ReciprocalOfZero base (integer e) := by
    rw [isZero_iff]
    exact ⟨fun zero => ⟨zero, e, rfl, negative⟩, And.left⟩
  split
  case isTrue zero => exact .reciprocal zeros (reciprocal_iff.mp zero)
  case isFalse nonzero =>
    exact .real _ zeros (mt reciprocal_iff.mpr nonzero) noReal
      (unboundedPower?_of_negative base negative)

/-- A power of a real with an integer exponent that is not negative is real. -/
theorem powerOutcome_realBase {x : Float} {e : Int64}
    (zeros : ¬ ZeroToZero (.real x) (integer e)) (nonneg : 0 ≤ e.toInt) :
    PowerOutcome (.real x) (integer e) (.ok (realPower (.real x) (integer e))) := by
  have noReciprocal : ¬ ReciprocalOfZero (.real x) (integer e) := by
    rintro ⟨-, e, ⟨⟩, negative⟩
    exact absurd negative (Int.not_lt.mpr nonneg)
  have noReal : ¬ RealPowerOfNonPositive (.real x) (integer e) := by
    rintro ⟨⟨y, ⟨⟩⟩, -⟩
  exact .real _ zeros noReciprocal noReal rfl

/-- A power with a real exponent is real, unless the base is zero or negative. -/
theorem powerOutcome_realExponent {y : Float} (zeros : ¬ ZeroToZero base (.real y)) :
    PowerOutcome base (.real y) (if base.toReal ≤ 0.0 then .error nonIntegerPowerOfNonPositive
      else .ok (realPower base (.real y))) := by
  have nonPositive_iff : base.toReal ≤ 0.0 ↔ RealPowerOfNonPositive base (.real y) := by
    rw [Binary64.le_zero_iff]
    exact ⟨fun side => ⟨⟨y, rfl⟩, side⟩, And.right⟩
  have noReciprocal : ¬ ReciprocalOfZero base (.real y) := by
    rintro ⟨-, e, ⟨⟩, -⟩
  split
  case isTrue nonPositive => exact .nonPositive zeros (nonPositive_iff.mp nonPositive)
  case isFalse positive =>
    exact .real _ zeros noReciprocal (mt nonPositive_iff.mpr positive)
      (unboundedPower?_real base y)

/-- **What comes out of a power is in its case.** -/
theorem powerOutcome_power (base exponent : Number) :
    PowerOutcome base exponent (base.power exponent) := by
  have zeros_iff : (base.isZero && exponent.isZero) = true ↔ ZeroToZero base exponent := by
    rw [Bool.and_eq_true, isZero_iff, isZero_iff]
    rfl
  unfold power
  split
  case isTrue zeros => exact .zeroToZero (zeros_iff.mp zeros)
  case isFalse zeros =>
    rw [zeros_iff] at zeros
    cases exponent with
    | real y => exact powerOutcome_realExponent zeros
    | integer e =>
      have negative_iff : e < 0 ↔ e.toInt < 0 := by
        rw [Int64.lt_iff_toInt_lt, Int64.toInt_zero]
      dsimp only
      split
      case isTrue negative => exact powerOutcome_negative zeros (negative_iff.mp negative)
      case isFalse nonneg =>
        rw [negative_iff, Int.not_lt] at nonneg
        cases base with
        | integer b => exact powerOutcome_integer zeros nonneg
        | real x => exact powerOutcome_realBase zeros nonneg

/-- **Every power is of one kind.**  Zero to the power of zero, zero to the power of a negative
integer and a real power of a base that is not positive are refused, in this order.  Otherwise
the power of an integer with an integer exponent that is not negative is the exact one, or an
overflow where that does not fit, and every other power is a real number. -/
theorem power_outcomes (base exponent : Number) :
    (base.power exponent = .error zeroToZeroPower ↔ ZeroToZero base exponent) ∧
    (base.power exponent = .error divisionByZero ↔
      ¬ ZeroToZero base exponent ∧ ReciprocalOfZero base exponent) ∧
    (base.power exponent = .error nonIntegerPowerOfNonPositive ↔
      ¬ ZeroToZero base exponent ∧ ¬ ReciprocalOfZero base exponent ∧
        RealPowerOfNonPositive base exponent) ∧
    (∀ n : Int64, base.power exponent = .ok (integer n) ↔
      ¬ ZeroToZero base exponent ∧ unboundedPower? base exponent = some n.toInt) ∧
    (base.power exponent = .error overflow ↔
      ¬ ZeroToZero base exponent ∧ ∃ z, unboundedPower? base exponent = some z ∧ ¬ Fits z) ∧
    ((∃ x, base.power exponent = .ok (.real x)) ↔
      ¬ ZeroToZero base exponent ∧ ¬ ReciprocalOfZero base exponent ∧
        ¬ RealPowerOfNonPositive base exponent ∧ unboundedPower? base exponent = none) := by
  have outcome := powerOutcome_power base exponent
  generalize base.power exponent = result at outcome
  cases outcome with
  | zeroToZero zeros => simp [zeros]
  | reciprocal zeros of =>
    have noReal : ¬ RealPowerOfNonPositive base exponent := fun h => h.not_reciprocalOfZero of
    simp [zeros, of, noReal, of.unboundedPower?_eq_none]
  | nonPositive zeros of =>
    simp [zeros, of, of.not_reciprocalOfZero, of.unboundedPower?_eq_none]
  | exact n zeros power =>
    obtain ⟨noReciprocal, noReal⟩ := not_of_unboundedPower? power
    simp [zeros, noReciprocal, noReal, power, Int64.toInt_inj, Integer.fits_toInt]
  | overflow z zeros power large =>
    obtain ⟨noReciprocal, noReal⟩ := not_of_unboundedPower? power
    have other (n : Int64) : z ≠ n.toInt := by
      rintro rfl
      exact large (Integer.fits_toInt n)
    simp [zeros, noReciprocal, noReal, power, large, other]
  | real x zeros noReciprocal positive noInteger =>
    simp [zeros, noReciprocal, positive, noInteger]

/-! ## Roots -/

/-- A root of degree zero is taken of a number that is not negative, or one of negative degree
is taken of zero. -/
def RootByZero (radicand degree : Number) : Prop :=
  degree.compareZero? = some .eq ∧ radicand.compareZero? ≠ some .lt ∨
    radicand.compareZero? = some .eq ∧ degree.compareZero? = some .lt

/-- A root is taken of a negative number, and its degree is not an odd integer. -/
def RootOfNegative (radicand degree : Number) : Prop :=
  radicand.compareZero? = some .lt ∧ ¬ ∃ n : Int64, degree = integer n ∧ Odd n.toInt

/-- What comes out of a root, and in which case. -/
inductive RootOutcome (radicand degree : Number) : Except EvaluationError Number → Prop
  | byZero : RootByZero radicand degree → RootOutcome radicand degree (.error divisionByZero)
  | ofNegative : RootOfNegative radicand degree →
      RootOutcome radicand degree (.error negativeRoot)
  | real (x : Float) : ¬ RootByZero radicand degree → ¬ RootOfNegative radicand degree →
      RootOutcome radicand degree (.ok (real x))

/-- An odd degree is not zero. -/
theorem compareZero?_ne_eq_of_odd (odd : ∃ n : Int64, degree = integer n ∧ Odd n.toInt) :
    degree.compareZero? ≠ some .eq := by
  obtain ⟨n, rfl, odd⟩ := odd
  intro zero
  rw [compareZero?_integer, Option.some_inj, compare_eq_iff_eq] at zero
  rw [zero] at odd
  exact absurd odd (by decide)

/-- A root of a negative number does not divide by zero. -/
theorem RootOfNegative.not_rootByZero (negative : RootOfNegative radicand degree) :
    ¬ RootByZero radicand degree := by
  rintro (⟨-, nonneg⟩ | ⟨zero, -⟩)
  · exact nonneg negative.1
  · cases zero.symm.trans negative.1

/-- **What comes out of a root is in its case.** -/
theorem rootOutcome_root (radicand degree : Number) :
    RootOutcome radicand degree (radicand.root degree) := by
  unfold root
  simp only [Bool.and_eq_true, isZero_iff, isNegative_iff]
  split
  case isTrue both => exact .byZero (.inr both)
  case isFalse notBoth =>
    have nonzeroDegree (nonzero : degree.compareZero? ≠ some .eq) :
        ¬ RootByZero radicand degree := by
      rintro (⟨zero, -⟩ | both)
      · exact nonzero zero
      · exact notBoth both
    split
    case isTrue odd =>
      have odd := (isOddInteger_iff degree).mp odd
      exact .real _ (nonzeroDegree (compareZero?_ne_eq_of_odd odd)) fun negative =>
        negative.2 odd
    case isFalse notOdd =>
      rw [isOddInteger_iff] at notOdd
      split
      case isTrue negative => exact .ofNegative ⟨negative, notOdd⟩
      case isFalse nonneg =>
        have notNegative : ¬ RootOfNegative radicand degree := fun negative => nonneg negative.1
        split
        case isTrue zero => exact .byZero (.inl ⟨zero, nonneg⟩)
        case isFalse nonzero =>
          split <;> exact .real _ (nonzeroDegree nonzero) notNegative

/-- **Every root is of one kind.**  A division by zero is the root of degree zero of a number
that is not negative, and the root of negative degree of zero.  A negative number has no root of
a degree that is not an odd integer, and every other root is a real number. -/
theorem root_outcomes (radicand degree : Number) :
    (radicand.root degree = .error divisionByZero ↔ RootByZero radicand degree) ∧
    (radicand.root degree = .error negativeRoot ↔ RootOfNegative radicand degree) ∧
    ((∃ x, radicand.root degree = .ok (real x)) ↔
      ¬ RootByZero radicand degree ∧ ¬ RootOfNegative radicand degree) := by
  have outcome := rootOutcome_root radicand degree
  generalize radicand.root degree = result at outcome
  cases outcome with
  | byZero zero =>
    have notNegative : ¬ RootOfNegative radicand degree := fun h => h.not_rootByZero zero
    simp [zero, notNegative]
  | ofNegative negative => simp [negative, negative.not_rootByZero]
  | real x nonzero notNegative => simp [nonzero, notNegative]

/-- The degree zero alone does not make a division by zero: the root of degree zero of `-1` is
refused as one of a negative number. -/
theorem root_zero_of_negative :
    (integer (-1)).root (integer 0) = .error negativeRoot ∧
    ¬ ((integer (-1)).root (integer 0) = .error divisionByZero ↔
      (integer 0).compareZero? = some .eq ∨
        (integer (-1)).compareZero? = some .eq ∧ (integer 0).compareZero? = some .lt) := by
  have refused : (integer (-1)).root (integer 0) = .error negativeRoot := rfl
  refine ⟨refused, ?_⟩
  rw [refused, compareZero?_integer]
  exact fun claimed => nomatch claimed.mpr (.inl rfl)

end Number
end Calculator
