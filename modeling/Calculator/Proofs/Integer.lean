import Calculator.Evaluation.Integer
import Mathlib.Algebra.Order.Ring.Int
import Mathlib.Algebra.Ring.Int.Parity
import Mathlib.Data.Rat.Floor

/-!
# Integers of 64 bits and unbounded ones

What the operations of `Integer` compute, said in unbounded integers.  A 64-bit integer `n` is
the unbounded integer `n.toInt`, and `Fits` says which unbounded integers are one.  `exact` is
the passage from a result to a 64-bit integer, and its two laws are all that the other
operations need: it gives `n` exactly for the result `n.toInt` (`exact_eq_ok_iff`), and it
fails exactly for a result that does not fit (`exact_eq_error_iff`).

## Powers

`power` does not compute the power where it is known beforehand, or known not to fit.
`power_eq_exact` says that this changes nothing.  The only thing to see is that a base of at
least the size of two doubles with every factor, so a power with 64 factors or more does not
fit, and then it does not matter how the exponent is refused.

## Remainders

`floorMod?` corrects the truncated remainder.  Dividend and divisor are 64-bit integers, so the
truncated remainder is smaller than the divisor, and where it is corrected its sign is the
other one.  Their sum lies between them and does not wrap around (`toInt_mod_add`).  The
result is then the dividend less as many divisors as the rounded quotient says, where the
quotient is rounded down and not towards zero (`remainder_floored`).
-/

namespace Calculator
namespace Integer

open EvaluationError

/-- An unbounded integer is one of 64 bits. -/
def Fits (z : Int) : Prop := -2 ^ 63 ≤ z ∧ z ≤ 2 ^ 63 - 1

theorem fits_toInt (n : Int64) : Fits n.toInt := ⟨n.le_toInt, Int.le_sub_one_of_lt n.toInt_lt⟩

/-- A fitting integer is that of a 64-bit integer. -/
theorem Fits.exists_toInt {z : Int} (fits : Fits z) : ∃ n : Int64, n.toInt = z :=
  ⟨Int64.ofInt z, Int64.toInt_ofInt_of_le fits.1 (Int.lt_of_le_sub_one fits.2)⟩

/-- A result is kept as the 64-bit integer that it is. -/
theorem exact_eq_ok_iff {z : Int} {n : Int64} : exact z = .ok n ↔ n.toInt = z := by
  unfold exact
  constructor
  · intro h
    split at h
    case isTrue fits =>
      cases h
      exact Int64.toInt_ofInt_of_le fits.1 (Int.lt_of_le_sub_one fits.2)
    case isFalse => cases h
  · rintro rfl
    have fits : Int64.minValue.toInt ≤ n.toInt ∧ n.toInt ≤ Int64.maxValue.toInt := fits_toInt n
    rw [if_pos fits, Int64.ofInt_toInt]

/-- A result is refused when it does not fit, and for no other reason. -/
theorem exact_eq_error_iff {z : Int} {e : EvaluationError} :
    exact z = .error e ↔ e = overflow ∧ ¬ Fits z := by
  unfold exact
  split
  case isTrue fits => exact iff_of_false nofun fun h => h.2 fits
  case isFalse large =>
    constructor
    · rintro ⟨⟩
      exact ⟨rfl, large⟩
    · rintro ⟨rfl, -⟩
      rfl

/-! ## Powers -/

/-- No power with 64 factors or more fits, unless the base is `0`, `1` or `-1`. -/
theorem not_fits_pow {b : Int} {k : Nat} (base : 2 ≤ b.natAbs) (large : 64 ≤ k) :
    ¬ Fits (b ^ k) := by
  rintro ⟨lower, upper⟩
  have grows : 2 ^ 64 ≤ (b ^ k).natAbs := by
    rw [Int.natAbs_pow]
    calc 2 ^ 64 ≤ 2 ^ k := Nat.pow_le_pow_right (by decide) large
      _ ≤ b.natAbs ^ k := Nat.pow_le_pow_left base k
  omega

/-- The power of `-1` depends on the parity of the exponent only. -/
theorem neg_one_pow_toNat {e : Int} (nonneg : 0 ≤ e) :
    (-1 : Int) ^ e.toNat = if e % 2 = 0 then 1 else -1 := by
  obtain ⟨k, rfl⟩ := Int.eq_ofNat_of_zero_le nonneg
  rw [Int.toNat_natCast]
  split
  case isTrue even => exact Even.neg_one_pow (Nat.even_iff.mpr (by omega))
  case isFalse odd => exact Odd.neg_one_pow (Nat.odd_iff.mpr (by omega))

/-- A base that is none of the three small ones has at least the size of two. -/
theorem two_le_natAbs {b : Int64} (zero : b ≠ 0) (one : b ≠ 1) (negOne : b ≠ -1) :
    2 ≤ b.toInt.natAbs := by
  have zero' : b.toInt ≠ 0 := fun h => zero (Int64.toInt_inj.mp h)
  have one' : b.toInt ≠ 1 := fun h => one (Int64.toInt_inj.mp h)
  have negOne' : b.toInt ≠ -1 := fun h => negOne (Int64.toInt_inj.mp h)
  omega

/-- The word of an exponent is the exponent. -/
theorem toNat_of_exponentWord {e : Int64} {word : UInt32} (short : exponentWord e = .ok word) :
    word.toNat = e.toInt.toNat := by
  unfold exponentWord at short
  split at short
  case isTrue bounds =>
    cases short
    refine UInt32.toNat_ofNat_of_lt' ?_
    show e.toInt.toNat < 4294967296
    omega
  case isFalse => cases short

/-- An exponent that is not negative has no word only if it is a long one. -/
theorem large_of_exponentWord {e : Int64} {error : EvaluationError} (nonneg : 0 ≤ e.toInt)
    (long : exponentWord e = .error error) : error = overflow ∧ 64 ≤ e.toInt.toNat := by
  unfold exponentWord at long
  split at long
  case isTrue => cases long
  case isFalse outside =>
    cases long
    exact ⟨rfl, by omega⟩

/-- **The power is the exact one.**  For an exponent that is not negative the answer is what
becomes of the power in unbounded integers. -/
theorem power_eq_exact (b : Int64) {e : Int64} (nonneg : 0 ≤ e.toInt) :
    power b e = exact (b.toInt ^ e.toInt.toNat) := by
  have refused (base : 2 ≤ b.toInt.natAbs) (large : 64 ≤ e.toInt.toNat) :
      exact (b.toInt ^ e.toInt.toNat) = .error overflow :=
    exact_eq_error_iff.mpr ⟨rfl, not_fits_pow base large⟩
  symm
  fun_cases power b e with
  | case1 none =>
    rw [none]
    exact exact_eq_ok_iff.mpr (pow_zero _).symm
  | case2 some small =>
    have positive : e.toInt.toNat ≠ 0 := by
      intro h
      exact some (Int64.toInt_inj.mp (by rw [Int64.toInt_zero]; omega))
    refine exact_eq_ok_iff.mpr ?_
    rcases small with rfl | rfl
    · exact (zero_pow positive).symm
    · exact (one_pow _).symm
  | case3 _ _ negative =>
    refine exact_eq_ok_iff.mpr ?_
    rw [negative, show (-1 : Int64).toInt = -1 from rfl, neg_one_pow_toNat nonneg]
    split <;> rfl
  | case4 _ other negOne e long =>
    rw [not_or] at other
    obtain ⟨rfl, large⟩ := large_of_exponentWord nonneg long
    exact refused (two_le_natAbs other.1 other.2 negOne) large
  | case5 _ other negOne word short large =>
    rw [not_or] at other
    rw [UInt32.le_iff_toNat_le, toNat_of_exponentWord short] at large
    exact refused (two_le_natAbs other.1 other.2 negOne) large
  | case6 _ _ _ word short => rw [toNat_of_exponentWord short, Int.pow_eq]

/-! ## Remainders -/

/-- The truncated remainder is smaller than the divisor. -/
theorem natAbs_tmod_lt (a : Int) {b : Int} (nonzero : b ≠ 0) :
    (a.tmod b).natAbs < b.natAbs := by
  rw [Int.natAbs_tmod]
  exact Nat.mod_lt _ (Int.natAbs_pos.mpr nonzero)

/-- The remainder of the floored division is what differs from the dividend by a multiple of
the divisor and lies between the divisor and zero. -/
theorem fmod_eq_of_between {a b q r : Int} (whole : r + b * q = a)
    (between : 0 ≤ r ∧ r < b ∨ b < r ∧ r ≤ 0) : a.fmod b = r := by
  rcases between with positive | negative
  · exact ((Int.fdiv_fmod_unique (by omega)).mpr ⟨whole, positive⟩).2
  · exact ((Int.fdiv_fmod_unique' (by omega)).mpr ⟨whole, negative⟩).2

/-- There is no remainder by zero, and there is one by everything else. -/
theorem floorMod?_eq_none_iff {a b : Int64} : floorMod? a b = none ↔ b = 0 := by
  unfold floorMod?
  split
  case isTrue zero => exact iff_of_true rfl zero
  case isFalse nonzero => exact iff_of_false (by dsimp only; split <;> nofun) nonzero

/-- A remainder whose sign is not that of the divisor can be added to it.  The sum does not wrap
around. -/
theorem toInt_mod_add {a b : Int64} (nonzero : b ≠ 0)
    (differ : ¬ ((a % b).toInt < 0 ↔ b.toInt < 0)) :
    (a % b + b).toInt = (a % b).toInt + b.toInt := by
  have divisor : b.toInt ≠ 0 := fun h => nonzero (Int64.toInt_inj.mp h)
  have small := natAbs_tmod_lt a.toInt divisor
  have lower := b.le_toInt
  have upper := b.toInt_lt
  rw [Int64.toInt_mod] at differ
  rw [Int64.toInt_add, Int64.toInt_mod]
  exact Int.bmod_eq_of_le (by omega) (by omega)

/-- **The corrected remainder is that of the floored division.** -/
theorem floorMod?_eq_some_iff {a b r : Int64} :
    floorMod? a b = some r ↔ b ≠ 0 ∧ r.toInt = a.toInt.fmod b.toInt := by
  unfold floorMod?
  split
  case isTrue zero => exact iff_of_false nofun fun h => h.1 zero
  case isFalse nonzero =>
    have divisor : b.toInt ≠ 0 := fun h => nonzero (Int64.toInt_inj.mp h)
    have small := natAbs_tmod_lt a.toInt divisor
    have whole := Int.tmod_add_mul_tdiv a.toInt b.toInt
    have remainder : (a % b).toInt = a.toInt.tmod b.toInt := Int64.toInt_mod a b
    simp only [ne_eq, ← Int64.toInt_inj, Int64.lt_iff_toInt_lt, Int64.toInt_zero,
      decide_eq_decide]
    split
    case isTrue differ =>
      have sum := toInt_mod_add nonzero differ.2
      rw [remainder] at sum differ
      have corrected : a.toInt.tmod b.toInt + b.toInt + b.toInt * (a.toInt.tdiv b.toInt - 1) =
          a.toInt := by
        rw [Int.mul_sub]
        omega
      have floored : a.toInt.fmod b.toInt = a.toInt.tmod b.toInt + b.toInt :=
        fmod_eq_of_between corrected (by omega)
      rw [floored, ← sum, Int64.toInt_inj, Option.some_inj]
      simp [divisor, eq_comm]
    case isFalse agree =>
      rw [remainder] at agree
      have floored : a.toInt.fmod b.toInt = a.toInt.tmod b.toInt :=
        fmod_eq_of_between whole (by omega)
      rw [floored, ← remainder, Int64.toInt_inj, Option.some_inj]
      simp [divisor, eq_comm]

/-- The floored quotient is the rational one rounded down. -/
theorem fdiv_eq_floor (a b : Int) : a.fdiv b = ⌊(a / b : ℚ)⌋ := by
  obtain ⟨n, rfl | rfl⟩ := b.eq_nat_or_neg
  · rw [Int.fdiv_eq_ediv_of_nonneg a n.cast_nonneg, Int.cast_natCast,
      Rat.floor_intCast_div_natCast]
  · have turned : (a / (-n : Int) : ℚ) = (-a : Int) / n := by
      push_cast
      rw [div_neg, neg_div]
    rw [turned, Rat.floor_intCast_div_natCast, ← Int.neg_fdiv_neg, neg_neg,
      Int.fdiv_eq_ediv_of_nonneg _ n.cast_nonneg]

/-- The remainder of the floored division lies between zero and the divisor. -/
theorem fmod_between (a : Int) {b : Int} (nonzero : b ≠ 0) :
    0 ≤ a.fmod b ∧ a.fmod b < b ∨ b < a.fmod b ∧ a.fmod b ≤ 0 := by
  rcases Int.lt_or_gt_of_ne nonzero with negative | positive
  · exact .inr ((Int.fdiv_fmod_unique' negative).mp ⟨rfl, rfl⟩).2
  · exact .inl ((Int.fdiv_fmod_unique positive).mp ⟨rfl, rfl⟩).2

/-- What lies between zero and the divisor is smaller than the divisor. -/
theorem abs_lt_of_between {b r : Int} (between : 0 ≤ r ∧ r < b ∨ b < r ∧ r ≤ 0) : |r| < |b| := by
  rcases between with ⟨nonneg, below⟩ | ⟨above, nonpos⟩
  · rwa [abs_of_nonneg nonneg, abs_of_pos (nonneg.trans_lt below)]
  · rw [abs_of_nonpos nonpos, abs_of_neg (above.trans_le nonpos)]
    exact Int.neg_lt_neg above

/-- What lies between zero and the divisor is zero or has the sign of the divisor. -/
theorem sign_eq_of_between {b r : Int} (between : 0 ≤ r ∧ r < b ∨ b < r ∧ r ≤ 0)
    (nonzero : r ≠ 0) : r.sign = b.sign := by
  rcases between with ⟨nonneg, below⟩ | ⟨above, nonpos⟩
  · rw [Int.sign_eq_one_of_pos (by omega), Int.sign_eq_one_of_pos (by omega)]
  · rw [Int.sign_eq_neg_one_of_neg (by omega), Int.sign_eq_neg_one_of_neg (by omega)]

/-- **The remainder of integers is the floored one.**  There is none by zero, and by zero only.  By
any other divisor it is the dividend less the divisor times the quotient rounded down, so that it is
smaller than the divisor and has its sign, unless it is zero.  Where the truncated remainder is
corrected, the divisor is added to it without an overflow. -/
theorem remainder_floored (a b : Int64) :
    (floorMod? a b = none ↔ b = 0) ∧
    (b ≠ 0 → ∃ r, floorMod? a b = some r ∧
      r.toInt = a.toInt - b.toInt * ⌊(a.toInt / b.toInt : ℚ)⌋ ∧
      |r.toInt| < |b.toInt| ∧ (r = 0 ∨ r.toInt.sign = b.toInt.sign)) ∧
    (b ≠ 0 → a % b ≠ 0 → decide (a % b < 0) ≠ decide (b < 0) →
      add (a % b) b = .ok (a % b + b)) := by
  refine ⟨floorMod?_eq_none_iff, fun nonzero => ?_, fun nonzero _ differ => ?_⟩
  · obtain ⟨r, found⟩ := Option.ne_none_iff_exists'.mp (mt floorMod?_eq_none_iff.mp nonzero)
    have remainder := (floorMod?_eq_some_iff.mp found).2
    have between := fmod_between a.toInt fun zero => nonzero (Int64.toInt_inj.mp zero)
    rw [← remainder] at between
    refine ⟨r, found, ?_, abs_lt_of_between between, ?_⟩
    · rw [remainder, Int.fmod_def, fdiv_eq_floor]
    · rw [← Int64.toInt_inj, Int64.toInt_zero]
      exact or_iff_not_imp_left.mpr (sign_eq_of_between between)
  · have differ : ¬ ((a % b).toInt < 0 ↔ b.toInt < 0) := by
      simpa [Int64.lt_iff_toInt_lt] using differ
    exact exact_eq_ok_iff.mpr (toInt_mod_add nonzero differ)

/-- The least integer has the remainder zero by `-1`, although the quotient does not fit. -/
example : floorMod? Int64.minValue (-1) = some 0 := by decide

/-- The greatest integer is corrected by the least one. -/
example : floorMod? Int64.maxValue Int64.minValue = some (-1) := by decide

end Integer
end Calculator
