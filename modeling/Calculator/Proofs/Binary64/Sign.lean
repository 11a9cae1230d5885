import Calculator.Proofs.Binary64.Bits
import Calculator.Proofs.Binary64.Nearest

/-!
# Doubles and zero

The tests of the calculator on real numbers are comparisons with zero.  `Float` decides them on
the sign, the mantissa and the exponent that the bits of a double stand for.  Here they are
decided on the sign and the code alone: `compareZero?` says how a double compares to zero, which
an undefined result does not, and `lt_zero_iff`, `le_zero_iff` and `beq_zero_iff` say that this
is what the comparisons find.

## The kinds of doubles

`Unpacks sign code` names what the bits of a double with this sign and code stand for, and
`unpacks` says that there is nothing else.  The three fields of the bits are parts of the code
and its sign, so that it is a matter of comparing the code with the ends of the runs.

## Integers

Widening an integer to the nearest double keeps its place on the one or the other side of zero
(`compareZero?_ofInt`).  There is only one thing to see, that no integer but zero is rounded to
zero, and it is so because the least positive double is nearer to all of them.
-/

namespace Calculator
namespace Binary64

open Float.Model (Format UnpackedFloat)
open Float.Model.UnpackedFloat (unpack unpackExponent unpackMantissa unpackSign Sign)

/-- How a double compares to zero.  Both zeros are equal to it, and an undefined result is not
compared. -/
def compareZero? (x : Float) : Option Ordering :=
  if infinite < code x then none
  else if code x = 0 then some .eq
  else if isNegative x then some .lt
  else some .gt

/-! ## The fields of a double -/

theorem toNat_unpackExponent (x : Float) :
    (@unpackExponent Format.binary64 x.toBits.toBitVec).toNat = code x / binade := by
  show (BitVec.extractLsb 62 52 x.toBits.toBitVec).toNat = x.toBits.toNat % signBit / binade
  rw [BitVec.extractLsb_toNat, Nat.shiftRight_eq_div_pow, UInt64.toNat_toBitVec]
  simp only [signBit, binade]
  omega

theorem toNat_unpackMantissa (x : Float) :
    (@unpackMantissa Format.binary64 x.toBits.toBitVec).toNat = code x % binade := by
  show (BitVec.extractLsb 51 0 x.toBits.toBitVec).toNat = x.toBits.toNat % signBit % binade
  rw [BitVec.extractLsb_toNat, Nat.shiftRight_zero, UInt64.toNat_toBitVec]
  simp only [signBit, binade]
  omega

theorem ofBitVec_unpackSign (x : Float) :
    Sign.ofBitVec (@unpackSign Format.binary64 x.toBits.toBitVec) =
      if isNegative x then .negative else .positive := by
  have below : x.toBits.toNat < 2 * signBit := x.toBits.toNat_lt
  have bit : @unpackSign Format.binary64 x.toBits.toBitVec = 0#1 ↔
      ¬ signBit ≤ x.toBits.toNat := by
    rw [← BitVec.toNat_inj]
    show (BitVec.extractLsb 63 63 x.toBits.toBitVec).toNat = 0 ↔ _
    rw [BitVec.extractLsb_toNat, Nat.shiftRight_eq_div_pow, UInt64.toNat_toBitVec]
    simp only [signBit, binade] at below ⊢
    omega
  by_cases set : signBit ≤ x.toBits.toNat <;> simp [Sign.ofBitVec, isNegative, bit, set]

/-! ## The kinds of doubles -/

/-- What the bits of a double with a sign and a code stand for. -/
inductive Unpacks (sign : Sign) (code : Nat) : UnpackedFloat → Prop
  | undefined : infinite < code → Unpacks sign code .notANumber
  | infinite : code = infinite → Unpacks sign code (.infinity sign)
  | zero : code = 0 → Unpacks sign code (.zero sign)
  | finite (m : Nat) (e : Int) (positive : 0 < m) : code ≠ 0 → code < infinite →
      Unpacks sign code (.finite sign m e positive)

/-- **The code of a double decides which kind of double it is.** -/
theorem unpacks (x : Float) :
    Unpacks (if isNegative x then .negative else .positive) (code x) x.toModel.unpack := by
  have exponent := toNat_unpackExponent x
  have mantissa := toNat_unpackMantissa x
  have below : code x < signBit := Nat.mod_lt _ (by decide)
  rw [← ofBitVec_unpackSign]
  show Unpacks _ _ (unpack Format.binary64 x.toBits.toBitVec)
  rw [unpack]
  have ones : (-BitVec.ofNat Format.binary64.exponentBits 1).toNat = 2047 := rfl
  simp only [BitVec.toNat_eq, exponent, mantissa, ones, BitVec.toNat_zero]
  simp only [signBit, binade] at below ⊢
  split
  case isTrue full =>
    split
    case isTrue none => exact .infinite (by simp only [Binary64.infinite, binade]; omega)
    case isFalse some => exact .undefined (by simp only [Binary64.infinite, binade]; omega)
  case isFalse notFull =>
    have finite : code x < Binary64.infinite := by
      simp only [Binary64.infinite, binade]
      omega
    split
    case isTrue small =>
      split
      case isTrue none => exact .zero (by omega)
      case isFalse some => exact .finite _ _ _ (by omega) finite
    case isFalse large => exact .finite _ _ _ (by omega) finite

theorem unpack_zero : (0.0 : Float).toModel.unpack = .zero .positive := rfl

/-- Comparing a double with zero looks at its sign and its code only. -/
theorem compare_zero (x : Float) :
    x.toModel.unpack.compare (0.0 : Float).toModel.unpack = compareZero? x := by
  have kind := unpacks x
  rw [unpack_zero, compareZero?]
  generalize x.toModel.unpack = u at kind
  cases kind with
  | undefined beyond =>
    rw [if_pos beyond]
    rfl
  | infinite same =>
    have nonzero : infinite ≠ 0 := by decide
    rw [same, if_neg (Nat.lt_irrefl _), if_neg nonzero]
    cases isNegative x <;> rfl
  | zero same =>
    rw [same, if_neg (Nat.not_lt_zero _), if_pos rfl]
    cases isNegative x <;> rfl
  | finite m e positive nonzero below =>
    rw [if_neg (Nat.not_lt.mpr (Nat.le_of_lt below)), if_neg nonzero]
    cases isNegative x <;> rfl

/-! ## The comparisons -/

theorem lt_zero_iff (x : Float) : x < 0.0 ↔ compareZero? x = some .lt := by
  rw [← compare_zero, ← beq_iff_eq]
  exact decide_eq_true_iff

theorem le_zero_iff (x : Float) :
    x ≤ 0.0 ↔ compareZero? x = some .eq ∨ compareZero? x = some .lt := by
  have compared : x ≤ 0.0 ↔ (compareZero? x).any Ordering.isLE = true := by
    rw [← compare_zero]
    exact decide_eq_true_iff
  rw [compared]
  cases compareZero? x with
  | none => simp
  | some o => cases o <;> decide

theorem beq_zero_iff (x : Float) : (x == 0.0) = true ↔ compareZero? x = some .eq := by
  have compared : (x == 0.0) =
      (x.toModel.unpack.compare (0.0 : Float).toModel.unpack == some .eq) := rfl
  rw [compared, beq_iff_eq, compare_zero]

/-! ## Integers -/

/-- No integer but zero is rounded to zero. -/
theorem nearest_one_eq_zero_iff {n : Nat} : nearest n 1 = 0 ↔ n = 0 := by
  constructor
  · intro zero
    have near := isNearest_nearest n Nat.one_pos
    rw [zero] at near
    by_contra nonzero
    -- the least positive double would be nearer
    have far : 0 < n * unitsPerOne := Nat.mul_pos (Nat.pos_of_ne_zero nonzero) unitsPerOne_pos
    have nearer := near.offset_le 1 (by decide)
    have least : units 1 = 1 := rfl
    simp only [offset, units_zero, least] at nearer
    generalize n * unitsPerOne = dividend at nearer far
    omega
  · rintro rfl
    simp [nearest, roundHalfEven]

/-- **An integer that is widened stays on its side of zero.** -/
theorem compareZero?_ofInt (n : Int) : compareZero? (ofInt n) = some (compare n 0) := by
  have defined := (isNearest_nearest n.natAbs Nat.one_pos).le_infinite
  have zero_iff : nearest n.natAbs 1 = 0 ↔ n = 0 :=
    nearest_one_eq_zero_iff.trans Int.natAbs_eq_zero
  simp only [compareZero?, ofInt, code_ofCode _ defined, isNegative_ofCode _ defined,
    if_neg (Nat.not_lt.mpr defined), zero_iff, decide_eq_true_eq]
  split
  case isTrue zero => rw [zero, compare_eq_iff_eq.mpr rfl]
  case isFalse nonzero =>
    split
    case isTrue negative => rw [compare_lt_iff_lt.mpr negative]
    case isFalse positive => rw [compare_gt_iff_gt.mpr (by omega)]

end Binary64
end Calculator
