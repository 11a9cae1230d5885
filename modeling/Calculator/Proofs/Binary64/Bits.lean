import Calculator.Binary64.Magnitude
import Mathlib

/-!
# A double is its sign and its code

`Float.ofBits` does not take the bits as they are.  It reads them as one of the kinds of
doubles and writes that one down again, so all undefined results come out with the same bits.
Nothing happens to bits that are the bits of a double (`Float.ofBits_toBits`), and so a double
is given by its bits, and by their two parts, the sign and the code (`ofCode_code`).

With this an equation between doubles is an equation between codes (`eq_of_code_eq`).  The codes
beyond infinity are all those of undefined results, and there is one double among them
(`eq_of_infinite_lt_code`), so for these not even the sign has to be looked at.  All other codes
are kept together with the sign (`toNat_toBits_ofCode`).

That a double is packed again to the bits from which it was unpacked is `pack_unpack` of
`Batteries.Data.Float.Lemmas`.  Of the modules of Mathlib only the whole library reaches it, and
so it is imported here, and nowhere else, as a whole.
-/

namespace Calculator
namespace Binary64

open Float.Model (Format)
open Float.Model.UnpackedFloat (packedNaN pack_unpack isNaNBits)

/-- **A double is given by its sign and its code.** -/
theorem ofCode_code (x : Float) : ofCode (isNegative x) (code x) = x := by
  have below : x.toBits.toNat < 2 * signBit := x.toBits.toNat_lt
  have bits : (if isNegative x then signBit + code x else code x) = x.toBits.toNat := by
    simp only [isNegative, code, decide_eq_true_eq, signBit, binade] at below ⊢
    split <;> omega
  rw [ofCode, bits, UInt64.ofNat_toNat, Float.ofBits_toBits]

/-- Doubles with the same sign and the same code are the same. -/
theorem eq_of_code_eq {x y : Float} (sign : isNegative x = isNegative y)
    (same : code x = code y) : x = y := by
  rw [← ofCode_code x, sign, same, ofCode_code]

/-- A code beyond infinity has the exponent of the undefined results, and a mantissa. -/
theorem toBitVec_eq_packedNaN {x : Float} (undefined : infinite < code x) :
    x.toBits.toBitVec = packedNaN Format.binary64 := by
  have below : x.toBits.toBitVec.toNat < 2 * signBit := x.toBits.toNat_lt
  have fields : infinite < x.toBits.toBitVec.toNat % signBit := undefined
  simp only [infinite, signBit, binade] at below fields
  refine x.toModel.valid.eq_packedNaN (BitVec.eq_of_toNat_eq ?_) fun none => ?_
  · show (BitVec.extractLsb 62 52 x.toBits.toBitVec).toNat = 2047
    rw [BitVec.extractLsb_toNat, Nat.shiftRight_eq_div_pow]
    omega
  · have zero : (BitVec.extractLsb 51 0 x.toBits.toBitVec).toNat = 0 := congrArg BitVec.toNat none
    rw [BitVec.extractLsb_toNat, Nat.shiftRight_zero] at zero
    omega

/-- **There is one undefined result.** -/
theorem eq_of_infinite_lt_code {x y : Float} (left : infinite < code x)
    (right : infinite < code y) : x = y :=
  Float.toBits_inj.mp (UInt64.toBitVec_inj.mp
    ((toBitVec_eq_packedNaN left).trans (toBitVec_eq_packedNaN right).symm))

/-! ## The double of a sign and a code -/

/-- The bits of a defined double with a sign and a code are the sign and the code. -/
theorem toNat_toBits_ofCode (negative : Bool) {c : Nat} (defined : c ≤ infinite) :
    (ofCode negative c).toBits.toNat = if negative then signBit + c else c := by
  unfold ofCode
  generalize bits : (if negative then signBit + c else c) = n
  have small : n < 2 ^ 64 ∧ n % signBit ≤ infinite := by
    simp only [← bits, infinite, signBit, binade] at defined ⊢
    split <;> omega
  have word : (UInt64.ofNat n).toNat = n := UInt64.toNat_ofNat_of_lt' small.1
  have number : @isNaNBits Format.binary64 (UInt64.ofNat n).toBitVec = false := by
    rw [isNaNBits, decide_eq_false_iff_not]
    rintro ⟨full, some⟩
    refine some (BitVec.eq_of_toNat_eq ?_)
    have ones : (BitVec.extractLsb 62 52 (UInt64.ofNat n).toBitVec).toNat = 2047 :=
      congrArg BitVec.toNat full
    show (BitVec.extractLsb 51 0 (UInt64.ofNat n).toBitVec).toNat = 0
    rw [BitVec.extractLsb_toNat, Nat.shiftRight_eq_div_pow, UInt64.toNat_toBitVec, word] at ones
    rw [BitVec.extractLsb_toNat, Nat.shiftRight_zero, UInt64.toNat_toBitVec, word]
    simp only [infinite, signBit, binade] at small
    omega
  have kept := @pack_unpack Format.binary64 (UInt64.ofNat n).toBitVec
  rw [number] at kept
  exact (congrArg BitVec.toNat kept).trans word

theorem code_ofCode (negative : Bool) {c : Nat} (defined : c ≤ infinite) :
    code (ofCode negative c) = c := by
  rw [code, toNat_toBits_ofCode negative defined]
  simp only [infinite, signBit, binade] at defined ⊢
  split <;> omega

theorem isNegative_ofCode (negative : Bool) {c : Nat} (defined : c ≤ infinite) :
    isNegative (ofCode negative c) = negative := by
  rw [isNegative, toNat_toBits_ofCode negative defined]
  simp only [infinite, signBit, binade] at defined ⊢
  cases negative with
  | false => exact decide_eq_false (by simp only [Bool.false_eq_true, if_false]; omega)
  | true => exact decide_eq_true (by simp only [if_true]; omega)

end Binary64
end Calculator
