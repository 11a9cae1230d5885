import Calculator.Number
import Calculator.Proofs.Binary64.Shortest

/-!
# Numerals written in full

`Numeral.ofDecimal` lays a decimal out.  This file is about the numerals that it writes
without an exponent: what they denote, and which doubles get one.

## The digits denote the decimal

The layout moves the comma to its place by putting zeros in front of the digits of a small
decimal, or behind those of a large one.  In the end the digits on both sides of the comma,
taken as one natural number, stand for the decimal in units of the last place
(`inFull_ofDecimal`).  The three ways to lay out a decimal differ only in which zeros are
added.

## The numbers written in full

Whether there is an exponent is decided by the shortest decimal of a double, not by the double
itself.  The two could disagree only next to the bounds, where a double could lie on one side
of a power of ten and its shortest decimal on the other.  Rounding keeps the order of
fractions, so then the double would be the one nearest to the bound; but that one is written
as the power of ten itself.  Hence the bounds are bounds on the double
(`exponent_shortest_eq_none_iff`).
-/

namespace Calculator

open Binary64 (Decimal unitExponent unitsPerOne units)

/-- A numeral without an exponent has digits on both sides of the comma, which denote a
decimal. -/
structure Numeral.InFull (n : Numeral) (d : Decimal) : Prop where
  whole_ne_nil : n.whole ≠ []
  fraction_ne_nil : n.fraction ≠ []
  isDigit_whole : ∀ c ∈ n.whole, c.isDigit = true
  isDigit_fraction : ∀ c ∈ n.fraction, c.isDigit = true
  value : Nat.ofDigitChars 10 (n.whole ++ n.fraction) 0 * Binary64.finestPerOne =
    d.finest * Nat.pow 10 n.fraction.length

namespace Numeral

/-- Written digits are digits. -/
theorem isDigit_toDigits (n : Nat) : ∀ c ∈ Nat.toDigits 10 n, c.isDigit = true :=
  fun _ h => Nat.isDigit_of_mem_toDigits (by decide) (by decide) h

/-- Zeros are digits. -/
theorem isDigit_replicate_zero (k : Nat) : ∀ c ∈ List.replicate k '0', c.isDigit = true := by
  intro c h
  rw [List.eq_of_mem_replicate h]
  decide

/-- Zeros in front of digits do not count. -/
theorem ofDigitChars_zeros_append (k : Nat) (digits : List Char) :
    Nat.ofDigitChars 10 (List.replicate k '0' ++ digits) 0 = Nat.ofDigitChars 10 digits 0 := by
  rw [Nat.ofDigitChars_append, Nat.ofDigitChars_replicate_zero, Nat.mul_zero]

/-- A decimal below one is written with zeros in front. -/
theorem inFull_of_below {d : Decimal} {k : Nat}
    (place : unitExponent = d.shift + k + (Nat.toDigits 10 d.coefficient).length) :
    InFull ⟨['0'], List.replicate k '0' ++ Nat.toDigits 10 d.coefficient, none⟩ d where
  whole_ne_nil := List.cons_ne_nil _ _
  fraction_ne_nil := List.append_ne_nil_of_right_ne_nil _ Nat.toDigits_ne_nil
  isDigit_whole := isDigit_replicate_zero 1
  isDigit_fraction := List.forall_mem_append.mpr ⟨isDigit_replicate_zero k, isDigit_toDigits _⟩
  value := by
    have zeros : ['0'] ++ (List.replicate k '0' ++ Nat.toDigits 10 d.coefficient) =
        List.replicate (k + 1) '0' ++ Nat.toDigits 10 d.coefficient := rfl
    dsimp only
    rw [zeros, ofDigitChars_zeros_append, Nat.ofDigitChars_ten_toDigits, List.length_append,
      List.length_replicate, Decimal.finest, Binary64.finestPerOne, place]
    simp only [Nat.pow_eq]
    ring

/-- A decimal with places behind the comma is written with its own digits only. -/
theorem inFull_of_within {d : Decimal} {size : Nat} (positive : 0 < size)
    (place : unitExponent + size = d.shift + (Nat.toDigits 10 d.coefficient).length)
    (inside : size < (Nat.toDigits 10 d.coefficient).length) :
    InFull ⟨(Nat.toDigits 10 d.coefficient).take size, (Nat.toDigits 10 d.coefficient).drop size,
      none⟩ d where
  whole_ne_nil := by
    rw [← List.length_pos_iff, List.length_take]
    omega
  fraction_ne_nil := by
    rw [← List.length_pos_iff, List.length_drop]
    omega
  isDigit_whole c h := isDigit_toDigits _ c (List.mem_of_mem_take h)
  isDigit_fraction c h := isDigit_toDigits _ c (List.mem_of_mem_drop h)
  value := by
    have exponents : unitExponent = d.shift + ((Nat.toDigits 10 d.coefficient).length - size) := by
      omega
    dsimp only
    rw [List.take_append_drop, Nat.ofDigitChars_ten_toDigits, List.length_drop,
      Decimal.finest, Binary64.finestPerOne, exponents]
    simp only [Nat.pow_eq]
    ring

/-- A decimal without places behind the comma is written with zeros behind. -/
theorem inFull_of_above {d : Decimal} {k : Nat} (place : d.shift = unitExponent + k) :
    InFull ⟨Nat.toDigits 10 d.coefficient ++ List.replicate k '0', ['0'], none⟩ d where
  whole_ne_nil := List.append_ne_nil_of_left_ne_nil Nat.toDigits_ne_nil _
  fraction_ne_nil := List.cons_ne_nil _ _
  isDigit_whole := List.forall_mem_append.mpr ⟨isDigit_toDigits _, isDigit_replicate_zero k⟩
  isDigit_fraction := isDigit_replicate_zero 1
  value := by
    have zeros : Nat.toDigits 10 d.coefficient ++ List.replicate k '0' ++ ['0'] =
        Nat.toDigits 10 d.coefficient ++ List.replicate (k + 1) '0' := by
      rw [List.append_assoc, ← List.replicate_succ']
    dsimp only
    rw [zeros, Nat.ofDigitChars_append, Nat.ofDigitChars_ten_toDigits,
      Nat.ofDigitChars_replicate_zero, Decimal.finest, Binary64.finestPerOne, place]
    simp only [Nat.pow_eq, List.length_singleton]
    ring

/-- A decimal is written without an exponent when its first digit stands between the fourth
place behind the comma and the sixteenth in front of it. -/
theorem exponent_ofDecimal_eq_none_iff {d : Decimal} :
    (ofDecimal d).exponent = none ↔
      unitExponent < (Nat.toDigits 10 d.coefficient).length + d.shift + 4 ∧
        (Nat.toDigits 10 d.coefficient).length + d.shift ≤ unitExponent + 16 := by
  unfold ofDecimal
  dsimp only
  split
  · refine iff_of_false (Option.some_ne_none _) ?_
    omega
  · split <;> exact iff_of_true rfl (by omega)

/-- **A numeral without an exponent denotes the decimal that is laid out.** -/
theorem inFull_ofDecimal {d : Decimal} (full : (ofDecimal d).exponent = none) :
    InFull (ofDecimal d) d := by
  have nonempty : 0 < (Nat.toDigits 10 d.coefficient).length := Nat.length_toDigits_pos
  have bounds := exponent_ofDecimal_eq_none_iff.mp full
  unfold ofDecimal
  dsimp only
  rw [if_neg (by omega)]
  split
  case isTrue below =>
    refine inFull_of_below ?_
    omega
  case isFalse =>
    generalize placed : (((Nat.toDigits 10 d.coefficient).length + d.shift : Nat) -
      (unitExponent + 1 : Nat) : Int).toNat + 1 = size
    have place : unitExponent + size = d.shift + (Nat.toDigits 10 d.coefficient).length := by
      omega
    by_cases inside : size < (Nat.toDigits 10 d.coefficient).length
    · have some : ((Nat.toDigits 10 d.coefficient).drop size).isEmpty = false := by
        rw [List.isEmpty_eq_false_iff, ← List.length_pos_iff, List.length_drop]
        omega
      rw [if_neg (by simp [some]), Nat.sub_eq_zero_of_le (Nat.le_of_lt inside),
        List.replicate_zero, List.append_nil]
      exact inFull_of_within (by omega) place inside
    · rw [List.drop_eq_nil_of_le (by omega), List.take_of_length_le (by omega)]
      refine inFull_of_above ?_
      omega

/-! ## The doubles written in full -/

/-- The number of digits of a decimal bounds it. -/
theorem length_toDigits_add_le_iff {c s k : Nat} (positive : 0 < c) :
    (Nat.toDigits 10 c).length + s ≤ k ↔ c * Nat.pow 10 s < Nat.pow 10 k := by
  have nonempty : 0 < (Nat.toDigits 10 c).length := Nat.length_toDigits_pos
  simp only [Nat.pow_eq]
  by_cases short : k ≤ s
  · refine iff_of_false (by omega) (Nat.not_lt.mpr ?_)
    calc 10 ^ k ≤ 10 ^ s := Nat.pow_le_pow_right (by decide) short
      _ ≤ c * 10 ^ s := Nat.le_mul_of_pos_left _ positive
  · obtain ⟨j, rfl⟩ := Nat.exists_eq_add_of_lt (Nat.lt_of_not_le short)
    rw [show s + j + 1 = j + 1 + s by omega, Nat.add_le_add_iff_right,
      Nat.length_toDigits_le_iff (by decide) (Nat.succ_pos j), Nat.pow_add 10 (j + 1) s,
      Nat.mul_lt_mul_right (Nat.pow_pos (by decide))]

/-- The double nearest to the least number that is written in full lies above it and is
written as that number. -/
theorem least_in_full :
    1 * unitsPerOne ≤ units (Binary64.nearest 1 10000) * 10000 ∧
      (Binary64.shortest (Binary64.nearest 1 10000)).finest * 10000 =
        1 * Binary64.finestPerOne := by
  decide +kernel

/-- The least number that is too great to be written in full is a double, and is written as it
is. -/
theorem least_beyond_full :
    10000000000000000 * unitsPerOne ≤ units (Binary64.nearest 10000000000000000 1) * 1 ∧
      (Binary64.shortest (Binary64.nearest 10000000000000000 1)).finest * 1 =
        10000000000000000 * Binary64.finestPerOne := by
  decide +kernel

/-- Only zero has a shortest decimal without a digit other than zero. -/
theorem coefficient_shortest_pos {code : Nat} (finite : code ≤ Binary64.infinite)
    (nonzero : code ≠ 0) : 0 < (Binary64.shortest code).coefficient := by
  refine Nat.pos_of_ne_zero fun none => nonzero ?_
  have back := Binary64.nearest_shortest finite
  rw [Decimal.nearest, none, Nat.zero_mul] at back
  rw [← back]
  have positive := Binary64.finestPerOne_pos
  simp [Binary64.nearest, Binary64.roundHalfEven, Nat.ne_of_gt positive]

/-- **The doubles without an exponent** are zero and those from `0,0001` up to but not
including `10 ^ 16`. -/
theorem exponent_shortest_eq_none_iff {code : Nat} (finite : code ≤ Binary64.infinite) :
    (ofDecimal (Binary64.shortest code)).exponent = none ↔
      code = 0 ∨ unitsPerOne ≤ units code * 10000 ∧
        units code < 10000000000000000 * unitsPerOne := by
  rw [exponent_ofDecimal_eq_none_iff]
  by_cases zero : code = 0
  · refine iff_of_true ?_ (.inl zero)
    simp [zero, Binary64.shortest, Nat.toDigits_zero]
    omega
  have positive := coefficient_shortest_pos finite zero
  have lower := Binary64.le_shortest_iff (by decide) finite least_in_full.1 least_in_full.2
  have upper := not_congr
    (Binary64.le_shortest_iff (by decide) finite least_beyond_full.1 least_beyond_full.2)
  rw [Nat.one_mul, Nat.one_mul] at lower
  rw [Nat.mul_one, Nat.mul_one, Nat.not_le, Nat.not_le] at upper
  rw [or_iff_right zero, ← lower, ← upper, Decimal.finest, Binary64.finestPerOne]
  refine and_congr ?_ ?_
  · obtain ⟨v, exponent⟩ : ∃ v, unitExponent = v + 4 :=
      Nat.exists_eq_add_of_le' (by decide +kernel)
    have power : Nat.pow 10 (v + 4) = Nat.pow 10 v * 10000 := Nat.pow_add 10 v 4
    rw [exponent, power, Nat.mul_le_mul_right_iff (by decide), ← Nat.not_lt,
      ← length_toDigits_add_le_iff positive]
    omega
  · have power : Nat.pow 10 (unitExponent + 16) = 10000000000000000 * Nat.pow 10 unitExponent :=
      (Nat.pow_add 10 unitExponent 16).trans (Nat.mul_comm _ _)
    rw [length_toDigits_add_le_iff positive, power]

/-- A finite double with a positive sign, zero or at least `0,0001` and below `10 ^ 16`.  By
`exponent_shortest_eq_none_iff` these are the ones that are written in full. -/
structure IsPlain (x : Float) : Prop where
  positive : Binary64.isNegative x = false
  finite : Binary64.code x < Binary64.infinite
  range : Binary64.code x = 0 ∨ unitsPerOne ≤ units (Binary64.code x) * 10000 ∧
    units (Binary64.code x) < 10000000000000000 * unitsPerOne

/-- A numeral without an exponent is written as its digits around a comma. -/
theorem toList_of_inFull {n : Numeral} {d : Decimal} (full : n.InFull d)
    (plain : n.exponent = none) : n.toList = n.whole ++ ',' :: n.fraction := by
  rw [toList, fractionText, List.isEmpty_eq_false_iff.mpr full.fraction_ne_nil, plain]
  simp

/-- The digits of a numeral without an exponent are read as the double nearest to the decimal
that was laid out. -/
theorem InFull.isNearest {n : Numeral} {d : Decimal} (full : n.InFull d) :
    Binary64.IsNearest (Nat.ofDigitChars 10 (n.whole ++ n.fraction) 0)
      (Nat.pow 10 n.fraction.length) d.nearest := by
  have places : 0 < Nat.pow 10 n.fraction.length := Nat.pow_pos (by decide)
  have one := Binary64.finestPerOne_pos
  rw [Binary64.isNearest_iff places, ← Binary64.nearest_mul_right places one, full.value,
    Nat.mul_comm (Nat.pow 10 n.fraction.length), Binary64.nearest_mul_right one places]
  rfl

/-- **A double that is written in full is written as digits around a comma, and it is the
double nearest to what they denote.** -/
theorem exists_digits_of_isPlain {x : Float} (plain : IsPlain x) :
    ∃ whole fraction, realText x = whole ++ ',' :: fraction ∧ whole ≠ [] ∧ fraction ≠ [] ∧
      (∀ c ∈ whole, c.isDigit = true) ∧ (∀ c ∈ fraction, c.isDigit = true) ∧
      Binary64.IsNearest (Nat.ofDigitChars 10 (whole ++ fraction) 0)
        (Nat.pow 10 fraction.length) (Binary64.code x) := by
  have finite := Nat.le_of_lt plain.finite
  have none := (exponent_shortest_eq_none_iff finite).mpr plain.range
  have full := inFull_ofDecimal none
  have near := full.isNearest
  rw [Binary64.nearest_shortest finite] at near
  refine ⟨_, _, ?_, full.whole_ne_nil, full.fraction_ne_nil, full.isDigit_whole,
    full.isDigit_fraction, near⟩
  unfold realText
  dsimp only
  rw [if_neg (Nat.not_lt.mpr finite), plain.positive, if_neg Bool.false_ne_true,
    List.nil_append, if_neg (Nat.ne_of_lt plain.finite), toList_of_inFull full none]

end Numeral
end Calculator
