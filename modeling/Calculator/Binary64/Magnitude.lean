/-!
# Magnitudes of double-precision numbers

A real number of the calculator is an IEEE 754 double.  Apart from its sign such a
number is one natural number, its **code**: the low 63 bits, read as an integer.
Codes are ordered like the magnitudes they stand for, so everything that reads or
writes a real number can be said about codes, in exact natural-number arithmetic.

## The grid

All finite doubles are whole multiples of `2 ^ (-1074)`, the least positive one, which
is the **unit** here.  `units code` is that multiple.  Codes come in runs of
`binade = 2 ^ 52`; within a run neighbouring codes are the same distance apart, and the
distance doubles from one run to the next, except from the first run to the second.
`scale code` is the base-two logarithm of the distance and `mantissa code` counts it, so
that `units code = mantissa code * 2 ^ scale code`.

## Rounding

`nearest numerator denominator` is the code of the double nearest to a fraction.  The
fraction is expressed in units, the distance that applies around it is read off the
length of its whole part, and the count of that distance is rounded to the nearest
integer, to the even one of two equally near.  When the count rounds up to the end
of a run, adding it to the run's first code carries into the next run by itself.
Fractions beyond the largest finite double get the code of infinity.
-/

namespace Calculator
namespace Binary64

/-- The number of codes in a run of equally spaced doubles. -/
abbrev binade : Nat := 4503599627370496

/-- The code of infinity; smaller codes are finite, larger ones are not numbers. -/
abbrev infinite : Nat := 2047 * binade

/-- The bit that carries the sign, which stands above all codes. -/
abbrev signBit : Nat := 2048 * binade

/-- The power of two that the unit is the reciprocal of.  It is kept closed in proofs,
which hold for any exponent, because the numbers built from it are long. -/
@[irreducible] def unitExponent : Nat := 1074

/-- How many units make one. -/
def unitsPerOne : Nat := Nat.pow 2 unitExponent

theorem unitsPerOne_pos : 0 < unitsPerOne := Nat.pow_pos (by decide)

/-- The base-two logarithm of the distance, in units, between a code's double and
the next one. -/
def scale (code : Nat) : Nat := code / binade - 1

/-- How many of the distances given by `scale` a code's double is away from zero. -/
def mantissa (code : Nat) : Nat := code - scale code * binade

/-- The double with this code, counted in units. -/
def units (code : Nat) : Nat := mantissa code <<< scale code

@[simp] theorem units_zero : units 0 = 0 := rfl

/-- The integer nearest to a fraction; of two equally near ones, the even one. -/
def roundHalfEven (numerator denominator : Nat) : Nat :=
  let quotient := numerator / denominator
  let remainder := numerator % denominator
  if 2 * remainder < denominator ∨ 2 * remainder = denominator ∧ quotient % 2 = 0 then
    quotient
  else
    quotient + 1

/-- A whole quotient needs no rounding. -/
@[simp] theorem roundHalfEven_mul (n : Nat) {d : Nat} (h : 0 < d) :
    roundHalfEven (n * d) d = n := by
  simp [roundHalfEven, Nat.mul_div_cancel n h, h]

/-- The code of the double nearest to a fraction with a positive denominator; of two
equally near ones, the one with the even code. -/
def nearest (numerator denominator : Nat) : Nat :=
  let inUnits := numerator * unitsPerOne
  let distance := (inUnits / denominator).log2 - 52
  min infinite (distance * binade + roundHalfEven inUnits (denominator <<< distance))

/-- A finite code is made up of its run and its place in it. -/
theorem scale_mul_binade_add_mantissa (code : Nat) :
    scale code * binade + mantissa code = code := by
  simp only [scale, mantissa, binade]
  omega

/-- Beyond the first run a mantissa has full length. -/
theorem binade_le_mantissa {code : Nat} (h : scale code ≠ 0) : binade ≤ mantissa code := by
  simp only [scale, mantissa, binade] at h ⊢
  omega

/-- No mantissa is longer than that. -/
theorem mantissa_lt (code : Nat) : mantissa code < 2 * binade := by
  simp only [scale, mantissa, binade]
  omega

/-- The distance around a double is read off its number of units. -/
theorem log2_units_sub (code : Nat) : (units code).log2 - 52 = scale code := by
  have upper := mantissa_lt code
  rw [units, Nat.shiftLeft_eq]
  by_cases zero : scale code = 0
  · rw [zero, Nat.pow_zero, Nat.mul_one]
    have : (mantissa code).log2 ≤ 52 := by
      by_cases none : mantissa code = 0
      · rw [none]
        decide
      · exact Nat.le_of_lt_succ ((Nat.log2_lt none).2 upper)
    omega
  · have lower := binade_le_mantissa zero
    have power := Nat.two_pow_pos (scale code)
    have : (mantissa code * 2 ^ scale code).log2 = 52 + scale code := by
      refine (Nat.log2_eq_iff ?_).2 ⟨?_, ?_⟩
      · exact Nat.ne_of_gt (Nat.mul_pos (by omega) power)
      · rw [Nat.pow_add]
        exact Nat.mul_le_mul_right _ lower
      · rw [Nat.add_right_comm, Nat.pow_add]
        exact Nat.mul_lt_mul_of_pos_right upper power
    omega

/-- A double is the one nearest to its own value. -/
theorem nearest_units {code d : Nat} (finite : code ≤ infinite) (positive : 0 < d) :
    nearest (units code * d) (unitsPerOne * d) = code := by
  have whole : units code * d * unitsPerOne = units code * (unitsPerOne * d) := by
    rw [Nat.mul_assoc, Nat.mul_comm d]
  have one : 0 < unitsPerOne * d := Nat.mul_pos unitsPerOne_pos positive
  have scaled : units code * (unitsPerOne * d) =
      mantissa code * ((unitsPerOne * d) <<< scale code) := by
    rw [units, Nat.shiftLeft_eq, Nat.shiftLeft_eq, Nat.mul_assoc, Nat.mul_comm (2 ^ scale code)]
  have step : 0 < (unitsPerOne * d) <<< scale code := by
    rw [Nat.shiftLeft_eq]
    exact Nat.mul_pos one (Nat.two_pow_pos _)
  unfold nearest
  dsimp only
  rw [whole, Nat.mul_div_cancel _ one, log2_units_sub, scaled, roundHalfEven_mul _ step,
    scale_mul_binade_add_mantissa]
  exact Nat.min_eq_right finite

/-- The double with a given sign and code. -/
def ofCode (negative : Bool) (code : Nat) : Float :=
  Float.ofBits (UInt64.ofNat (if negative then signBit + code else code))

/-- Whether the sign bit of a double is set; a negative zero counts. -/
def isNegative (x : Float) : Bool := decide (signBit ≤ x.toBits.toNat)

/-- The code of a double, its bits without the sign. -/
def code (x : Float) : Nat := x.toBits.toNat % signBit

/-- The double nearest to a fraction of naturals with a positive denominator. -/
def ofFraction (numerator denominator : Nat) : Float :=
  ofCode false (nearest numerator denominator)

/-- The double nearest to an integer. -/
def ofInt (n : Int) : Float := ofCode (decide (n < 0)) (nearest n.natAbs 1)

end Binary64
end Calculator
