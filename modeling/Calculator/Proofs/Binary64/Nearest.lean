import Calculator.Binary64.Magnitude
import Mathlib.Order.Monotone.Basic
import Mathlib.Tactic.Ring
import Mathlib.Tactic.SplitIfs

/-!
# Nearest doubles

`Binary64.nearest` computes the code of a double from the digits of a fraction: it reads off
the distance of the doubles around the fraction, divides and rounds.  Here the result is
characterised without any of this.  `IsNearest numerator denominator code` says that no other
code is nearer to the fraction, and that of two equally near ones the code is the even one;
infinity takes part as the double that would follow the largest finite one.  There is
exactly one such code, and it is the computed one (`isNearest_iff`).

## The argument

Codes are ordered like their doubles (`units_strictMono`), so a fraction lies between the
doubles of two neighbouring codes, `floorCode` and the next one (`units_floorCode_mul`,
`units_floorCode_succ_mul`).  All codes below the one or above the other are farther away, and
between the two the remainder of the division decides.

Since the nearest code is characterised by distances, fractions can be compared and extended
without opening the computation again (`nearest_mul_right`, `nearest_le_nearest`).
-/

namespace Calculator
namespace Binary64

/-! ## The order of codes -/

/-- The units of a code that is given by its run and its place in it. -/
theorem units_run_add {e k : Nat} (upper : k < 2 * binade) (lower : e = 0 ∨ binade ≤ k) :
    units (e * binade + k) = k <<< e := by
  have hscale : scale (e * binade + k) = e := by
    simp only [scale, binade] at upper lower ⊢
    omega
  rw [units, mantissa, hscale, Nat.add_sub_cancel_left]

/-- The next double is one distance away. -/
theorem units_succ (code : Nat) : units (code + 1) = (mantissa code + 1) <<< scale code := by
  have upper := mantissa_lt code
  have hcode := scale_mul_binade_add_mantissa code
  have lower : scale code = 0 ∨ binade ≤ mantissa code := by
    by_cases h : scale code = 0
    · exact Or.inl h
    · exact Or.inr (binade_le_mantissa h)
  by_cases last : mantissa code + 1 = 2 * binade
  · -- the last code of a run: the next one begins a run of twice the distance
    have hnext : code + 1 = (scale code + 1) * binade + binade := by
      rw [Nat.add_mul]
      omega
    rw [hnext, units_run_add (by simp only [binade]; omega) (Or.inr (Nat.le_refl _)), last,
      Nat.shiftLeft_eq, Nat.shiftLeft_eq, Nat.pow_succ', ← Nat.mul_assoc, Nat.mul_comm 2]
  · conv_lhs => rw [← hcode, Nat.add_assoc]
    exact units_run_add (by omega) (lower.imp_right fun h => by omega)

/-- Codes are ordered like the doubles they stand for. -/
theorem units_strictMono : StrictMono units := by
  refine strictMono_nat_of_lt_succ fun code => ?_
  rw [units_succ, units, Nat.shiftLeft_eq, Nat.shiftLeft_eq]
  exact Nat.mul_lt_mul_of_pos_right (Nat.lt_succ_self _) (Nat.two_pow_pos _)

/-! ## The codes around a fraction -/

/-- The base-two logarithm of the distance of the doubles around a fraction. -/
def scaleAt (numerator denominator : Nat) : Nat :=
  (numerator * unitsPerOne / denominator).log2 - 52

/-- The greatest code whose double is not above a fraction. -/
def floorCode (numerator denominator : Nat) : Nat :=
  scaleAt numerator denominator * binade +
    numerator * unitsPerOne / (denominator <<< scaleAt numerator denominator)

variable {numerator denominator : Nat}

/-- The count of distances below a fraction has the length of a mantissa. -/
theorem floorMantissa_bounds (numerator denominator : Nat) :
    numerator * unitsPerOne / (denominator <<< scaleAt numerator denominator) < 2 * binade ∧
    (scaleAt numerator denominator = 0 ∨
      binade ≤ numerator * unitsPerOne / (denominator <<< scaleAt numerator denominator)) := by
  rw [Nat.shiftLeft_eq, ← Nat.div_div_eq_div_mul]
  unfold scaleAt
  generalize numerator * unitsPerOne / denominator = whole
  constructor
  · rw [Nat.div_lt_iff_lt_mul (Nat.two_pow_pos _)]
    calc whole < 2 ^ (whole.log2 + 1) := Nat.lt_log2_self
      _ ≤ 2 ^ (53 + (whole.log2 - 52)) := Nat.pow_le_pow_right (by decide) (by omega)
      _ = 2 * binade * 2 ^ (whole.log2 - 52) := Nat.pow_add 2 53 _
  · by_cases h : whole.log2 - 52 = 0
    · exact Or.inl h
    · refine Or.inr ((Nat.le_div_iff_mul_le (Nat.two_pow_pos _)).mpr ?_)
      calc binade * 2 ^ (whole.log2 - 52) = 2 ^ (52 + (whole.log2 - 52)) :=
            (Nat.pow_add 2 52 _).symm
        _ = 2 ^ whole.log2 := by congr 1; omega
        _ ≤ whole := Nat.log2_self_le (by rintro rfl; exact h rfl)

/-- The double below a fraction, scaled by the denominator, is the dividend without the
remainder. -/
theorem units_floorCode_mul (numerator denominator : Nat) :
    units (floorCode numerator denominator) * denominator +
        numerator * unitsPerOne % (denominator <<< scaleAt numerator denominator) =
      numerator * unitsPerOne := by
  obtain ⟨upper, lower⟩ := floorMantissa_bounds numerator denominator
  rw [floorCode, units_run_add upper lower, Nat.shiftLeft_eq, Nat.mul_assoc,
    Nat.mul_comm _ denominator, ← Nat.shiftLeft_eq]
  exact Nat.div_add_mod' _ _

/-- The double above a fraction is one distance away from the one below it. -/
theorem units_floorCode_succ_mul (numerator denominator : Nat) :
    units (floorCode numerator denominator + 1) * denominator =
      units (floorCode numerator denominator) * denominator +
        denominator <<< scaleAt numerator denominator := by
  obtain ⟨upper, lower⟩ := floorMantissa_bounds numerator denominator
  have hunits : units (floorCode numerator denominator) = _ := units_run_add upper lower
  have hsucc := units_succ (floorCode numerator denominator)
  have hscale : scale (floorCode numerator denominator) = scaleAt numerator denominator := by
    unfold floorCode
    simp only [scale, binade] at upper lower ⊢
    omega
  have hmantissa : mantissa (floorCode numerator denominator) =
      numerator * unitsPerOne / (denominator <<< scaleAt numerator denominator) := by
    rw [mantissa, hscale, floorCode, Nat.add_sub_cancel_left]
  rw [hsucc, hunits, hmantissa, hscale, Nat.shiftLeft_eq, Nat.shiftLeft_eq, Nat.add_mul,
    Nat.one_mul, Nat.add_mul, Nat.shiftLeft_eq, Nat.mul_comm denominator]

/-! ## Being nearest -/

/-- How far a code's double is from a fraction, in units of one part of the denominator. -/
def offset (numerator denominator code : Nat) : Nat :=
  ((units code * denominator : Nat) - (numerator * unitsPerOne : Nat) : Int).natAbs

/-- A code's double is the one nearest to a fraction: no other double is nearer, and of two
equally near ones it is the one with the even code.  Infinity counts as the double after the
largest finite one. -/
structure IsNearest (numerator denominator code : Nat) : Prop where
  le_infinite : code ≤ infinite
  offset_le : ∀ other ≤ infinite,
    offset numerator denominator code ≤ offset numerator denominator other
  even : ∀ other ≤ infinite, other ≠ code →
    offset numerator denominator other = offset numerator denominator code → code % 2 = 0

theorem units_mul_lt (positive : 0 < denominator) {a b : Nat} (h : a < b) :
    units a * denominator < units b * denominator :=
  Nat.mul_lt_mul_of_pos_right (units_strictMono h) positive

theorem units_mul_le (denominator : Nat) {a b : Nat} (h : a ≤ b) :
    units a * denominator ≤ units b * denominator :=
  Nat.mul_le_mul_right denominator (units_strictMono.monotone h)

/-- There is only one nearest code. -/
theorem IsNearest.unique {a b : Nat} (positive : 0 < denominator)
    (ha : IsNearest numerator denominator a) (hb : IsNearest numerator denominator b) :
    a = b := by
  have key : ∀ {a b : Nat}, IsNearest numerator denominator a →
      IsNearest numerator denominator b → ¬ a < b := by
    intro a b ha hb hlt
    have heq : offset numerator denominator a = offset numerator denominator b :=
      Nat.le_antisymm (ha.offset_le b hb.le_infinite) (hb.offset_le a ha.le_infinite)
    have heven := ha.even b hb.le_infinite (Nat.ne_of_gt hlt) heq.symm
    have heven' := hb.even a ha.le_infinite (Nat.ne_of_lt hlt) heq
    -- a third code lies between two even ones, and its double is nearer than both
    have hbetween : a + 1 < b := by omega
    have hle := ha.offset_le (a + 1) (by have := hb.le_infinite; omega)
    have hleft := units_mul_lt positive (Nat.lt_add_one a)
    have hright := units_mul_lt positive hbetween
    simp only [offset] at heq hle
    omega
  have hab := key ha hb
  have hba := key hb ha
  omega

/-- Being nearest, as one condition on every other code. -/
theorem isNearest_of_forall {code : Nat} (hle : code ≤ infinite)
    (h : ∀ other ≤ infinite, other ≠ code →
      offset numerator denominator code < offset numerator denominator other ∨
      offset numerator denominator code = offset numerator denominator other ∧ code % 2 = 0) :
    IsNearest numerator denominator code := by
  refine ⟨hle, fun other ho => ?_, fun other ho hne heq => ?_⟩
  · by_cases hne : other = code
    · rw [hne]
    · rcases h other ho hne with h | h
      · exact Nat.le_of_lt h
      · exact Nat.le_of_eq h.1
  · rcases h other ho hne with h | h
    · exact absurd heq (Nat.ne_of_gt h)
    · exact h.2

/-- Infinity is nearest to a fraction that is not below it. -/
theorem isNearest_infinite (positive : 0 < denominator)
    (h : units infinite * denominator ≤ numerator * unitsPerOne) :
    IsNearest numerator denominator infinite := by
  refine isNearest_of_forall (Nat.le_refl _) fun other hle hne => Or.inl ?_
  have := units_mul_lt positive (Nat.lt_of_le_of_ne hle hne)
  simp only [offset]
  generalize numerator * unitsPerOne = dividend at h ⊢
  omega

/-- The code below a fraction is nearest if the next one is farther away, or as far and odd. -/
theorem isNearest_below (positive : 0 < denominator) {code : Nat} (hle : code ≤ infinite)
    (below : units code * denominator ≤ numerator * unitsPerOne)
    (near : numerator * unitsPerOne - units code * denominator ≤
      units (code + 1) * denominator - numerator * unitsPerOne)
    (tie : numerator * unitsPerOne - units code * denominator =
      units (code + 1) * denominator - numerator * unitsPerOne → code % 2 = 0) :
    IsNearest numerator denominator code := by
  refine isNearest_of_forall hle fun other _ hne => ?_
  have hnext := units_mul_lt positive (Nat.lt_add_one code)
  have hother : units other * denominator < units code * denominator ∨
      units (code + 1) * denominator ≤ units other * denominator := by
    rcases Nat.lt_or_gt_of_ne hne with hlt | hgt
    · exact Or.inl (units_mul_lt positive hlt)
    · exact Or.inr (units_mul_le denominator hgt)
  clear hle
  simp only [offset]
  generalize numerator * unitsPerOne = dividend at below near tie ⊢
  omega

/-- The code above a fraction is nearest if the one before it is farther away, or as far and
odd. -/
theorem isNearest_above (positive : 0 < denominator) {code : Nat} (hle : code + 1 ≤ infinite)
    (above : numerator * unitsPerOne ≤ units (code + 1) * denominator)
    (near : units (code + 1) * denominator - numerator * unitsPerOne ≤
      numerator * unitsPerOne - units code * denominator)
    (tie : units (code + 1) * denominator - numerator * unitsPerOne =
      numerator * unitsPerOne - units code * denominator → code % 2 = 1) :
    IsNearest numerator denominator (code + 1) := by
  refine isNearest_of_forall hle fun other _ hne => ?_
  have hprevious := units_mul_lt positive (Nat.lt_add_one code)
  have hother : units other * denominator ≤ units code * denominator ∨
      units (code + 1) * denominator < units other * denominator := by
    rcases Nat.lt_or_gt_of_ne hne with hlt | hgt
    · exact Or.inl (units_mul_le denominator (Nat.le_of_lt_succ hlt))
    · exact Or.inr (units_mul_lt positive hgt)
  clear hle
  simp only [offset]
  generalize numerator * unitsPerOne = dividend at above near tie ⊢
  omega

/-- The computed code is the one below a fraction or the next one, as the remainder says. -/
theorem nearest_eq_min (numerator denominator : Nat) :
    nearest numerator denominator = min infinite
      (if 2 * (numerator * unitsPerOne % (denominator <<< scaleAt numerator denominator)) <
          denominator <<< scaleAt numerator denominator ∨
        2 * (numerator * unitsPerOne % (denominator <<< scaleAt numerator denominator)) =
          denominator <<< scaleAt numerator denominator ∧
        floorCode numerator denominator % 2 = 0
      then floorCode numerator denominator else floorCode numerator denominator + 1) := by
  have hparity : floorCode numerator denominator % 2 =
      numerator * unitsPerOne / (denominator <<< scaleAt numerator denominator) % 2 := by
    simp only [floorCode, binade]
    omega
  have hrounded : nearest numerator denominator =
      min infinite (scaleAt numerator denominator * binade +
        roundHalfEven (numerator * unitsPerOne)
          (denominator <<< scaleAt numerator denominator)) := rfl
  rw [hparity, hrounded, roundHalfEven]
  congr 1
  split_ifs
  · rfl
  · rw [floorCode, Nat.add_assoc]

/-- The computed code is nearest. -/
theorem isNearest_nearest (numerator : Nat) (positive : 0 < denominator) :
    IsNearest numerator denominator (nearest numerator denominator) := by
  have hbelow := units_floorCode_mul numerator denominator
  have habove := units_floorCode_succ_mul numerator denominator
  have hmod : numerator * unitsPerOne % (denominator <<< scaleAt numerator denominator) <
      denominator <<< scaleAt numerator denominator := by
    refine Nat.mod_lt _ ?_
    rw [Nat.shiftLeft_eq]
    exact Nat.mul_pos positive (Nat.two_pow_pos _)
  rw [nearest_eq_min]
  generalize numerator * unitsPerOne % (denominator <<< scaleAt numerator denominator) =
    remainder at *
  generalize denominator <<< scaleAt numerator denominator = distance at *
  generalize floorCode numerator denominator = code at *
  by_cases hlarge : infinite ≤ code
  · -- the fraction is not below infinity, where every greater code is cut off
    have hcut : infinite ≤ if 2 * remainder < distance ∨
        2 * remainder = distance ∧ code % 2 = 0 then code else code + 1 := by
      split
      · exact hlarge
      · exact Nat.le_succ_of_le hlarge
    rw [Nat.min_eq_left hcut]
    refine isNearest_infinite positive ?_
    rw [← hbelow]
    exact Nat.le_add_right_of_le (units_mul_le denominator hlarge)
  · have hlt : code + 1 ≤ infinite := Nat.lt_of_not_le hlarge
    split
    · next hdown =>
      rw [Nat.min_eq_right (Nat.le_of_succ_le hlt)]
      clear hlarge
      refine isNearest_below positive (Nat.le_of_succ_le hlt) ?_ ?_ ?_
      all_goals
        clear hlt
        rw [← hbelow]
        omega
    · next hup =>
      rw [Nat.min_eq_right hlt]
      clear hlarge
      refine isNearest_above positive hlt ?_ ?_ ?_
      all_goals
        clear hlt
        rw [← hbelow]
        omega

/-- **The computed code is the nearest one.** -/
theorem isNearest_iff {code : Nat} (positive : 0 < denominator) :
    IsNearest numerator denominator code ↔ nearest numerator denominator = code := by
  constructor
  · exact fun h => (isNearest_nearest numerator positive).unique positive h
  · rintro rfl
    exact isNearest_nearest numerator positive

/-! ## Fractions of equal or greater value -/

/-- The nearest code depends on the value of a fraction only. -/
theorem nearest_mul_right {factor : Nat} (positive : 0 < denominator) (hfactor : 0 < factor) :
    nearest (numerator * factor) (denominator * factor) = nearest numerator denominator := by
  have hoffset : ∀ code, offset (numerator * factor) (denominator * factor) code =
      offset numerator denominator code * factor := by
    intro code
    have hscaled : ((units code * (denominator * factor) : Nat) : Int) -
        (numerator * factor * unitsPerOne : Nat) =
        ((units code * denominator : Nat) - (numerator * unitsPerOne : Nat)) * factor := by
      generalize unitsPerOne = unit
      push_cast
      ring
    rw [offset, hscaled, Int.natAbs_mul, Int.natAbs_natCast]
    rfl
  have h := isNearest_nearest numerator positive
  refine (isNearest_iff (Nat.mul_pos positive hfactor)).mp ⟨h.le_infinite, ?_, ?_⟩
  · intro other ho
    rw [hoffset, hoffset]
    exact Nat.mul_le_mul_right factor (h.offset_le other ho)
  · intro other ho hne heq
    rw [hoffset, hoffset] at heq
    exact h.even other ho hne (Nat.eq_of_mul_eq_mul_right hfactor heq)

/-- A greater fraction has no smaller nearest code. -/
theorem nearest_mono {a b : Nat} (positive : 0 < denominator) (h : a ≤ b) :
    nearest a denominator ≤ nearest b denominator := by
  have ha := isNearest_nearest a positive
  have hb := isNearest_nearest b positive
  by_contra hgt
  have hlt : nearest b denominator < nearest a denominator := Nat.lt_of_not_le hgt
  have hle := ha.offset_le _ hb.le_infinite
  have hle' := hb.offset_le _ ha.le_infinite
  have hunits := units_mul_lt positive hlt
  have hscaled : a * unitsPerOne ≤ b * unitsPerOne := Nat.mul_le_mul_right _ h
  -- both fractions lie half-way between the two doubles, so they are one
  have heq : a * unitsPerOne = b * unitsPerOne := by
    simp only [offset] at hle hle'
    generalize a * unitsPerOne = x at *
    generalize b * unitsPerOne = y at *
    omega
  rw [Nat.eq_of_mul_eq_mul_right unitsPerOne_pos heq] at hlt
  exact Nat.lt_irrefl _ hlt

/-- Rounding keeps the order of fractions. -/
theorem nearest_le_nearest {a b c d : Nat} (hb : 0 < b) (hd : 0 < d) (h : a * d ≤ c * b) :
    nearest a b ≤ nearest c d := by
  have hright : nearest (c * b) (d * b) = nearest c d := nearest_mul_right hd hb
  rw [← nearest_mul_right hb hd, ← hright, Nat.mul_comm d b]
  exact nearest_mono (Nat.mul_pos hb hd) h

end Binary64
end Calculator
