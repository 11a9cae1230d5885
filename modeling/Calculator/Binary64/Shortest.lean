import Calculator.Binary64.Magnitude

/-!
# The shortest decimal of a double

A double is written with the fewest digits that still read back to it.  The decimals
considered here are `coefficient * 10 ^ (shift - 1074)`: every finite double is itself
one of them with `shift = 0`, because `2 ^ (-1074)` is `5 ^ 1074 / 10 ^ 1074`.  So a
double is one natural number, `exact code`, in units of `10 ^ (-1074)`, and giving up
digits means dividing that number by a power of ten.

## The search

For each number of dropped digits there are only two decimals worth a look, the
double's neighbours below and above on that coarser grid: if any decimal of the grid
reads back, one of the two does.  `coarsest` goes from the coarsest grid to finer ones
and stops at the first grid with a neighbour that reads back; of two such neighbours
it takes the nearer, and the upper one when both are equally near.  With no digit
dropped nothing is lost, which is where the search ends at the latest.
-/

namespace Calculator
namespace Binary64

/-- A decimal number, `coefficient * 10 ^ (shift - unitExponent)`. -/
structure Decimal where
  coefficient : Nat
  shift : Nat
deriving DecidableEq, Repr

/-- How many of the finest decimal units, `10 ^ (-1074)`, make the unit `2 ^ (-1074)`. -/
def finestPerUnit : Nat := Nat.pow 5 unitExponent

/-- How many of the finest decimal units make one. -/
def finestPerOne : Nat := Nat.pow 10 unitExponent

/-- The units that make one come to as many finest decimal units as make one. -/
theorem unitsPerOne_mul_finestPerUnit : unitsPerOne * finestPerUnit = finestPerOne :=
  (Nat.mul_pow 2 5 unitExponent).symm

/-- The double with this code, counted in finest decimal units. -/
def exact (code : Nat) : Nat := units code * finestPerUnit

/-- The code of the double nearest to a decimal. -/
def Decimal.nearest (d : Decimal) : Nat :=
  Binary64.nearest (d.coefficient * Nat.pow 10 d.shift) finestPerOne

/-- The two neighbours of a double on the grid where the last `shift` digits are
dropped, the nearer one first and the upper one when both are equally near. -/
def neighbours (code shift : Nat) : List Decimal :=
  let step := Nat.pow 10 shift
  let below : Decimal := ⟨exact code / step, shift⟩
  let above : Decimal := ⟨exact code / step + 1, shift⟩
  if 2 * (exact code % step) < step then [below, above] else [above, below]

/-- The decimal that stands for a double on such a grid, if there is one that reads
back. -/
def onGrid? (code shift : Nat) : Option Decimal :=
  (neighbours code shift).find? fun d => d.nearest == code

/-- The first decimal that reads back when fewer than `digits` digits are dropped, coarse
grids before fine ones, and the exact decimal if nothing can be dropped. -/
def coarsest (code digits : Nat) : Decimal :=
  ((List.range digits).reverse.findSome? (onGrid? code)).getD ⟨exact code, 0⟩

/-- The decimal with the fewest digits that reads back to the double of a code.  Zero
is the decimal `0`. -/
def shortest (code : Nat) : Decimal :=
  if code = 0 then ⟨0, unitExponent⟩ else coarsest code ((Nat.toDigits 10 (exact code)).length + 1)

/-- A decimal found on a grid reads back. -/
theorem nearest_of_onGrid? {code shift : Nat} {d : Decimal} (h : onGrid? code shift = some d) :
    d.nearest = code := by
  simpa using List.find?_some h

/-- The exact decimal reads back. -/
theorem nearest_exact {code : Nat} (finite : code ≤ infinite) :
    (⟨exact code, 0⟩ : Decimal).nearest = code := by
  have positive : 0 < finestPerUnit := Nat.pow_pos (by decide)
  show Binary64.nearest (units code * finestPerUnit * Nat.pow 10 0) finestPerOne = code
  rw [← unitsPerOne_mul_finestPerUnit, show Nat.pow 10 0 = 1 from rfl, Nat.mul_one]
  exact nearest_units finite positive

/-- Wherever the search ends, the decimal it gives reads back. -/
theorem nearest_coarsest {code : Nat} (finite : code ≤ infinite) (digits : Nat) :
    (coarsest code digits).nearest = code := by
  unfold coarsest
  cases found : (List.range digits).reverse.findSome? (onGrid? code) with
  | none => exact nearest_exact finite
  | some d =>
    obtain ⟨shift, -, hit⟩ := List.exists_of_findSome?_eq_some found
    exact nearest_of_onGrid? hit

/-- The decimal that a double is written with reads back. -/
theorem nearest_shortest {code : Nat} (finite : code ≤ infinite) :
    (shortest code).nearest = code := by
  unfold shortest
  split
  case isTrue zero =>
    subst zero
    show nearest (0 * Nat.pow 10 unitExponent) finestPerOne = 0
    have positive : 0 < finestPerOne := Nat.pow_pos (by decide)
    simp [nearest, roundHalfEven, Nat.ne_of_gt positive]
  case isFalse => exact nearest_coarsest finite _

end Binary64
end Calculator
