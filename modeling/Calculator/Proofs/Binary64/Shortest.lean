import Calculator.Binary64.Shortest
import Calculator.Proofs.Binary64.Nearest

/-!
# The shortest decimal beside a bound

A double and its shortest decimal are different numbers, and a number between the two would
tell them apart.  `le_shortest_iff` says that this does not happen for a bound whose own
double is written as the bound: the decimal reaches the bound exactly when the double does.

The reason is that the decimal reads back.  If double and bound were on one side and the
decimal on the other, the double nearest to the bound, which lies between the double nearest
to the decimal and the double itself, would be the double, and its decimal the bound.
-/

namespace Calculator
namespace Binary64

/-- A decimal counted in finest decimal units. -/
def Decimal.finest (d : Decimal) : Nat := d.coefficient * Nat.pow 10 d.shift

/-- Finest decimal units exist. -/
theorem finestPerOne_pos : 0 < finestPerOne := Nat.pow_pos (by decide)

/-- The double nearest to what a double stands for is the double. -/
theorem nearest_units_unitsPerOne {code : Nat} (finite : code ≤ infinite) :
    nearest (units code) unitsPerOne = code := by
  have own := nearest_units finite Nat.one_pos
  rwa [Nat.mul_one, Nat.mul_one] at own

/-- **A double and its shortest decimal are on the same side of a bound** that is rounded up
to a double with the bound as its shortest decimal. -/
theorem le_shortest_iff {a b code : Nat} (positive : 0 < b) (finite : code ≤ infinite)
    (up : a * unitsPerOne ≤ units (nearest a b) * b)
    (own : (shortest (nearest a b)).finest * b = a * finestPerOne) :
    a * finestPerOne ≤ (shortest code).finest * b ↔ a * unitsPerOne ≤ units code * b := by
  have back : nearest (shortest code).finest finestPerOne = code := nearest_shortest finite
  constructor
  · intro reaches
    have ordered : nearest a b ≤ code := by
      rw [← back]
      exact nearest_le_nearest positive finestPerOne_pos reaches
    exact Nat.le_trans up (units_mul_le b ordered)
  · intro reaches
    by_contra short
    have above : nearest a b ≤ code := by
      rw [← nearest_units_unitsPerOne finite]
      exact nearest_le_nearest positive unitsPerOne_pos reaches
    have below : code ≤ nearest a b := by
      rw [← back]
      exact nearest_le_nearest finestPerOne_pos positive (Nat.le_of_not_le short)
    rw [Nat.le_antisymm above below] at own
    exact short (Nat.le_of_eq own.symm)

end Binary64
end Calculator
