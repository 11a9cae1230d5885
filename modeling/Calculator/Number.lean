import Calculator.Binary64.Numeral

/-!
# Numbers

The values the calculator computes with are of two kinds, and a number remembers which
one it is: exact 64-bit integers and double-precision reals.  An operation that needs a
real widens an integer to the nearest double with `toReal`; nothing ever turns a real
back into an integer, so `2` and `2,0` stay apart, in every result and in its text.

Equality of numbers compares the kind and then the value, reals by their bits, where
all undefined results count as one.  The tests on numbers below compare the value
instead.
-/

namespace Calculator

/-- A value of the calculator, an exact integer or a double-precision real. -/
inductive Number where
  | integer (n : Int64)
  | real (x : Float)
deriving DecidableEq, Repr

namespace Number

/-- The number as a double, the nearest one if it is an integer. -/
def toReal : Number → Float
  | integer n => Binary64.ofInt n.toInt
  | real x => x

@[simp] theorem toReal_real (x : Float) : (real x).toReal = x := rfl

/-- Whether the number is of the integer kind. -/
def isInteger : Number → Bool
  | integer _ => true
  | real _ => false

/-- Whether the number is zero; a negative real zero is. -/
def isZero : Number → Bool
  | integer n => n == 0
  | real x => x == 0.0

/-- Whether the number is below zero; a negative real zero is not. -/
def isNegative : Number → Bool
  | integer n => decide (n < 0)
  | real x => decide (x < 0.0)

/-- Whether the number is of the integer kind and odd. -/
def isOddInteger : Number → Bool
  | integer n => n.toInt % 2 == 1
  | real _ => false

/-- The characters of a number. -/
def toList : Number → List Char
  | integer n => Numeral.integerText n.toInt
  | real x => Numeral.realText x

/-- A number as it is shown. -/
def text (n : Number) : String := String.ofList n.toList

@[simp] theorem toList_text (n : Number) : n.text.toList = n.toList := by simp [text]

end Number
end Calculator
