import Calculator.Binary64.Shortest

/-!
# Numerals with a decimal comma

A real number is shown as a numeral: whole digits, a comma and a fraction, or one
digit with a fraction if there is one, and a power of ten.  A `Numeral` holds the parts
of the text and `Numeral.toList` writes them one after the other, so a statement about
the format is a statement about the parts.

## The format

Numbers from `0,0001` up to but not including `10 ^ 16` are written out in full, always
with at least one digit after the comma.  All other finite numbers get an exponent,
written with its sign and at least two digits.  Infinities and undefined results are
words.
-/

namespace Calculator

/-- What stands between the whole digits and the fraction of a number. -/
abbrev decimalSeparator : Char := ','

/-- The parts of a written number: digits before the comma, digits after it, and a
power of ten. -/
structure Numeral where
  whole : List Char
  fraction : List Char
  exponent : Option Int
deriving DecidableEq, Repr

namespace Numeral

/-- An exponent is written with its sign and at least two digits. -/
def exponentText (exponent : Int) : List Char :=
  let digits := Nat.toDigits 10 exponent.natAbs
  'e' :: (if exponent < 0 then '-' else '+') :: (List.replicate (2 - digits.length) '0' ++ digits)

/-- The comma is written exactly when there is a fraction. -/
def fractionText (fraction : List Char) : List Char :=
  if fraction.isEmpty then [] else decimalSeparator :: fraction

/-- The characters of a numeral. -/
def toList (n : Numeral) : List Char :=
  n.whole ++ fractionText n.fraction ++ (n.exponent.map exponentText).getD []

/-- A decimal laid out: in full while the power of ten of its first digit is at least
`-4` and below `16`, else as one digit, the remaining ones and that power. -/
def ofDecimal (d : Binary64.Decimal) : Numeral :=
  let digits := Nat.toDigits 10 d.coefficient
  let leading : Int := (digits.length + d.shift : Nat) - (Binary64.unitExponent + 1 : Nat)
  if leading < -4 ∨ 16 ≤ leading then
    ⟨digits.take 1, digits.drop 1, some leading⟩
  else if leading < 0 then
    ⟨['0'], List.replicate (leading.natAbs - 1) '0' ++ digits, none⟩
  else
    let size := leading.toNat + 1
    let fraction := digits.drop size
    ⟨digits.take size ++ List.replicate (size - digits.length) '0',
      if fraction.isEmpty then ['0'] else fraction, none⟩

/-- The characters of an integer, a minus sign first if it is negative. -/
def integerText (n : Int) : List Char :=
  (if n < 0 then ['-'] else []) ++ Nat.toDigits 10 n.natAbs

/-- The characters of a double, its sign first. -/
def realText (x : Float) : List Char :=
  let code := Binary64.code x
  if Binary64.infinite < code then
    ['n', 'a', 'n']
  else
    (if Binary64.isNegative x then ['-'] else []) ++
      if code = Binary64.infinite then ['i', 'n', 'f']
      else (ofDecimal (Binary64.shortest code)).toList

end Numeral
end Calculator
