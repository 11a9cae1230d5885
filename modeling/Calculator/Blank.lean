/-!
# Blank characters

Between the tokens of an expression any number of blank characters may stand, and a
text of nothing else counts as empty.  Both uses share the one test below, which is
what makes them agree: a text is empty for the calculator exactly when no token can be
read from it.

The blank characters are those that Unicode gives the property `White_Space`, twenty-five
in all.  Lean's `Char.isWhitespace` is the ASCII part of them without the vertical tab
and the form feed.
-/

namespace Calculator

/-- Whether a character has the Unicode property `White_Space`. -/
def isBlank (c : Char) : Bool :=
  (0x09 ≤ c.toNat && c.toNat ≤ 0x0D) || c.toNat == 0x20 || c.toNat == 0x85 || c.toNat == 0xA0 ||
    c.toNat == 0x1680 || (0x2000 ≤ c.toNat && c.toNat ≤ 0x200A) || c.toNat == 0x2028 ||
    c.toNat == 0x2029 || c.toNat == 0x202F || c.toNat == 0x205F || c.toNat == 0x3000

/-- Whether a text holds nothing but blank characters. -/
def isBlankText (text : String) : Bool := text.toList.all isBlank

end Calculator
