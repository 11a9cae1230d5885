import Calculator.Number
import Calculator.Operator

/-!
# Tokens

The parts that an expression is read as.  A token says what its part means, not how it
was written: `007` and `7` are one token, and so are `1,5` and `1,50`.

## Symbols and words

`Token.ofSymbol?` gives the token of a character that stands for itself, and
`Token.ofWord?` that of a name.  The names are those of the `vocabulary`, each written
as its token's own text, so a name and its token cannot disagree.

## Places

What may stand beside what is decided by two properties of a token: whether an operand
can end with it, `endsOperand`, and whether one can start with it, `startsOperand`.
-/

namespace Calculator

/-- A part of an expression. -/
inductive Token where
  | number (n : Number)
  | constant (c : Constant)
  | function (f : Function)
  | operator (o : Operator)
  | opening
  | closing
deriving DecidableEq, Repr

namespace Token

/-- A token as it is shown. -/
def text : Token → String
  | number n => n.text
  | constant c => c.name
  | function f => f.name
  | operator o => o.symbol
  | opening => "("
  | closing => ")"

/-- The token of a character that stands for itself. -/
def ofSymbol? : Char → Option Token
  | '+' => some (operator .add)
  | '-' => some (operator .sub)
  | '*' => some (operator .mul)
  | '/' => some (operator .div)
  | '^' => some (operator .pow)
  | '(' => some opening
  | ')' => some closing
  | _ => none

/-- The tokens that are written as names. -/
def vocabulary : List Token :=
  [constant .pi, constant .e, function .sin, function .cos, function .tan, function .arcsin,
    function .arccos, function .arctan, operator .mod, function .squareRoot, operator .root,
    function .ln, operator .logBase, function .abs]

/-- The token of a name. -/
def ofWord? (name : String) : Option Token := vocabulary.find? fun t => t.text == name

/-- A token that is found under a name is shown as that name. -/
theorem text_of_ofWord? {name : String} {t : Token} (h : ofWord? name = some t) :
    t.text = name := by
  simpa using List.find?_some h

/-- Whether a token is written as a name. -/
def isWord : Token → Bool
  | constant _ | function _ => true
  | operator o => o.isWord
  | number _ | opening | closing => false

/-- Whether a token is an operand by itself. -/
def isAtom : Token → Bool
  | number _ | constant _ => true
  | _ => false

/-- Whether a token is a function, which takes the operand after it. -/
def isFunction : Token → Bool
  | function _ => true
  | _ => false

/-- The operator a token stands for. -/
def operator? : Token → Option Operator
  | operator o => some o
  | _ => none

/-- Whether an operand can end with a token. -/
def endsOperand : Token → Bool
  | number _ | constant _ | closing => true
  | function _ | operator _ | opening => false

/-- Whether an operand can start with a token, a sign aside. -/
def startsOperand : Token → Bool
  | number _ | constant _ | function _ | opening => true
  | operator _ | closing => false

end Token
end Calculator
