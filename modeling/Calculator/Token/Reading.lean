import Calculator.Token.Lexeme

/-!
# Reading tokens

The second step in reading a text turns its lexemes into tokens, from left to right, and
stops at the first thing that is wrong.  `Token.ofLexemes` carries the position of the
next lexeme, in bytes of the UTF-8 form of the text, and the token that ends exactly
there, if there is one.

## What can be wrong

A character that stands for itself may be no symbol, a name may be unknown, and an
integer numeral may denote a number that does not fit into 64 bits.  A lexeme that can
be read may still touch the token before it in a way that is refused: a number must not
be followed directly by a word, nor a constant by an opening parenthesis, which would
look like a call.  No other two tokens touch unless one of them is a symbol, because
numerals and words are as long as they can be.  A lexeme that cannot be read is reported
as such before it is asked what it touches.
-/

namespace Calculator

/-- The reasons why a text cannot be read as tokens, with byte positions. -/
inductive LexicalError where
  | unexpected (character : Char) (position : Nat)
  | unknownName (name : String) (position : Nat)
  | missingSeparator (position : Nat)
  | constantCall (constant : Constant) (position : Nat)
  | literalTooLarge (literal : String)
deriving DecidableEq, Repr

/-- What is said about a text that cannot be read as tokens. -/
def LexicalError.message : LexicalError → String
  | unexpected character position =>
    s!"Unexpected token '{String.singleton character}' at byte {position}."
  | unknownName name position => s!"Unknown name '{name}' at byte {position}."
  | missingSeparator position => s!"Missing separator after number at byte {position}."
  | constantCall constant position =>
    s!"Constant '{constant.name}' cannot be called at byte {position}."
  | literalTooLarge literal => s!"Literal '{literal}' is too large."

namespace Token

/-- The integer that a numeral without a comma denotes, unless it is too large. -/
def ofInteger (digits : List Char) : Except LexicalError Token :=
  let value := Nat.ofDigitChars 10 digits 0
  if value < 9223372036854775808 then .ok (number (.integer (Int64.ofNat value)))
  else .error (.literalTooLarge (String.ofList digits))

/-- The double nearest to what a numeral with a comma denotes. -/
def ofReal (whole fraction : List Char) : Token :=
  number (.real (Binary64.ofFraction (Nat.ofDigitChars 10 (whole ++ fraction) 0)
    (Nat.pow 10 fraction.length)))

/-- The token that a lexeme stands for; a blank character stands for none. -/
def ofLexeme? (position : Nat) : Lexeme → Except LexicalError (Option Token)
  | .blank _ => .ok none
  | .mark c =>
    match ofSymbol? c with
    | some token => .ok (some token)
    | none => .error (.unexpected c position)
  | .integer digits => (ofInteger digits).map some
  | .real whole fraction => .ok (some (ofReal whole fraction))
  | .name cs =>
    let name := String.ofList cs
    match ofWord? name with
    | some token => .ok (some token)
    | none => .error (.unknownName name position)

/-- What is wrong about one token directly after another, where the second one begins
at the given position. -/
def refusal? (before after : Token) (position : Nat) : Option LexicalError :=
  match before, after with
  | number _, word => if word.isWord then some (.missingSeparator position) else none
  | constant c, opening => some (.constantCall c (position - c.name.utf8ByteSize))
  | _, _ => none

/-- The tokens of some lexemes.  The lexemes begin at the given position, and `touching`
is the token that ends there. -/
def ofLexemes (touching : Option Token) (position : Nat) :
    List Lexeme → Except LexicalError (List Token)
  | [] => .ok []
  | lexeme :: rest =>
    let next := position + (String.ofList lexeme.text).utf8ByteSize
    match ofLexeme? position lexeme with
    | .error e => .error e
    | .ok none => ofLexemes none next rest
    | .ok (some token) =>
      match touching.bind fun before => refusal? before token position with
      | some e => .error e
      | none => (ofLexemes (some token) next rest).map (token :: ·)

end Token

/-- The tokens of a text, or what is wrong at the first place where it has none. -/
def tokenize (text : String) : Except LexicalError (List Token) :=
  Token.ofLexemes none 0 (Lexeme.lexemes text.toList)

end Calculator
