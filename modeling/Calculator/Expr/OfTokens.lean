import Calculator.Expr
import Calculator.Token

/-!
# Building trees from tokens

Tokens are read from left to right with a stack of what is still unfinished.  A `Frame`
is one unfinished part of an expression: an open parenthesis, a function whose argument
is not complete, or an operator whose right operand is not.  At any token either an
operand has to come, which is `Reading.wanting`, or an operand has just been read, which
is `Reading.holding`.  Each token is looked at once, so the run is a recursion on the
tokens and needs no other argument for its end.

## Operators

An operator ends every operand that is not admitted to go on with it: a function's
argument always, and the right operand of another operator according to
`Precedence.admits`.  `closeFor` applies the frames that end in this way.  An open
parenthesis lets every operator go on, and the run as a whole those that the least
precedence given to it admits; at any other operator the run stops, like at any token
that cannot go on with an operand, and leaves the rest to its caller.  Inside an open
parenthesis nothing may stop, and such a token is an error.

## Signs

A minus sign where an operand has to come is accepted in two places, at the very start
and directly after an opening parenthesis.  There it is read as a subtraction from the
integer zero: the zero is the operand, and the sign is then looked at as an operator,
with all that this implies for what it may be followed by.
-/

namespace Calculator

/-- The reasons why no tree can be built from tokens. -/
inductive GrammarError where
  | unexpectedToken (token : Token) (index : Nat)
  | unexpectedEnd
deriving DecidableEq, Repr

/-- What is said about tokens from which no tree can be built. -/
def GrammarError.message : GrammarError → String
  | unexpectedToken token index => s!"Unexpected '{token.text}' at index {index}."
  | unexpectedEnd => "Unexpected end of input."

/-- A part of an expression that is not complete. -/
inductive Frame where
  | group
  | call (f : Function)
  | operand (left : Expr) (o : Operator)
deriving DecidableEq, Repr

namespace Frame

/-- Applies the frames whose last operand ends before an operator, innermost first.
What remains is an open parenthesis, an operand that goes on with the operator, or
nothing. -/
def closeFor (o : Operator) (tree : Expr) : List Frame → Expr × List Frame
  | call f :: frames => closeFor o (.call f tree) frames
  | operand left p :: frames =>
    if p.precedence.admits o then (tree, operand left p :: frames)
    else closeFor o (.binary left p tree) frames
  | frames => (tree, frames)

/-- Applies all frames inside the innermost open parenthesis.  The frames outside of it
are given back, if there is one. -/
def closeGroup (tree : Expr) : List Frame → Expr × Option (List Frame)
  | [] => (tree, none)
  | group :: frames => (tree, some frames)
  | call f :: frames => closeGroup (.call f tree) frames
  | operand left o :: frames => closeGroup (.binary left o tree) frames

end Frame

/-- How far the reading of an expression has come before a token.  `opening` says
whether a sign may stand here, and the innermost frame is the first one. -/
inductive Reading where
  | wanting (opening : Bool) (frames : List Frame)
  | holding (tree : Expr) (frames : List Frame)
deriving DecidableEq, Repr

namespace Reading

/-- What a token does to a reading: it takes part in it, or it lies behind its end. -/
inductive Step where
  | goOn (reading : Reading)
  | stop (tree : Expr)
deriving DecidableEq, Repr

/-- Looks at a token after an operand. -/
def afterOperand (least : Precedence) (index : Nat) (tree : Expr) (frames : List Frame) :
    Token → Except GrammarError Step
  | .operator o =>
    match Frame.closeFor o tree frames with
    | (tree, []) =>
      .ok (if least.admits o then .goOn (wanting false [.operand tree o]) else .stop tree)
    | (tree, frames) => .ok (.goOn (wanting false (.operand tree o :: frames)))
  | .closing =>
    match Frame.closeGroup tree frames with
    | (tree, some frames) => .ok (.goOn (holding tree frames))
    | (tree, none) => .ok (.stop tree)
  | token =>
    match Frame.closeGroup tree frames with
    | (_, some _) => .error (.unexpectedToken token index)
    | (tree, none) => .ok (.stop tree)

/-- Looks at a token where an operand has to come. -/
def forOperand (least : Precedence) (index : Nat) (opening : Bool) (frames : List Frame) :
    Token → Except GrammarError Step
  | .number n => .ok (.goOn (holding (.number n) frames))
  | .constant c => .ok (.goOn (holding (.number (.real c.value)) frames))
  | .function f => .ok (.goOn (wanting false (.call f :: frames)))
  | .opening => .ok (.goOn (wanting true (.group :: frames)))
  | .operator .sub =>
    if opening then afterOperand least index (.number (.integer 0)) frames (.operator .sub)
    else .error (.unexpectedToken (.operator .sub) index)
  | token => .error (.unexpectedToken token index)

/-- Looks at a token. -/
def step (least : Precedence) (index : Nat) (token : Token) : Reading → Except GrammarError Step
  | wanting opening frames => forOperand least index opening frames token
  | holding tree frames => afterOperand least index tree frames token

/-- The tree of a reading that has come to the end of the tokens. -/
def finish : Reading → Except GrammarError Expr
  | wanting .. => .error .unexpectedEnd
  | holding tree frames =>
    match Frame.closeGroup tree frames with
    | (_, some _) => .error .unexpectedEnd
    | (tree, none) => .ok tree

/-- Reads an expression as far as it goes, from the token with the given index on, and
gives its tree and the index of the first token behind it. -/
def run (least : Precedence) (index : Nat) (reading : Reading) :
    List Token → Except GrammarError (Expr × Nat)
  | [] => reading.finish.map (·, index)
  | token :: rest =>
    match reading.step least index token with
    | .error e => .error e
    | .ok (.stop tree) => .ok (tree, index)
    | .ok (.goOn reading) => run least (index + 1) reading rest

end Reading

namespace Expr

/-- Whether a sign may stand at an index: at the very start, and after an opening
parenthesis. -/
def isOpening (tokens : List Token) (index : Nat) : Bool :=
  index == 0 || tokens[index - 1]? == some .opening

/-- Reads an operand of at least the given precedence, with all operators that it may go
on with. -/
def readOperand (tokens : List Token) (start : Nat) (least : Precedence) :
    Except GrammarError (Expr × Nat) :=
  Reading.run least start (.wanting (isOpening tokens start) []) (tokens.drop start)

/-- Reads on behind an operand, with all operators that it may go on with. -/
def readOperators (tokens : List Token) (tree : Expr) (index : Nat) (least : Precedence) :
    Except GrammarError (Expr × Nat) :=
  Reading.run least index (.holding tree []) (tokens.drop index)

/-- The tree of an expression, which takes up all tokens. -/
def ofTokens (tokens : List Token) : Except GrammarError Expr :=
  match readOperand tokens 0 .lowest with
  | .error e => .error e
  | .ok (tree, next) =>
    match tokens[next]? with
    | some token => .error (.unexpectedToken token next)
    | none => .ok tree

end Expr
end Calculator
