import Calculator.Token

/-!
# The arrangement of tokens

Not every sequence of tokens is an expression.  `Arrangement.check` decides which ones
are in one pass from left to right, without building anything: it looks at each token
together with its two neighbours, and it counts the parentheses that are open.

## What is checked

`Arrangement.fits` says which tokens may stand between which neighbours.  A closing
parenthesis is not asked what stands beside it, but it must not follow an opening one
and there must be a parenthesis to close; whatever else could be wrong there is noticed
at its neighbours.  At the end no parenthesis may be open.  An empty sequence passes.
-/

namespace Calculator

/-- The reasons why a sequence of tokens is no expression, with indices of tokens. -/
inductive ArrangementError where
  | misplaced (token : Token) (index : Nat)
  | unmatchedClosing (index : Nat)
  | emptyGroup (index : Nat)
  | unclosed (count : Nat)
deriving DecidableEq, Repr

/-- What is said about a sequence of tokens that is no expression. -/
def ArrangementError.message : ArrangementError → String
  | misplaced token index => s!"Token '{token.text}' at index {index} is misplaced."
  | unmatchedClosing index => s!"Unmatched ')' at index {index}."
  | emptyGroup index => s!"Empty parentheses at index {index}."
  | unclosed count => s!"{count} unclosed parenthesis(es)."

namespace Arrangement

/-- Whether a token may stand between two neighbours, either of which may be missing. -/
def fits (before : Option Token) (token : Token) (after : Option Token) : Bool :=
  match token with
  | .opening => !before.any Token.endsOperand
  | .closing => true
  | .number _ | .constant _ =>
    !before.any Token.endsOperand && !after.any fun t => t.isAtom || t == .opening
  | .function _ => !before.any Token.endsOperand && after.any Token.startsOperand
  | .operator .sub =>
    (before.isNone || before.any fun t => t.endsOperand || t == .opening) &&
      after.any Token.startsOperand
  | .operator _ => before.any Token.endsOperand && after.any Token.startsOperand

/-- The number of parentheses that are open after a token, or why the token closes
none. -/
def openAfter (before : Option Token) (token : Token) (index depth : Nat) :
    Except ArrangementError Nat :=
  match token with
  | .opening => .ok (depth + 1)
  | .closing =>
    if before = some .opening then .error (.emptyGroup index)
    else if depth = 0 then .error (.unmatchedClosing index)
    else .ok (depth - 1)
  | _ => .ok depth

/-- Checks the tokens from the given index on, where `before` is the token before them
and `depth` parentheses are open. -/
def checkFrom (before : Option Token) (index depth : Nat) :
    List Token → Except ArrangementError Unit
  | [] => if depth = 0 then .ok () else .error (.unclosed depth)
  | token :: rest =>
    match openAfter before token index depth with
    | .error e => .error e
    | .ok depth =>
      if fits before token rest.head? then checkFrom (some token) (index + 1) depth rest
      else .error (.misplaced token index)

/-- Checks that a sequence of tokens is empty or an expression. -/
def check (tokens : List Token) : Except ArrangementError Unit := checkFrom none 0 0 tokens

end Arrangement
end Calculator
