import Calculator.Arrangement
import Calculator.Evaluation.Value
import Calculator.Expr.OfTokens
import Calculator.Token.Reading

/-!
# Calculating from text

From a text to its tree and its value.  A text is read as tokens, the arrangement of the
tokens is checked, and only then a tree is built; `ParseError` says which of the three
steps failed and why.  A blank text has no tree, but as an input it counts as zero.

## What is shown

`answer` is the single text shown for an input: its value, what is wrong with its
evaluation, or `invalid expression` for every text that cannot be read.  `outline` shows
the tree instead of the value and agrees with `answer` on what cannot be read.
`respond` is the one or the other.
-/

namespace Calculator

/-- The reasons why a text has no tree, by the step that fails. -/
inductive ParseError where
  | lexical (e : LexicalError)
  | arrangement (e : ArrangementError)
  | grammar (e : GrammarError)
deriving DecidableEq, Repr

/-- What is said about a text that has no tree. -/
def ParseError.message : ParseError → String
  | lexical e => e.message
  | arrangement e => e.message
  | grammar e => e.message

/-- The reasons why an input has no value. -/
inductive CalculationError where
  | parse (e : ParseError)
  | evaluation (e : EvaluationError)
deriving DecidableEq, Repr

/-- What is shown for every input that cannot be read. -/
def invalidExpression : String := "invalid expression"

/-- What is shown for an input that has no value. -/
def CalculationError.message : CalculationError → String
  | parse _ => invalidExpression
  | evaluation e => e.message

/-- The tree of a text. -/
def parse (text : String) : Except ParseError Expr := do
  let tokens ← (tokenize text).mapError .lexical
  (Arrangement.check tokens).mapError .arrangement
  (Expr.ofTokens tokens).mapError .grammar

/-- The value of an input; a blank one counts as zero. -/
def calculate (text : String) : Except CalculationError Number :=
  if isBlankText text then .ok (.integer 0)
  else do
    let tree ← (parse text).mapError .parse
    tree.value.mapError .evaluation

/-- What is shown for an input. -/
def answer (text : String) : String :=
  match calculate text with
  | .ok n => n.text
  | .error e => e.message

/-- The tree of an input as it is shown; a blank input is shown as zero. -/
def outline (text : String) : String :=
  if isBlankText text then "0"
  else
    match parse text with
    | .ok tree => tree.text
    | .error _ => invalidExpression

/-- What is shown for an input, its tree or its value. -/
def respond (showTree : Bool) (text : String) : String :=
  if showTree then outline text else answer text

end Calculator
