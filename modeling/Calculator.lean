import Calculator.Main
import Calculator.Expr.Postorder
import Calculator.Proofs.Answer
import Calculator.Proofs.Arrangement
import Calculator.Proofs.Arrangement.Faults
import Calculator.Proofs.Arrangement.Parentheses
import Calculator.Proofs.Batch
import Calculator.Proofs.Binary64.Bits
import Calculator.Proofs.Binary64.Nearest
import Calculator.Proofs.Binary64.Sign
import Calculator.Proofs.ExactValue
import Calculator.Proofs.Grammar
import Calculator.Proofs.Grammar.Chain
import Calculator.Proofs.Grammar.Reading
import Calculator.Proofs.Grammar.Trees
import Calculator.Proofs.LexicalErrors
import Calculator.Proofs.Machine
import Calculator.Proofs.Numeral
import Calculator.Proofs.Numeral.Comma
import Calculator.Proofs.ParseErrors
import Calculator.Proofs.Powers
import Calculator.Proofs.Reading.Descent
import Calculator.Proofs.Reading.Stages
import Calculator.Proofs.Response
import Calculator.Proofs.RoundTrip
import Calculator.Proofs.Separation
import Calculator.Proofs.Spelling
