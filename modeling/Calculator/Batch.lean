import Calculator.Calculation

/-!
# Calculating line by line

An input of many expressions is a sequence of bytes, one expression to a line.  Each line
has to be UTF-8 by itself.  Blank lines are passed over, every other line is answered by
one line of output, and the first line that is not UTF-8 ends the work: what was answered
before it stands, and the report says that it is not complete.

## Lines

`lines` cuts the bytes after each line feed, so that the lines together are the input
(`flatten_lines`), and `lineContent` takes off what ends a line: a line feed and one
carriage return directly before it.  The last line may lack its line feed, and then it
keeps a carriage return at its end.
-/

namespace Calculator

/-- The byte that ends a line. -/
abbrev lineFeed : UInt8 := 10

/-- The byte that may stand before a line feed. -/
abbrev carriageReturn : UInt8 := 13

namespace Batch

/-- Puts a byte in front of some lines: on a line of its own if it ends one, else at the
beginning of the first line. -/
def consByte (b : UInt8) (lines : List (List UInt8)) : List (List UInt8) :=
  if b = lineFeed then [b] :: lines
  else
    match lines with
    | [] => [[b]]
    | line :: rest => (b :: line) :: rest

/-- The lines of some bytes, each with the line feed that ends it. -/
def lines (bytes : List UInt8) : List (List UInt8) := bytes.foldr consByte []

@[simp] theorem lines_nil : lines [] = [] := rfl

@[simp] theorem lines_cons (b : UInt8) (bytes : List UInt8) :
    lines (b :: bytes) = consByte b (lines bytes) := rfl

@[simp] theorem flatten_consByte (b : UInt8) (ls : List (List UInt8)) :
    (consByte b ls).flatten = b :: ls.flatten := by
  unfold consByte
  split
  · simp
  · split <;> simp

/-- The lines of some bytes make up the bytes. -/
theorem flatten_lines (bytes : List UInt8) : (lines bytes).flatten = bytes := by
  induction bytes with
  | nil => rfl
  | cons b bytes ih => simp [ih]

/-- A line without the line feed that ends it and a carriage return before that. -/
def lineContent (line : List UInt8) : List UInt8 :=
  if line.getLast? = some lineFeed then
    let content := line.dropLast
    if content.getLast? = some carriageReturn then content.dropLast else content
  else line

/-- What came of an input: the lines of output, and whether all of it could be read. -/
structure Report where
  output : List String
  isComplete : Bool
deriving DecidableEq, Repr

/-- Answers lines up to the first one that is not UTF-8. -/
def reportLines (showTree : Bool) : List (List UInt8) → Report
  | [] => ⟨[], true⟩
  | line :: rest =>
    match String.fromUTF8? (lineContent line).toByteArray with
    | none => ⟨[], false⟩
    | some text =>
      let later := reportLines showTree rest
      if isBlankText text then later
      else ⟨respond showTree text :: later.output, later.isComplete⟩

/-- Answers the lines of an input. -/
def report (showTree : Bool) (bytes : List UInt8) : Report :=
  reportLines showTree (lines bytes)

end Batch
end Calculator
