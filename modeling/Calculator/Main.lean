import Calculator.CommandLine

/-!
# The program

Reads what the arguments name, prints the answer and leaves with its exit code.  What the
answer is does not depend on anything here.
-/

namespace Calculator

/-- The bytes of an input, if all of them can be read. -/
def readSource (source : Source) : IO (Option (List UInt8)) := do
  try
    let bytes ←
      match source with
      | .file path => IO.FS.readBinFile path
      | .standardInput => (← IO.getStdin).readBinToEnd
    return some bytes.data.toList
  catch _ => return none

/-- Prints an answer, with a remark on standard error if the program fails. -/
def printAnswer (answer : Answer) : IO UInt32 := do
  let out ← IO.getStdout
  out.putStr answer.output
  out.flush
  if answer.exitCode == 1 then IO.eprintln "failed to read input"
  if answer.exitCode == 2 then IO.eprintln "usage: [-t] [-v] [-f PATH | EXPRESSION]"
  return answer.exitCode.toUInt32

/-- Answers the arguments of the program. -/
def runProgram (arguments : List String) : IO UInt32 := do
  match Command.ofArguments? arguments with
  | none => printAnswer .usage
  | some command =>
    let content ←
      match command.source? with
      | some source => readSource source
      | none => pure none
    printAnswer (command.answer fun _ => content)

end Calculator

/-- The entry point of the program. -/
def main (arguments : List String) : IO UInt32 := Calculator.runProgram arguments
