import Calculator.Batch

/-!
# The command line

What the arguments of the program ask for, and what the program answers.

## Options

`-t` or `--tree` shows trees instead of values and is given at most once; `-v` or
`--verbose` may be given any number of times and has no effect on the answers; `-f` or
`--file` takes the path of an input, is given at most once, and does not go together
with an expression; `-V` or `--version` asks for the version.  Short options may be
written together.  A path may be the rest of the argument that holds the option, with or
without an equals sign after a short option, or the next argument unless that looks like
an option itself.  All other arguments are expressions, of which there is at most one;
after `--` every argument is one, whatever it begins with.

Arguments are looked at in order.  The first one that is wrong decides, and a question
for the version is answered where it is met, so that nothing behind it matters; whether a
path and an expression were both given is known only at the end.

## Answers

A single expression is answered by one line even when it is blank.  Without an expression
the lines of the file or of standard input are answered.  The exit code is `0`, or `1` for
an input that cannot be read to its end, or `2` for wrong arguments.
-/

namespace Calculator

/-- Where the lines of an input come from. -/
inductive Source where
  | file (path : String)
  | standardInput
deriving DecidableEq, Repr

/-- What the arguments ask for. -/
inductive Command where
  | version
  | single (showTree : Bool) (expression : String)
  | batch (showTree : Bool) (source : Source)
deriving DecidableEq, Repr

namespace CommandLine

/-- What the arguments so far have set. -/
structure Settings where
  showTree : Bool
  path : Option String
  expression : Option String
deriving DecidableEq, Repr

namespace Settings

/-- The settings before any argument. -/
def initial : Settings := ⟨false, none, none⟩

/-- Asks for trees, which is refused a second time. -/
def withTree (s : Settings) : Option Settings :=
  if s.showTree then none else some { s with showTree := true }

/-- Sets the path of the input, which must not be empty, and is refused a second time. -/
def withPath (s : Settings) (path : String) : Option Settings :=
  if path.isEmpty || s.path.isSome then none else some { s with path := some path }

/-- Sets the expression, which is refused a second time. -/
def withExpression (s : Settings) (expression : String) : Option Settings :=
  if s.expression.isSome then none else some { s with expression := some expression }

/-- What the settings ask for once all arguments have been seen, unless they contradict
each other. -/
def command? (s : Settings) : Option Command :=
  match s.expression, s.path with
  | some _, some _ => none
  | some expression, none => some (.single s.showTree expression)
  | none, some path => some (.batch s.showTree (.file path))
  | none, none => some (.batch s.showTree .standardInput)

end Settings

/-- What one argument does. -/
inductive Effect where
  | wrong
  | version
  | set (s : Settings)
  | needsPath (s : Settings)
  | endsOptions
deriving DecidableEq, Repr

/-- New settings, or a wrong argument where there are none. -/
def Effect.ofSettings : Option Settings → Effect
  | some s => .set s
  | none => .wrong

/-- Short options written together, without the dash. -/
def shortOptions (s : Settings) : List Char → Effect
  | [] => .set s
  | 't' :: more =>
    match s.withTree with
    | some s => shortOptions s more
    | none => .wrong
  | 'v' :: more => shortOptions s more
  | 'V' :: _ => .version
  | ['f'] => .needsPath s
  | 'f' :: '=' :: path => .ofSettings (s.withPath (String.ofList path))
  | 'f' :: path => .ofSettings (s.withPath (String.ofList path))
  | _ => .wrong

/-- A long option without its dashes. -/
def longOption (s : Settings) (name : List Char) : Effect :=
  match String.ofList (name.takeWhile (· != '=')), name.dropWhile (· != '=') with
  | "tree", [] => .ofSettings s.withTree
  | "verbose", [] => .set s
  | "version", [] => .version
  | "file", [] => .needsPath s
  | "file", _ :: path => .ofSettings (s.withPath (String.ofList path))
  | _, _ => .wrong

/-- Whether an argument is meant as an option; a dash alone is not. -/
def looksLikeOption (argument : String) : Bool :=
  match argument.toList with
  | '-' :: _ :: _ => true
  | _ => false

/-- What an argument does before the options have ended. -/
def effect (s : Settings) (argument : String) : Effect :=
  match argument.toList with
  | ['-', '-'] => .endsOptions
  | '-' :: '-' :: name => longOption s name
  | '-' :: c :: more => shortOptions s (c :: more)
  | _ => .ofSettings (s.withExpression argument)

/-- Takes all arguments as expressions. -/
def expressions (s : Settings) : List String → Option Command
  | [] => s.command?
  | argument :: rest =>
    match s.withExpression argument with
    | some s => expressions s rest
    | none => none

/-- Looks at the arguments in order. -/
def command (s : Settings) : List String → Option Command
  | [] => s.command?
  | argument :: rest =>
    match effect s argument with
    | .wrong => none
    | .version => some .version
    | .set s => command s rest
    | .endsOptions => expressions s rest
    | .needsPath s =>
      match rest with
      | [] => none
      | path :: rest =>
        if looksLikeOption path then none
        else
          match s.withPath path with
          | some s => command s rest
          | none => none

end CommandLine

/-- What the arguments ask for, unless they are wrong. -/
def Command.ofArguments? (arguments : List String) : Option Command :=
  CommandLine.command .initial arguments

/-- The program's name and version. -/
def versionText : String := "commacalc 0.1.0"

/-- What the program prints, and its exit code. -/
structure Answer where
  output : String
  exitCode : UInt8
deriving DecidableEq, Repr

namespace Answer

/-- Some lines, each with the line feed that ends it. -/
def ofLines (lines : List String) (exitCode : UInt8) : Answer :=
  ⟨lines.foldl (fun text line => text ++ line ++ "\n") "", exitCode⟩

/-- The answer to wrong arguments. -/
def usage : Answer := ⟨"", 2⟩

/-- The answer to an input, if there is one to read. -/
def ofInput (showTree : Bool) : Option (List UInt8) → Answer
  | none => ⟨"", 1⟩
  | some bytes =>
    let report := Batch.report showTree bytes
    ofLines report.output (if report.isComplete then 0 else 1)

end Answer

/-- The input that has to be read for a command. -/
def Command.source? : Command → Option Source
  | version | single .. => none
  | batch _ source => some source

/-- The answer to a command, where `read` gives the bytes of an input that can be read. -/
def Command.answer (read : Source → Option (List UInt8)) : Command → Answer
  | version => .ofLines [versionText] 0
  | single showTree expression => .ofLines [respond showTree expression] 0
  | batch showTree source => .ofInput showTree (read source)

end Calculator
