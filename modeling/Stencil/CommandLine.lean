import Stencil.Run

/-!
# The command line

Flags may stand anywhere among the positional arguments, the model file and the output
file. The first argument that is refused, or the request for help, ends the reading.
-/

namespace Stencil

inductive UsageError where
  | missingOptionsFile
  | unknownFlag (flag : String)
  | noInput
deriving DecidableEq, Repr

def UsageError.message : UsageError → String
  | missingOptionsFile => "--options needs a file"
  | unknownFlag flag => "unknown flag " ++ flag
  | noInput => "no input file provided"

/-- What the arguments ask for. -/
inductive Command where
  | help
  | refuse (e : UsageError)
  | run (s : Settings)
deriving DecidableEq, Repr

/-- The arguments read so far. -/
structure Arguments where
  quantize : Bool := false
  optionsFile : Option String := none
  positional : List String := []
deriving DecidableEq, Repr

def usage : String :=
  "Usage: onnx-cgen [--quantize] [--options <file.json>] [--verbose] <model.json> [output.c]"

/-- Whether an argument must be a flag. -/
def isFlag (argument : String) : Bool := ['-', '-'].isPrefixOf argument.toList

namespace Arguments

/-- The run that complete arguments ask for; more than two positional ones are ignored. -/
def command (a : Arguments) : Command :=
  match a.positional with
  | [] => .refuse .noInput
  | input :: rest =>
    .run {
      input := some input
      output := rest.head?
      optionsFile := a.optionsFile
      quantize := if a.quantize then some true else none }

/-- Read the remaining arguments. The console shows no debug records, so asking for
more of them changes nothing. -/
def parse (a : Arguments) : List String → Command
  | [] => a.command
  | "--options" :: path :: rest => parse { a with optionsFile := some path } rest
  | argument :: rest =>
    if argument = "--quantize" then parse { a with quantize := true } rest
    else if argument = "--verbose" then parse a rest
    else if argument = "--options" then .refuse .missingOptionsFile
    else if argument = "-h" ∨ argument = "--help" then .help
    else if isFlag argument then .refuse (.unknownFlag argument)
    else parse { a with positional := a.positional ++ [argument] } rest

end Arguments

def Command.ofArguments (arguments : List String) : Command :=
  Arguments.parse {} arguments

/-- How the program ends. -/
inductive Conclusion where
  | help
  | refused (e : UsageError)
  | finished (events : List Event) (result : Except RunError String)

namespace Conclusion

def exitCode : Conclusion → Nat
  | help => 0
  | refused _ => 2
  | finished _ (.ok _) => 0
  | finished _ (.error _) => 1

/-- The console shows everything but debug records. -/
def shown (events : List Event) : List Event :=
  events.filter fun e => e.level ≠ .debug

/-- The text on standard output. -/
def output : Conclusion → String
  | help => usage ++ "\n"
  | refused _ => ""
  | finished events result =>
    let errors := match result with
      | .ok _ => []
      | .error e => [Level.error.name ++ " " ++ e.message]
    String.join (((shown events).map Event.render ++ errors).map (· ++ "\n"))

/-- The text on standard error. -/
def diagnostics : Conclusion → String
  | refused e => e.message ++ "\n" ++ usage ++ "\n"
  | _ => ""

end Conclusion

/-- Carry out a command: the files afterwards, and how the program ends. -/
def Command.execute (c : Command) (files : Files) : Files × Conclusion :=
  match c with
  | .help => (files, .help)
  | .refuse e => (files, .refused e)
  | .run s =>
    let (after, result) := s.run files
    (after, .finished (s.events files) result)

end Stencil
