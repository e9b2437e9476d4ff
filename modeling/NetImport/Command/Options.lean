import NetImport.Command.Inspect
import NetImport.Command.Run

/-!
# Command lines

The first word names the command; options with a value come as two words.  A
later value replaces an earlier one, but inputs add up.
-/

namespace NetImport

inductive Command where
  | inspect (inspection : Inspection)
  /-- Runs a configuration; the measures may be printed in full. -/
  | run (config : String) (showMetrics : Bool)

/-- Why words are no command line. -/
inductive UsageError where
  | unknownCommand
  | unknownOption (word : String)
  | missingValue (option : String)
  | missingOption (option : String)
  | invalidInput (cause : InputArgumentError)
deriving DecidableEq, Repr

namespace UsageError

def message : UsageError → String
  | .unknownCommand => "expected one of the commands 'inspect' and 'run'"
  | .unknownOption word => s!"unexpected argument '{word}'"
  | .missingValue option => s!"a value is required for '{option}'"
  | .missingOption option => s!"the option '{option}' is required"
  | .invalidInput cause => cause.message

end UsageError

namespace Command

def optionNames : List (String × String) :=
  [("-p", "predict-net"), ("--predict-net", "predict-net"),
    ("-i", "init-net"), ("--init-net", "init-net"),
    ("--input", "input"), ("-c", "config"), ("--config", "config")]

def flagNames : List (String × String) :=
  [("--nodes", "nodes"), ("--metrics-json", "metrics-json"),
    ("-v", "verbose"), ("--verbose", "verbose")]

def readOptions : List String → Except UsageError (List (String × String))
  | [] => .ok []
  | word :: words =>
      match flagNames.lookup word, optionNames.lookup word, words with
      | some flag, _, words => do return (flag, "") :: (← readOptions words)
      | none, some option, value :: words => do
          return (option, value) :: (← readOptions words)
      | none, some _, [] => .error (.missingValue word)
      | none, none, _ => .error (.unknownOption word)

/-- The last value of an option. -/
def required (options : List (String × String)) (option : String) :
    Except UsageError String :=
  match options.reverse.lookup option with
  | some value => .ok value
  | none => .error (.missingOption option)

def inputs (options : List (String × String)) : Except UsageError (List InputArgument) :=
  (options.filter fun option => option.1 == "input").mapM fun option =>
    (InputArgument.ofText option.2).mapError .invalidInput

def ofArguments : List String → Except UsageError Command
  | "inspect" :: words => do
      let options ← readOptions words
      return .inspect {
        predictNet := ← required options "predict-net"
        initNet := ← required options "init-net"
        inputs := ← inputs options
        showNodes := (options.lookup "nodes").isSome }
  | "run" :: words => do
      let options ← readOptions words
      return .run (← required options "config") (options.lookup "metrics-json").isSome
  | _ => .error .unknownCommand

end Command
end NetImport
