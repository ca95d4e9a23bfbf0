import ToolGrammar.CommandLine.Run
import ToolGrammar.Journal.Threshold

namespace ToolGrammar.CommandLine

open Journal (Threshold)

def versionText : String :=
  "fncall-grammar 0.1.0\n"

def helpText : String :=
  "Usage: fncall-grammar [OPTIONS] <COMMAND>\n\n" ++
  "Commands:\n" ++
  "  grammar  compile and print the grammar\n" ++
  "  docs     render the documentation\n" ++
  "  build    write grammar and documentation together\n" ++
  "  batch    compile every input file on its own\n"

def Stop.output : Stop → String
  | .help => helpText
  | .version => versionText
  | _ => ""

def Stop.complaint? : Stop → Option String
  | .help | .version => none
  | .nothingAsked | .missingCommand => some "error: a command is required"
  | .unknownCommand => some "error: there is no such command"
  | .unknownArgument => some "error: an argument does not belong to the command"
  | .invalidValue => some "error: the value of an option is missing or empty"
  | .repeatedArgument => some "error: an option is given twice"
  | .unneededValue => some "error: an option that takes no value has one"
  | .missingArgument => some "error: a required option is missing"

def process (words : List String) : Script Nat :=
  match Invocation.ofWords words with
  | .error stop => do
      Script.request (.print stop.output)
      return stop.exitCode
  | .ok invocation => do
      match ← invocation.run.run with
      | .ok () => return 0
      | .error error =>
          Script.request (.note (.failed error.message))
          return 1

def thresholdOf (words : List String) (environment : Option String) : Threshold :=
  match Invocation.ofWords words with
  | .error _ => .choose none environment
  | .ok invocation => .choose invocation.log environment

end ToolGrammar.CommandLine
