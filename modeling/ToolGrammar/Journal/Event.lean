import ToolGrammar.Grammar.Assembly
import ToolGrammar.Text.Escaped

namespace ToolGrammar.Journal

open Grammar (RuleId)

/-- How much an event matters, what matters most first. -/
inductive Level where
  | error
  | warn
  | info
  | debug
  deriving DecidableEq, Repr

def Level.text : Level → String
  | .error => "ERROR"
  | .warn => "WARN"
  | .info => "INFO"
  | .debug => "DEBUG"

/-- The verbosity from which events of a level show; 0 shows none and 5 all. -/
def Level.verbosity : Level → Nat
  | .error => 1
  | .warn => 2
  | .info => 3
  | .debug => 4

inductive Source where
  | program
  | commandLine
  | documents
  | assembly
  | emission
  | precision
  deriving DecidableEq, Repr

def Source.text : Source → String
  | .program => "fncall_grammar"
  | .commandLine => "fncall_grammar::cli"
  | .documents => "fncall_grammar::files"
  | .assembly => "fncall_grammar::assemble"
  | .emission => "fncall_grammar::emit"
  | .precision => "fncall_grammar::precision"

/-- A character as a terminal may show it: those that could command the terminal are written by
their codes. -/
def shieldChar (c : Char) : String :=
  match c with
  | '\x07' => "\\x07"
  | '\x08' => "\\x08"
  | '\x0c' => "\\x0c"
  | '\x1b' => "\\x1b"
  | '\x7f' => "\\x7f"
  | _ =>
      if 0x80 ≤ c.toNat && c.toNat ≤ 0x9F then
        "\\u\x7b" ++ Text.hexadecimal c.toNat ++ "\x7d"
      else c.toString

def shielded (text : String) : String :=
  String.join (text.toList.map shieldChar)

inductive Event where
  | collectedPrecisions (precisions : List Schema.Precision)
  | emittedRules (function : String) (rules : Nat)
  | droppedRule (id : RuleId)
  | assembledGrammar (functions rules precisions : Nat)
  | loadedSchema (functions : Nat)
  | wroteDocument (path : String) (bytes : Nat)
  | inputFailed (message : String)
  | completedBatch (schemas : Nat) (directory : String)
  | failed (message : String)
  deriving DecidableEq, Repr

namespace Event

def level : Event → Level
  | .inputFailed _ | .failed _ => .error
  | .droppedRule _ => .warn
  | .wroteDocument .. | .completedBatch .. => .info
  | .collectedPrecisions _ | .emittedRules .. | .assembledGrammar .. | .loadedSchema _ => .debug

def source : Event → Source
  | .collectedPrecisions _ => .precision
  | .emittedRules .. => .emission
  | .droppedRule _ | .assembledGrammar .. => .assembly
  | .loadedSchema _ | .inputFailed _ | .completedBatch .. => .commandLine
  | .wroteDocument .. => .documents
  | .failed _ => .program

def message : Event → String
  | .collectedPrecisions _ => "collected float precisions"
  | .emittedRules .. => "emitted function rules"
  | .droppedRule _ => "identical rule defined twice; keeping the first"
  | .assembledGrammar .. => "assembled grammar"
  | .loadedSchema _ => "loaded schema"
  | .wroteDocument .. => "wrote document"
  | .completedBatch .. => "batch complete"
  | .inputFailed message | .failed message => message

/-- The names and values that belong to the message. -/
def fields : Event → List (String × String)
  | .collectedPrecisions precisions =>
      [("precisions", "\x7b" ++ ", ".intercalate (precisions.map fun precision =>
        "Precision(" ++ toString precision.digits ++ ")") ++ "\x7d")]
  | .emittedRules function rules =>
      [("function", Text.escaped function), ("rules", toString rules)]
  | .droppedRule id => [("rule", id.text)]
  | .assembledGrammar functions rules precisions =>
      [("functions", toString functions), ("rules", toString rules),
        ("precisions", toString precisions)]
  | .loadedSchema functions => [("functions", toString functions)]
  | .wroteDocument path bytes => [("path", path), ("bytes", toString bytes)]
  | .completedBatch schemas directory => [("schemas", toString schemas), ("out_dir", directory)]
  | .inputFailed _ | .failed _ => []

def hasField (event : Event) (name : String) : Bool :=
  name == "message" || event.fields.any (·.1 == name)

/-- A message followed by the fields of the event. -/
def withFields (event : Event) (message : String) : String :=
  message ++ String.join (event.fields.map fun field => " " ++ field.1 ++ "=" ++ field.2)

def brief (event : Event) : String :=
  event.level.text ++ " " ++ event.withFields event.message

/-- The event as it is shown. Of its texts only the message is shielded. -/
def line (event : Event) : String :=
  event.level.text ++ " " ++ event.source.text ++ ": " ++
    event.withFields (shielded event.message)

end Event

/-- What the assembly of a grammar reports: nothing if there is nothing to emit, and the end only if
it is reached. -/
def eventsOfAssembly (functions : List Schema.FunctionSpec) : List Event :=
  let assembly := Grammar.assemble functions
  let registry := Grammar.Registry.collect functions
  let (compiled, final) := Grammar.emitFunctions registry functions
  let emitted := .collectedPrecisions registry.precisions ::
    List.zipWith (fun function rules => .emittedRules function.name (rules.params.length + 1))
      functions compiled
  let dropped := assembly.dropped.map .droppedRule
  match assembly.outcome with
  | .error .noFunctions | .error (.duplicateFunction _) => []
  | .error _ => emitted ++ dropped
  | .ok grammar =>
      emitted ++ dropped ++ [.assembledGrammar functions.length grammar.rules.length final.size]

end ToolGrammar.Journal
