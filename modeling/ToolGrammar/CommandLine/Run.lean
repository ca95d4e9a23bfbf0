import ToolGrammar.CommandLine.Invocation
import ToolGrammar.Filter.Run
import ToolGrammar.Glob.Search
import ToolGrammar.Json.Pointer
import ToolGrammar.Json.Tree
import ToolGrammar.Schema.FromValue
import ToolGrammar.Storage.Document

/-!
Runs of the four commands. All schemas are loaded, then the primitive fragment, then everything is
compiled, and only then is anything written or printed. A batch first makes sure that its outputs
have names of their own; then it takes every input from its file to its documents, whatever becomes
of the others.
-/
namespace ToolGrammar.CommandLine

open Schema (FunctionSpec)
open Storage

inductive RunError where
  | compile (error : Grammar.CompileError)
  | compileFile (path : String) (error : Grammar.CompileError)
  | access (failure : Failure)
  | parse (path : String) (refusal : Schema.Refusal)
  | pointer (text path : String)
  | filter (text path : String) (error : Filter.FilterError)
  | pattern (text : String) (error : Glob.PatternError)
  | search (error : Glob.SearchError)
  | noFiles (text : String)
  | sharedName (path : String)
  | noName (path : String)
  | failedInputs (failed total : Nat)

def RunError.message : RunError → String
  | .compile error => error.message
  | .compileFile path error => "failed to compile " ++ path ++ ": " ++ error.message
  | .access failure => failure.message
  | .parse path refusal => "failed to parse schema " ++ path ++ ": " ++ refusal.describe
  | .pointer text path => "JSON pointer `" ++ text ++ "` matched nothing in " ++ path
  | .filter text path error =>
      "failed to apply jq expression to " ++ path ++ ": " ++ error.message text
  | .pattern text error => "invalid glob pattern " ++ text ++ ": " ++ error.message
  | .search error => error.message
  | .noFiles text => "glob pattern matched no files: " ++ text
  | .sharedName path => "two inputs share the output name of " ++ path
  | .noName path => "cannot derive an output name from " ++ path
  | .failedInputs failed total => toString failed ++ " of " ++ toString total ++ " schemas failed"

/-- A script that may end in a failed run. -/
abbrev Run := ExceptT RunError Script

def Run.ofAccess {α : Type} (access : Access α) : Run α :=
  access.adapt .access

/-- What the program leaves to others: the paths that a pattern stands for, and the values that a
filter makes of a document. -/
structure Tools where
  search : Glob.Pattern → Glob.Search (List String)
  filter : String → Json.Value → Except Filter.FilterError (List Json.Value)

/-- The tools of this library, whose filters are a part of the jq language. -/
def Tools.standard : Tools :=
  ⟨Glob.search, Filter.runText⟩

/-- The functions that a schema file describes, told from its path and its text alone. -/
abbrev Loader := (path source : String) → Except RunError (List FunctionSpec)

/-- The paths that an input names: itself, or all that a pattern stands for. -/
def inputPaths (search : Glob.Pattern → Glob.Search (List String)) (input : String) :
    Run (List String) :=
  if !Glob.isPattern input then return [input]
  else
    match Glob.Pattern.ofText input with
    | .error error => throw (.pattern input error)
    | .ok pattern => do
        let paths ← (search pattern).adapt .search
        if paths.isEmpty then throw (.noFiles input)
        return paths

def allPaths (search : Glob.Pattern → Glob.Search (List String)) (inputs : List String) :
    Run (List String) := do
  return (← inputs.mapM (inputPaths search)).flatten

def loadFile (load : Loader) (path : String) : Run (List FunctionSpec) := do
  let source ← .ofAccess (readText .readSchema path)
  .mk (.done (load path source))

namespace Selection

def documents (tools : Tools) (selection : Selection) (path : String) (document : Json.Value) :
    Except RunError (List Json.Value) := do
  let document ←
    match selection.pointer with
    | none => pure document
    | some pointer =>
        match document.pointer? pointer with
        | none => throw (.pointer pointer path)
        | some selected => pure selected
  match selection.filter with
  | none => return [document]
  | some text => (tools.filter text document).mapError (.filter text path)

def loader (tools : Tools) (selection : Selection) : Loader := fun path source => do
  let document ← (Json.Value.ofText source).mapError fun (place, fault) =>
    .parse path { Schema.Refusal.ofFault fault with path := place }
  let functions ← (← selection.documents tools path document).mapM fun document =>
    (Schema.FromValue.document document).mapError (.parse path)
  return functions.flatten

def load (tools : Tools) (selection : Selection) : Run (List FunctionSpec) := do
  let paths ← allPaths tools.search selection.inputs
  let functions := (← paths.mapM (loadFile (selection.loader tools))).flatten
  Script.request (.note (.loadedSchema functions.length))
  return functions

end Selection

def loadPrimitives : Option String → Run String
  | none => return Grammar.primitiveGrammar
  | some path => .ofAccess (readText .readPrimitives path)

def assemble (functions : List FunctionSpec) :
    Script (Except Grammar.CompileError Grammar) := do
  Script.noteAll (Journal.eventsOfAssembly functions)
  return (Grammar.assemble functions).outcome

def compile (failed : Grammar.CompileError → RunError) (functions : List FunctionSpec)
    (primitives : String) : Run Compilation := do
  let grammar ← ExceptT.adapt failed (.mk (assemble functions))
  return .ofGrammar functions primitives grammar

/-- Writes a text to a file, or prints it so that it ends in a line feed. -/
def deliver (out : Option String) (text : String) : Run Unit :=
  match out with
  | some path => .ofAccess (writeDocument path text)
  | none =>
      let ended := if text.toList.getLast? = some '\n' then text else text ++ "\n"
      Script.request (.print ended)

def compileInput (load : Loader) (primitives directory path : String) : Run Unit := do
  let functions ← loadFile load path
  let compilation ← compile (.compileFile path) functions primitives
  match PathText.stem? path with
  | none => throw (.noName path)
  | some stem =>
      .ofAccess (compilation.write (PathText.join directory (stem ++ ".gbnf"))
        (PathText.join directory (stem ++ ".txt")))

/-- Makes sure that every path has an output name, and none that a path before it has. -/
def checkNames (taken : List String) : List String → Except RunError Unit
  | [] => .ok ()
  | path :: rest =>
      match PathText.stem? path with
      | none => .error (.noName path)
      | some stem =>
          if stem ∈ taken then .error (.sharedName path) else checkNames (stem :: taken) rest

/-- The failures of all inputs of a batch, in the order of the inputs. -/
def compileInputs (load : Loader) (primitives directory : String) :
    List String → Script (List RunError)
  | [] => return []
  | path :: rest => do
      let outcome ← (compileInput load primitives directory path).run
      let failures ← compileInputs load primitives directory rest
      match outcome with
      | .ok () => return failures
      | .error error => return error :: failures

/-- What a batch tells of its inputs once all of them have come to their ends. -/
def conclude (directory : String) (total : Nat) (failures : List RunError) : Run Unit := do
  Script.noteAll (failures.map fun failure => .inputFailed failure.message)
  if !failures.isEmpty then throw (.failedInputs failures.length total)
  Script.request (.note (.completedBatch total directory))

def runBatch (search : Glob.Pattern → Glob.Search (List String)) (load : Loader)
    (inputs : List String) (primitives : Option String) (directory : String) : Run Unit := do
  let paths ← allPaths search inputs
  ExceptT.mk (.done (checkNames [] paths))
  let primitives ← loadPrimitives primitives
  conclude directory paths.length (← compileInputs load primitives directory paths)

def Command.run (tools : Tools) : Command → Run Unit
  | .grammar selection primitives out => do
      let functions ← selection.load tools
      let primitives ← loadPrimitives primitives
      let grammar ← ExceptT.adapt .compile (.mk (assemble functions))
      deliver out (grammar.renderWith primitives)
  | .documentation selection out => do
      deliver out (Documentation.render (← selection.load tools))
  | .build selection primitives grammarOut documentationOut => do
      let functions ← selection.load tools
      let primitives ← loadPrimitives primitives
      let compilation ← compile .compile functions primitives
      .ofAccess (compilation.write grammarOut documentationOut)
  | .batch selection primitives directory =>
      runBatch tools.search (selection.loader tools) selection.inputs primitives directory

/-- An idle invocation does nothing. -/
def Invocation.runWith (tools : Tools) (invocation : Invocation) : Run Unit :=
  if invocation.isIdle then pure () else invocation.command.run tools

def Invocation.run (invocation : Invocation) : Run Unit :=
  invocation.runWith .standard

end ToolGrammar.CommandLine
