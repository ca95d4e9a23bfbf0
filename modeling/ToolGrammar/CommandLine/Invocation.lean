import ToolGrammar.CommandLine.Arguments

namespace ToolGrammar.CommandLine

structure Selection where
  inputs : List String
  pointer : Option String
  filter : Option String
  deriving DecidableEq, Repr

inductive Command where
  | grammar (selection : Selection) (primitives out : Option String)
  | documentation (selection : Selection) (out : Option String)
  | build (selection : Selection) (primitives : Option String)
      (grammarOut documentationOut : String)
  | batch (selection : Selection) (primitives : Option String) (directory : String)
  deriving DecidableEq, Repr

structure Invocation where
  log : Option String
  /-- Whether to read the words only. -/
  isIdle : Bool
  command : Command
  deriving DecidableEq, Repr

inductive CommandOption where
  | help
  | version
  | log
  | idle
  | pointer
  | filter
  | input
  | primitives
  | out
  | grammarOut
  | documentationOut
  | directory
  deriving DecidableEq, Repr

def CommandOption.spec : CommandOption → OptionSpec
  | .help => ⟨"help", some 'h', .stop .help⟩
  | .version => ⟨"version", some 'V', .stop .version⟩
  | .log => ⟨"log", none, .text⟩
  | .idle => ⟨"no-op", none, .nothing⟩
  | .pointer => ⟨"json-pointer", none, .text⟩
  | .filter => ⟨"jq-expr", none, .text⟩
  | .input => ⟨"input", some 'i', .texts⟩
  | .primitives => ⟨"primitives", none, .path⟩
  | .out => ⟨"out", some 'o', .path⟩
  | .grammarOut => ⟨"grammar-out", none, .path⟩
  | .documentationOut => ⟨"docs-out", none, .path⟩
  | .directory => ⟨"out-dir", none, .path⟩

inductive CommandName where
  | grammar
  | docs
  | build
  | batch
  deriving DecidableEq, Repr

def CommandName.text : CommandName → String
  | .grammar => "grammar"
  | .docs => "docs"
  | .build => "build"
  | .batch => "batch"

def CommandName.all : List CommandName :=
  [.grammar, .docs, .build, .batch]

def CommandName.ofText? (text : String) : Option CommandName :=
  CommandName.all.find? (·.text == text)

def CommandName.options : CommandName → List CommandOption
  | .grammar => [.pointer, .filter, .input, .primitives, .out]
  | .docs => [.pointer, .filter, .input, .out]
  | .build => [.pointer, .filter, .input, .primitives, .grammarOut, .documentationOut]
  | .batch => [.pointer, .filter, .input, .primitives, .directory]

def leadingCatalog : Catalog CommandOption :=
  ⟨[.help, .version, .log, .idle], CommandOption.spec⟩

def CommandName.catalog (name : CommandName) : Catalog CommandOption :=
  ⟨[.help, .log, .idle] ++ name.options, CommandOption.spec⟩

def required (value : Option String) : Except Stop String :=
  match value with
  | some value => .ok value
  | none => .error .missingArgument

def CommandName.command (name : CommandName) (reading : Reading CommandOption) :
    Except Stop Command := do
  let inputs := reading.values .input
  if inputs.isEmpty then throw .missingArgument
  let selection := ⟨inputs, reading.value? .pointer, reading.value? .filter⟩
  let primitives := reading.value? .primitives
  match name with
  | .grammar => return .grammar selection primitives (reading.value? .out)
  | .docs => return .documentation selection (reading.value? .out)
  | .build =>
      return .build selection primitives (← required (reading.value? .grammarOut))
        (← required (reading.value? .documentationOut))
  | .batch => return .batch selection primitives (← required (reading.value? .directory))

/-- Asks for help about a command; the word `help` itself names one too. -/
def helpAbout : List String → Stop
  | [] => .help
  | [word] => if word = "help" ∨ (CommandName.ofText? word).isSome then .help else .unknownCommand
  | _ => .unknownCommand

def Invocation.ofReadings (before after : Reading CommandOption) (command : Command) :
    Invocation where
  log := after.value? .log <|> before.value? .log
  isIdle := before.has .idle || after.has .idle
  command := command

/-- Reads the words from the first one that may be the name of a command. -/
def Invocation.readFrom (before : Reading CommandOption) : List String → Except Stop Invocation
  | [] => do
      let before ← before.settle leadingCatalog
      throw (if before.given.isEmpty then .nothingAsked else .missingCommand)
  | word :: rest =>
      let name := CommandName.ofText? word
      if before.isTrailing then
        .error (if word = "help" ∨ name.isSome then .unknownArgument else .unknownCommand)
      else if before.isOpen leadingCatalog then
        match before.readWord? leadingCatalog word with
        | none => .error .unknownCommand
        | some read => do readFrom (← read) rest
      else if word = "help" then .error (helpAbout rest)
      else
        match name with
        | some name => do
            let after ← Reading.empty.readAll name.catalog rest
            let command ← name.command after
            return .ofReadings (← before.settle leadingCatalog) after command
        | none =>
            match before.readWord? leadingCatalog word with
            | none => .error .unknownCommand
            | some read => do readFrom (← read) rest

def Invocation.ofWords (words : List String) : Except Stop Invocation :=
  readFrom .empty words

end ToolGrammar.CommandLine
