import ToolGrammar.Compilation
import ToolGrammar.CommandLine.Arguments
import ToolGrammar.Json.Tree
import ToolGrammar.Schema.FromValue
import ToolGrammar.Script
import ToolGrammar.Snapshot.Difference

/-!
Cases with stored documents. Every directory that holds a schema is a case; both its documents are
made anew and compared with the stored ones, or stored in their place.
-/
namespace ToolGrammar.Snapshot

open Storage

inductive CheckError where
  | listing (directory : String) (reason : AccessError)
  | reading (case : String) (reason : AccessError)
  | malformed (case : String) (refusal : Schema.Refusal)
  | invalid (case : String) (refusal : Schema.Refusal)
  | compile (case : String) (error : Grammar.CompileError)
  | writing (path : String) (reason : AccessError)
  deriving DecidableEq, Repr

def CheckError.message : CheckError → String
  | .listing directory reason => "failed to list " ++ directory ++ ": " ++ reason.message
  | .reading case reason => "failed to read schema for " ++ case ++ ": " ++ reason.message
  | .malformed case refusal => "invalid JSON in " ++ case ++ ": " ++ refusal.describe
  | .invalid case refusal => "invalid schema in " ++ case ++ ": " ++ refusal.describe
  | .compile case error => "failed to compile " ++ case ++ ": " ++ error.message
  | .writing path reason => "failed to write " ++ path ++ ": " ++ reason.message

structure Document where
  file : String
  text : String
  deriving DecidableEq, Repr

def documentsOf (case source : String) : Except CheckError (List Document) := do
  let value ← (Json.Value.ofText source).mapError fun (path, fault) =>
    .malformed case { Schema.Refusal.ofFault fault with path }
  let functions ← (Schema.FromValue.document value).mapError (.invalid case)
  let grammar ← (Grammar.compile functions).mapError (.compile case)
  return [⟨"expected.gbnf", grammar.render ++ "\n"⟩,
    ⟨"expected.txt", Documentation.render functions⟩]

structure Outcome where
  case : String
  mismatches : List (String × Difference)
  deriving DecidableEq, Repr

abbrev Check := ExceptT CheckError Script

def store (directory : String) (document : Document) : Check Unit :=
  let path := PathText.join directory document.file
  ExceptT.mk do return (← Script.request (.write path document.text)).mapError (.writing path)

/-- The stored text of a document; what cannot be read counts as empty. -/
def stored (directory : String) (document : Document) : Script String := do
  match ← Script.request (.read (PathText.join directory document.file)) with
  | .ok text => return text
  | .error _ => return ""

def compare (directory : String) : List Document → Script (List (String × Difference))
  | [] => return []
  | document :: rest => do
      let expected ← stored directory document
      let others ← compare directory rest
      match firstDifference expected document.text with
      | none => return others
      | some difference => return (document.file, difference) :: others

def storeAll (directory : String) : List Document → Check Unit
  | [] => return ()
  | document :: rest => do
      store directory document
      storeAll directory rest

/-- Checks the case of a name among the fixtures, or stores its documents. -/
def checkCase (bless : Bool) (fixtures case : String) : Check Outcome := do
  let directory := PathText.join fixtures case
  let source ← ExceptT.mk do
    return (← Script.request (.read (PathText.join directory "schema.json"))).mapError
      (.reading case)
  let documents ← .mk (.done (documentsOf case source))
  if bless then
    storeAll directory documents
    return ⟨case, []⟩
  else return ⟨case, ← ExceptT.lift (compare directory documents)⟩

/-- What a check tells: the cases that came to an end, and why no more did. -/
structure Report where
  outcomes : List Outcome
  error : Option CheckError
  deriving DecidableEq, Repr

def checkCases (bless : Bool) (fixtures : String) : List String → Script Report
  | [] => return ⟨[], none⟩
  | case :: rest => do
      match ← (checkCase bless fixtures case).run with
      | .error error => return ⟨[], some error⟩
      | .ok outcome =>
          let report ← checkCases bless fixtures rest
          return ⟨outcome :: report.outcomes, report.error⟩

def casesAmong (fixtures : String) : List String → Script (List String)
  | [] => return []
  | name :: rest => do
      let path := PathText.join (PathText.join fixtures name) "schema.json"
      let isCase ← Script.request (.isFile path)
      let others ← casesAmong fixtures rest
      return if isCase then name :: others else others

/-- Checks all cases in alphabetical order, up to the first that cannot be checked. -/
def check (bless : Bool) (fixtures : String) : Script Report := do
  match ← Script.request (.list fixtures) with
  | .error reason => return ⟨[], some (.listing fixtures reason)⟩
  | .ok names => checkCases bless fixtures (← casesAmong fixtures names)

def Outcome.lines (outcome : Outcome) : List String :=
  if outcome.mismatches.isEmpty then ["✅ " ++ outcome.case]
  else
    ("❌ " ++ outcome.case) :: outcome.mismatches.map fun mismatch =>
      "   " ++ mismatch.1 ++ ": " ++ mismatch.2.describe

namespace Report

/-- Whether every case was checked and found as it should be. -/
def passed (report : Report) : Bool :=
  report.error.isNone && report.outcomes.all (·.mismatches.isEmpty)

def exitCode (report : Report) : Nat :=
  if report.passed then 0 else 1

def render (report : Report) : String :=
  let ending := match report.error with
    | some error => "error: " ++ error.message
    | none => toString report.outcomes.length ++ " case(s) checked"
  String.join ((report.outcomes.flatMap Outcome.lines ++ [ending]).map (· ++ "\n"))

end Report

inductive CheckOption where
  | help
  | fixtures
  | bless
  deriving DecidableEq, Repr

def checkCatalog : CommandLine.Catalog CheckOption where
  options := [.help, .fixtures, .bless]
  spec
    | .help => ⟨"help", some 'h', .stop .help⟩
    | .fixtures => ⟨"fixtures", none, .path⟩
    | .bless => ⟨"bless", none, .nothing⟩

structure Settings where
  fixtures : String
  bless : Bool
  deriving DecidableEq, Repr

def Settings.ofWords (words : List String) : Except CommandLine.Stop Settings := do
  let reading ← CommandLine.Reading.empty.readAll checkCatalog words
  return ⟨(reading.value? .fixtures).getD "fixtures", reading.has .bless⟩

end ToolGrammar.Snapshot
