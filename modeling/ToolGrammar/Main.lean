import ToolGrammar.CommandLine.Process

namespace ToolGrammar

open Journal (Threshold)
open Storage

/-- Why the operating system refuses an operation. -/
def systemReason : IO.Error → AccessError
  | .noFileOrDirectory .. => .missing
  | .alreadyExists .. => .occupied
  | .inappropriateType _ code words =>
      if code = 20 then .notDirectory else if code = 21 then .isDirectory else .other words
  | error => .other (toString error)

/-- The answer of the operating system, a refusal being one of its answers. -/
def attempt {α : Type} (action : IO α) : IO (Except AccessError α) := do
  return (← action.toBaseIO).mapError systemReason

def typeOf? (path : String) : IO (Option IO.FS.FileType) := do
  match ← attempt ((← IO.currentDir) / path).metadata with
  | .ok facts => return some facts.type
  | .error _ => return none

def namesIn (path : String) : IO (List String) := do
  let entries ← ((← IO.currentDir) / path).readDir
  return (entries.toList.map (·.fileName)).mergeSort fun a b => a ≤ b

/-- Answers a request; a note is shown if the threshold lets it pass. -/
def answer (threshold : Threshold) : (request : Request) → IO request.Answer
  | .read path => do
      match ← attempt (IO.FS.readBinFile path) with
      | .error reason => return .error reason
      | .ok content => return (String.fromUTF8? content).elim (.error .notText) .ok
  | .isFile path => do return (← typeOf? path) == some .file
  | .isDirectory path => do return (← typeOf? path) == some .dir
  | .list path => attempt (namesIn path)
  | .makeDirectories path => attempt (IO.FS.createDirAll path)
  | .write path text => attempt (IO.FS.writeFile path text)
  | .print text => IO.print text
  | .note event => do if threshold.shows event then IO.eprintln event.line

def perform {α : Type} (threshold : Threshold) : Script α → IO α
  | .done value => pure value
  | .ask request next => do perform threshold (next (← answer threshold request))

end ToolGrammar

def main (words : List String) : IO UInt32 := do
  if let .error stop := ToolGrammar.CommandLine.Invocation.ofWords words then
    if let some complaint := stop.complaint? then IO.eprintln complaint
  let threshold := ToolGrammar.CommandLine.thresholdOf words (← IO.getEnv "RUST_LOG")
  return (← ToolGrammar.perform threshold (ToolGrammar.CommandLine.process words)).toUInt32
