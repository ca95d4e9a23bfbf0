import ToolGrammar.Compilation
import ToolGrammar.Script

namespace ToolGrammar.Storage

inductive Operation where
  | readSchema
  | readPrimitives
  | createDirectory
  | write
  deriving DecidableEq, Repr

def Operation.text : Operation → String
  | .readSchema => "read schema"
  | .readPrimitives => "read primitive grammar"
  | .createDirectory => "create directory"
  | .write => "write"

structure Failure where
  operation : Operation
  path : String
  reason : AccessError
  deriving DecidableEq, Repr

def Failure.message (failure : Failure) : String :=
  "failed to " ++ failure.operation.text ++ " " ++ failure.path ++ ": " ++ failure.reason.message

abbrev Access := ExceptT Failure Script

/-- The answer of the file system, a refusal told as one of this operation. -/
def Access.ofAnswer {α : Type} (operation : Operation) (path : String)
    (answer : Script (Except AccessError α)) : Access α :=
  ExceptT.mk do return (← answer).mapError (⟨operation, path, ·⟩)

def readText (operation : Operation) (path : String) : Access String :=
  .ofAnswer operation path (.request (.read path))

def makeDirectoryOf (path : String) : Access Unit :=
  match PathText.parent? path with
  | none | some "" => pure ()
  | some parent => .ofAnswer .createDirectory parent (.request (.makeDirectories parent))

def writeDocument (path text : String) : Access Unit := do
  makeDirectoryOf path
  .ofAnswer .write path (.request (.write path text))
  Script.request (.note (.wroteDocument path text.utf8ByteSize))

end ToolGrammar.Storage

namespace ToolGrammar

def Compilation.write (compilation : Compilation) (grammarPath documentationPath : String) :
    Storage.Access Unit := do
  Storage.writeDocument grammarPath compilation.grammar
  Storage.writeDocument documentationPath compilation.documentation

end ToolGrammar
