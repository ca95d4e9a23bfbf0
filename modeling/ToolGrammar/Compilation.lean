import ToolGrammar.Documentation
import ToolGrammar.Grammar.Assembly
import ToolGrammar.Grammar.Primitives

namespace ToolGrammar

structure Compilation where
  grammar : String
  documentation : String
  deriving DecidableEq, Repr

namespace Compilation

def ofGrammar (functions : List Schema.FunctionSpec) (primitives : String)
    (grammar : Grammar) : Compilation where
  grammar := grammar.renderWith primitives
  documentation := Documentation.render functions

def compile (functions : List Schema.FunctionSpec) (primitives : String) :
    Except Grammar.CompileError Compilation :=
  (Grammar.compile functions).map (ofGrammar functions primitives)

end Compilation

end ToolGrammar
