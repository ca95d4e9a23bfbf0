import ToolGrammar.Schema.Parameter

/-!
Plain-text documentation. It is made of entries, each at a level of indentation or blank, so that
what is said about a schema can be read off the entries apart from their layout.
-/
namespace ToolGrammar.Documentation

open Schema (Parameter Fields FunctionSpec)

inductive Entry where
  | blank
  | line (level : Nat) (text : String)
  deriving DecidableEq, Repr

/-- Two spaces for every level. -/
def Entry.render : Entry → String
  | .blank => ""
  | .line level text => String.ofList (List.replicate (2 * level) ' ') ++ text

/-- Values as a sentence lists them: `a`, `a or b`, `a, b or c`. -/
def orList (values : List String) : String :=
  match values.getLast? with
  | none => ""
  | some last =>
      if values.length = 1 then last
      else ", ".intercalate values.dropLast ++ " or " ++ last

def remark? : Parameter → Option String
  | .enum _ values => some ("(Valid values: " ++ orList values.values ++ ")")
  | .float _ (some precision) =>
      some ("(exactly " ++ toString precision.digits ++ " decimal places)")
  | _ => none

def details? (parameter : Parameter) : Option String :=
  match parameter.description, remark? parameter with
  | some text, some remark => some (text ++ " " ++ remark)
  | some text, none => some text
  | none, remark => remark

def heading (name : String) (parameter : Parameter) : String :=
  name ++ " (" ++ parameter.declaredKind.name ++ ", " ++
    (if parameter.isRequired then "required" else "optional") ++ ")" ++
    match details? parameter with
    | some details => ": " ++ details
    | none => ""

mutual

def parameterEntries (level : Nat) (name : String) : Parameter → List Entry
  | .object note fields =>
      .line level (heading name (.object note fields)) ::
        .line (level + 1) "Structure:" :: fieldEntries (level + 2) fields
  | .array note element =>
      .line level (heading name (.array note element)) ::
        .line (level + 1) "Element Type:" :: parameterEntries (level + 2) "item" element
  | .string note => [.line level (heading name (.string note))]
  | .boolean note => [.line level (heading name (.boolean note))]
  | .integer note spelling => [.line level (heading name (.integer note spelling))]
  | .float note precision => [.line level (heading name (.float note precision))]
  | .enum note values => [.line level (heading name (.enum note values))]
termination_by structural parameter => parameter

def fieldEntries (level : Nat) : Fields → List Entry
  | [] => []
  | (name, parameter) :: rest => parameterEntries level name parameter ++ fieldEntries level rest
termination_by structural fields => fields

end

def functionEntries (function : FunctionSpec) : List Entry :=
  [.line 0 (function.name ++ ":"), .line 1 ("Description: " ++ function.description)] ++
    (if function.parameters.isEmpty then [.line 1 "Parameters: none"]
    else .line 1 "Parameters:" :: fieldEntries 2 function.parameters) ++
    [.blank]

def entries (functions : List FunctionSpec) : List Entry :=
  [.line 0 "Available Functions:", .blank] ++ functions.flatMap functionEntries

/-- Every entry is a line, and the last line ends like the others. -/
def render (functions : List FunctionSpec) : String :=
  "\n".intercalate ((entries functions).map Entry.render) ++ "\n"

end ToolGrammar.Documentation
