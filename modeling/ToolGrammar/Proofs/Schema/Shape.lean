import ToolGrammar.Schema.Parameter

namespace ToolGrammar.Schema

inductive Shape where
  | string
  | boolean
  | number
  | fixed (precision : Precision)
  | enum (values : List String)
  | array (element : Shape)
  | object (fields : List (String × Shape))

mutual

def Parameter.shape : Parameter → Shape
  | .string _ => .string
  | .boolean _ => .boolean
  | .integer .. | .float _ none => .number
  | .float _ (some precision) => .fixed precision
  | .enum _ values => .enum values.values
  | .array _ element => .array element.shape
  | .object _ fields => .object (fieldShapes fields)
termination_by structural parameter => parameter

def fieldShapes : Fields → List (String × Shape)
  | [] => []
  | (name, parameter) :: rest => (name, parameter.shape) :: fieldShapes rest
termination_by structural fields => fields

end

mutual

/-- The precisions of a parameter, at every depth. -/
def Parameter.precisions : Parameter → List Precision
  | .float _ (some precision) => [precision]
  | .array _ element => element.precisions
  | .object _ fields => fieldPrecisions fields
  | .string _ | .boolean _ | .integer .. | .float _ none | .enum .. => []
termination_by structural parameter => parameter

def fieldPrecisions : Fields → List Precision
  | [] => []
  | (_, parameter) :: rest => parameter.precisions ++ fieldPrecisions rest
termination_by structural fields => fields

end

mutual

def Shape.precisions : Shape → List Precision
  | .fixed precision => [precision]
  | .array element => element.precisions
  | .object fields => shapePrecisions fields
  | .string | .boolean | .number | .enum _ => []
termination_by structural shape => shape

def shapePrecisions : List (String × Shape) → List Precision
  | [] => []
  | (_, shape) :: rest => shape.precisions ++ shapePrecisions rest
termination_by structural fields => fields

end

mutual

theorem Parameter.precisions_shape (parameter : Parameter) :
    parameter.shape.precisions = parameter.precisions := by
  cases parameter with
  | string | boolean | integer | enum => rfl
  | float note precision => cases precision <;> rfl
  | array note element => exact element.precisions_shape
  | object note fields => exact shapePrecisions_fieldShapes fields
termination_by structural parameter

theorem shapePrecisions_fieldShapes (fields : Fields) :
    shapePrecisions (fieldShapes fields) = fieldPrecisions fields := by
  match fields with
  | [] => rfl
  | (name, parameter) :: rest =>
      simp only [fieldShapes, shapePrecisions, fieldPrecisions, parameter.precisions_shape,
        shapePrecisions_fieldShapes rest]
termination_by structural fields

end

theorem map_fst_fieldShapes (fields : Fields) :
    (fieldShapes fields).map (·.1) = fields.map (·.1) := by
  induction fields with
  | nil => rfl
  | cons field rest ih => simp [fieldShapes, ih]

/-- What a grammar keeps of a function. -/
structure Signature where
  name : String
  parameters : List (String × Shape)

def FunctionSpec.signature (function : FunctionSpec) : Signature :=
  ⟨function.name, fieldShapes function.parameters⟩

end ToolGrammar.Schema
