import ToolGrammar.Keyed
import ToolGrammar.Schema.Error

/-!
Parameters and functions as schemas declare them. The checked constructors are the only way from
untrusted data to these types; each reports the first defect it meets.
-/
namespace ToolGrammar.Schema

/-- Decimal places of a float: at least one, at most `greatestPrecision`. -/
structure Precision where
  digits : Nat
  positive : 0 < digits
  bounded : digits ≤ greatestPrecision
  deriving DecidableEq, Repr

def Precision.checked (digits : Nat) : Except SchemaError Precision :=
  if bounded : digits ≤ greatestPrecision then
    if positive : 0 < digits then .ok ⟨digits, positive, bounded⟩ else .error .zeroPrecision
  else .error (.precisionTooLarge digits)

/-- The values of an enumeration in the order of their declaration. -/
structure EnumValues where
  values : List String
  nonempty : values ≠ []
  distinct : values.Nodup
  deriving DecidableEq, Repr

/-- The first element that equals an earlier one, `seen` being the elements before the list. -/
def firstRepeat? (seen : List String) : List String → Option String
  | [] => none
  | value :: rest => if value ∈ seen then some value else firstRepeat? (value :: seen) rest

theorem nodup_of_firstRepeat?_eq_none {seen values : List String}
    (none : firstRepeat? seen values = none) :
    values.Nodup ∧ ∀ value ∈ values, value ∉ seen := by
  induction values generalizing seen with
  | nil => simp
  | cons value rest ih =>
      by_cases repeated : value ∈ seen
      · simp [firstRepeat?, repeated] at none
      · simp only [firstRepeat?, repeated, if_false] at none
        obtain ⟨distinct, fresh⟩ := ih none
        refine ⟨List.nodup_cons.mpr ⟨fun member => ?_, distinct⟩, ?_⟩
        · exact fresh value member (by simp)
        · intro other member
          rcases List.mem_cons.mp member with same | later
          · exact same ▸ repeated
          · exact fun earlier => fresh other later (List.mem_cons_of_mem _ earlier)

def EnumValues.checked (values : List String) : Except SchemaError EnumValues :=
  match repeats : firstRepeat? [] values with
  | some value => .error (.duplicateEnumValue value)
  | none =>
      if nonempty : values ≠ [] then
        .ok ⟨values, nonempty, (nodup_of_firstRepeat?_eq_none repeats).1⟩
      else .error .emptyEnum

structure Note where
  required : Bool
  description : Option String
  deriving DecidableEq, Repr

/-- Required, and without a description. -/
def Note.plain : Note :=
  ⟨true, none⟩

/-- The name under which an integer was declared. -/
inductive IntegerName where
  | integer
  | number
  deriving DecidableEq, Repr

inductive Parameter where
  | string (note : Note)
  | boolean (note : Note)
  | integer (note : Note) (name : IntegerName)
  | float (note : Note) (precision : Option Precision)
  | object (note : Note) (fields : List (String × Parameter))
  | array (note : Note) (element : Parameter)
  | enum (note : Note) (values : EnumValues)
  deriving Repr

/-- Named parameters in the order of their declaration. -/
abbrev Fields := List (String × Parameter)

structure FunctionSpec where
  name : String
  description : String
  parameters : Fields
  deriving Repr

def isWordChar (c : Char) : Bool :=
  c.isAlphanum || c == '_'

/-- Function names are words of ASCII letters, digits and underscores. -/
def isFunctionName (name : String) : Bool :=
  name != "" && name.toList.all isWordChar

/-- Field names may hold hyphens too. -/
def isFieldName (name : String) : Bool :=
  name != "" && name.toList.all fun c => isWordChar c || c == '-'

/-- The first defect among fields that follow fields of the names `seen`. -/
def fieldDefect? (seen : List String) : Fields → Option SchemaError
  | [] => none
  | (name, _) :: rest =>
      if !isFieldName name then some (.invalidFieldName name)
      else if name ∈ seen then some (.duplicateField name)
      else fieldDefect? (name :: seen) rest

/-- Fields with valid and distinct names, possibly none. -/
def checkedFields (fields : Fields) : Except SchemaError Fields :=
  match fieldDefect? [] fields with
  | some defect => .error defect
  | none => .ok fields

namespace Parameter

def note : Parameter → Note
  | .string note | .boolean note | .integer note _ | .float note _ | .object note _
  | .array note _ | .enum note _ => note

def withNote (note : Note) : Parameter → Parameter
  | .string _ => .string note
  | .boolean _ => .boolean note
  | .integer _ name => .integer note name
  | .float _ precision => .float note precision
  | .object _ fields => .object note fields
  | .array _ element => .array note element
  | .enum _ values => .enum note values

def kind : Parameter → Kind
  | .string _ => .string
  | .boolean _ => .boolean
  | .integer .. => .integer
  | .float .. => .float
  | .object .. => .object
  | .array .. => .array
  | .enum .. => .enum

/-- The kind under the name it was declared with. -/
def declaredKind : Parameter → Kind
  | .integer _ .number => .number
  | parameter => parameter.kind

def isRequired (parameter : Parameter) : Bool :=
  parameter.note.required

def description (parameter : Parameter) : Option String :=
  parameter.note.description

def require (required : Bool) (parameter : Parameter) : Parameter :=
  parameter.withNote { parameter.note with required }

def optional (parameter : Parameter) : Parameter :=
  parameter.require false

def describe (text : String) (parameter : Parameter) : Parameter :=
  parameter.withNote { parameter.note with description := some text }

def checkedFloat (digits : Option Nat) : Except SchemaError Parameter :=
  match digits with
  | none => .ok (.float .plain none)
  | some digits => (Precision.checked digits).map fun precision => .float .plain (some precision)

def checkedObject (fields : Fields) : Except SchemaError Parameter := do
  let fields ← checkedFields fields
  if fields.isEmpty then throw .emptyObject
  return .object .plain fields

def checkedEnum (values : List String) : Except SchemaError Parameter :=
  (EnumValues.checked values).map (.enum .plain)

mutual

/-- Equality up to the order of fields, at every depth. -/
def same : Parameter → Parameter → Bool
  | .string note, .string note' | .boolean note, .boolean note' => note == note'
  | .integer note name, .integer note' name' => note == note' && name == name'
  | .float note precision, .float note' precision' => note == note' && precision == precision'
  | .enum note values, .enum note' values' => note == note' && values == values'
  | .array note element, .array note' element' => note == note' && element.same element'
  | .object note fields, .object note' fields' =>
      note == note' && fields.length == fields'.length && sameFields fields fields'
  | _, _ => false
termination_by structural parameter => parameter

/-- Whether each of the fields has an equal one of its name among the others. -/
def sameFields : Fields → Fields → Bool
  | [], _ => true
  | (name, parameter) :: rest, others =>
      match Keyed.lookup? name others with
      | some other => parameter.same other && sameFields rest others
      | none => false
termination_by structural fields => fields

end

end Parameter

def FunctionSpec.checked (name description : String) (parameters : Fields) :
    Except SchemaError FunctionSpec := do
  if !isFunctionName name then throw (.invalidFunctionName name)
  let parameters ← checkedFields parameters
  return { name, description, parameters }

/-- Equality up to the order of parameters and of fields. -/
def FunctionSpec.same (function other : FunctionSpec) : Bool :=
  function.name == other.name && function.description == other.description &&
    (function.parameters.length == other.parameters.length &&
      Parameter.sameFields function.parameters other.parameters)

end ToolGrammar.Schema
