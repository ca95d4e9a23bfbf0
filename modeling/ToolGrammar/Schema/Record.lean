import ToolGrammar.Schema.Parameter
import ToolGrammar.Schema.Refusal

namespace ToolGrammar.Schema

/-- The members of a parameter record read so far. The outer option tells whether the member was
written, an inner one whether it was written as `null`. -/
structure ParameterRecord where
  kind : Option Kind
  required : Option Bool
  description : Option (Option String)
  precision : Option (Option Nat)
  fields : Option (Option Fields)
  element : Option (Option Parameter)
  values : Option (Option (List String))

def ParameterRecord.empty : ParameterRecord :=
  ⟨none, none, none, none, none, none, none⟩

def ParameterRecord.has (record : ParameterRecord) : Attribute → Bool
  | .kind => record.kind.isSome
  | .required => record.required.isSome
  | .description => record.description.isSome
  | .precision => record.precision.isSome
  | .fields => record.fields.isSome
  | .element => record.element.isSome
  | .values => record.values.isSome

/-- The attributes that belong to one kind only, in the order in which they are checked. -/
def Attribute.restricted : List (Attribute × Kind) :=
  [(.precision, .float), (.fields, .object), (.element, .array), (.values, .enum)]

def ParameterRecord.gives (record : ParameterRecord) : Attribute → Bool
  | .precision => record.precision.join.isSome
  | .fields => record.fields.join.isSome
  | .element => record.element.join.isSome
  | .values => record.values.join.isSome
  | _ => false

def ParameterRecord.stray? (record : ParameterRecord) (kind : Kind) : Option Attribute :=
  (Attribute.restricted.find? fun (property, owner) => record.gives property && kind != owner).map
    (·.1)

/-- The parameter of a record whose kind is known: stray attributes are reported first, then what
the kind itself needs. -/
def ParameterRecord.parameterOf (record : ParameterRecord) (kind : Kind) :
    Except SchemaError Parameter := do
  if let some stray := record.stray? kind then
    throw (.unexpectedAttribute kind stray)
  let parameter ←
    match kind with
    | .string => pure (.string .plain)
    | .boolean => pure (.boolean .plain)
    | .integer => pure (.integer .plain .integer)
    | .number => pure (.integer .plain .number)
    | .float => Parameter.checkedFloat record.precision.join
    | .object =>
        match record.fields.join with
        | some fields => Parameter.checkedObject fields
        | none => throw .missingStructure
    | .array =>
        match record.element.join with
        | some element => pure (.array .plain element)
        | none => throw .missingElementType
    | .enum =>
        match record.values.join with
        | some values => Parameter.checkedEnum values
        | none => throw .missingEnumValues
  return parameter.withNote ⟨record.required.getD true, record.description.join⟩

def ParameterRecord.finish (record : ParameterRecord) : Decoded Parameter :=
  match record.kind with
  | none => .error (.here (.missingMember Attribute.kind.name))
  | some kind => .ofChecked (record.parameterOf kind)

structure FunctionRecord where
  name : Option String
  description : Option String
  parameters : Option Fields

def FunctionRecord.empty : FunctionRecord :=
  ⟨none, none, none⟩

def FunctionRecord.has (record : FunctionRecord) : FunctionMember → Bool
  | .name => record.name.isSome
  | .description => record.description.isSome
  | .parameters => record.parameters.isSome

def FunctionRecord.finish (record : FunctionRecord) : Decoded FunctionSpec :=
  match record.name with
  | none => .error (.here (.missingMember FunctionMember.name.text))
  | some name =>
      .ofChecked
        (FunctionSpec.checked name (record.description.getD "") (record.parameters.getD []))

/-- The count of a number, which has to fit 32 bits. -/
def countOf (value : Json.Number) : Except Refusal.Cause Nat :=
  match value with
  | .integer n =>
      if 0 ≤ n ∧ n < Nat.pow 2 32 then .ok n.toNat else .error (.countOutOfRange n)
  | .real x => .error (.mismatch (.number (.real x)) .count)

end ToolGrammar.Schema
