namespace ToolGrammar.Schema

/-- The kinds of parameter that a schema may name. `number` is another name of `integer`. -/
inductive Kind where
  | string
  | boolean
  | integer
  | number
  | float
  | object
  | array
  | enum
  deriving DecidableEq, Repr

def Kind.name : Kind → String
  | .string => "string"
  | .boolean => "boolean"
  | .integer => "integer"
  | .number => "number"
  | .float => "float"
  | .object => "object"
  | .array => "array"
  | .enum => "enum"

def Kind.all : List Kind :=
  [.string, .boolean, .integer, .number, .float, .object, .array, .enum]

def Kind.ofName? (name : String) : Option Kind :=
  Kind.all.find? (·.name == name)

/-- The members of a parameter record, in the order of their declaration. -/
inductive Attribute where
  | kind
  | required
  | description
  | precision
  | fields
  | element
  | values
  deriving DecidableEq, Repr

def Attribute.name : Attribute → String
  | .kind => "type"
  | .required => "required"
  | .description => "description"
  | .precision => "precision"
  | .fields => "structure"
  | .element => "element_type"
  | .values => "enum"

def Attribute.all : List Attribute :=
  [.kind, .required, .description, .precision, .fields, .element, .values]

def Attribute.ofName? (name : String) : Option Attribute :=
  Attribute.all.find? (·.name == name)

def greatestPrecision : Nat := 64

inductive SchemaError where
  | invalidFunctionName (name : String)
  | invalidFieldName (name : String)
  | duplicateField (name : String)
  | emptyObject
  | emptyEnum
  | duplicateEnumValue (value : String)
  | zeroPrecision
  | precisionTooLarge (digits : Nat)
  | missingStructure
  | missingElementType
  | missingEnumValues
  | unexpectedAttribute (kind : Kind) (stray : Attribute)
  deriving DecidableEq, Repr

def SchemaError.message : SchemaError → String
  | .invalidFunctionName name =>
      "invalid function name `" ++ name ++ "`: expected letters, digits and underscores"
  | .invalidFieldName name =>
      "invalid field name `" ++ name ++ "`: expected letters, digits, `_` or `-`"
  | .duplicateField name => "field `" ++ name ++ "` is declared more than once"
  | .emptyObject => "object parameter has no fields"
  | .emptyEnum => "enum parameter has no values"
  | .duplicateEnumValue value => "enum value `" ++ value ++ "` is listed more than once"
  | .zeroPrecision => "float precision must be a positive integer"
  | .precisionTooLarge digits =>
      "float precision " ++ toString digits ++ " is too large: at most " ++
        toString greatestPrecision ++ " decimal places are supported"
  | .missingStructure => "object parameter is missing its `structure`"
  | .missingElementType => "array parameter is missing its `element_type`"
  | .missingEnumValues => "enum parameter is missing its `enum` values"
  | .unexpectedAttribute kind stray =>
      "`" ++ stray.name ++ "` is not allowed on a " ++ kind.name ++ " parameter"

end ToolGrammar.Schema
