import ToolGrammar.Json.Fault
import ToolGrammar.Json.Path
import ToolGrammar.Json.Printer
import ToolGrammar.Schema.Error
import ToolGrammar.Text.Escaped

namespace ToolGrammar.Schema

inductive RecordType where
  | function
  | parameter
  deriving DecidableEq, Repr

/-- The members of a function record, in the order of their declaration. -/
inductive FunctionMember where
  | name
  | description
  | parameters
  deriving DecidableEq, Repr

def FunctionMember.text : FunctionMember → String
  | .name => "name"
  | .description => "description"
  | .parameters => "parameters"

def FunctionMember.all : List FunctionMember :=
  [.name, .description, .parameters]

def FunctionMember.ofText? (text : String) : Option FunctionMember :=
  FunctionMember.all.find? (·.text == text)

def RecordType.members : RecordType → List String
  | .function => FunctionMember.all.map (·.text)
  | .parameter => Attribute.all.map (·.name)

def RecordType.text : RecordType → String
  | .function => "struct RawFunction"
  | .parameter => "struct RawParameter"

inductive Found where
  | null
  | bool (value : Bool)
  | number (value : Json.Number)
  | string (value : String)
  | array
  | object
  deriving DecidableEq, Repr

def Found.text : Found → String
  | .null => "null"
  | .bool value => "boolean `" ++ toString value ++ "`"
  | .number (.integer value) => "integer `" ++ toString value ++ "`"
  | .number (.real value) => "floating point `" ++ (Json.Number.real value).render ++ "`"
  | .string value => "string " ++ Text.escaped value
  | .array => "sequence"
  | .object => "map"

inductive Expected where
  | string
  | bool
  | array
  | object
  | count
  | unit
  | kind
  | record (type : RecordType)
  deriving DecidableEq, Repr

def Expected.text : Expected → String
  | .string => "a string"
  | .bool => "a boolean"
  | .array => "a sequence"
  | .object => "a map"
  | .count => "u32"
  | .unit => "unit"
  | .kind => "string or map"
  | .record type => type.text

inductive Refusal.Cause where
  | invalid (error : SchemaError)
  | mismatch (found : Found) (expected : Expected)
  /-- A count that is negative or does not fit 32 bits. -/
  | countOutOfRange (value : Int)
  /-- A kind given as an object without exactly one member. -/
  | kindNotSingle
  | unknownKind (name : String)
  | missingMember (name : String)
  | unknownMember (type : RecordType) (name : String)
  | repeatedMember (name : String)
  | emptyRecord (type : RecordType)
  /-- A record given as an array of more items than it has members. -/
  | tooManyItems (count : Nat)
  | malformed (cause : Json.Fault.Cause)
  deriving DecidableEq, Repr

/-- Alternatives as a message lists them. -/
def alternatives (names : List String) : String :=
  "expected one of " ++ ", ".intercalate (names.map fun name => "`" ++ name ++ "`")

def Refusal.Cause.message : Refusal.Cause → String
  | .invalid error => error.message
  | .mismatch found expected => "invalid type: " ++ found.text ++ ", expected " ++ expected.text
  | .countOutOfRange value => "invalid value: integer `" ++ toString value ++ "`, expected u32"
  | .kindNotSingle => "invalid value: map, expected map with a single key"
  | .unknownKind name =>
      "unknown variant `" ++ name ++ "`, " ++ alternatives (Kind.all.map (·.name))
  | .missingMember name => "missing field `" ++ name ++ "`"
  | .unknownMember type name => "unknown field `" ++ name ++ "`, " ++ alternatives type.members
  | .repeatedMember name => "duplicate field `" ++ name ++ "`"
  | .emptyRecord type =>
      "invalid length 0, expected " ++ type.text ++ " with " ++ toString type.members.length ++
        " elements"
  | .tooManyItems count =>
      "invalid length " ++ toString count ++ ", expected fewer elements in array"
  | .malformed cause => cause.message

structure Refusal where
  path : Json.Path
  cause : Refusal.Cause
  position : Option Json.Position
  deriving DecidableEq, Repr

namespace Refusal

def here (cause : Cause) : Refusal :=
  ⟨[], cause, none⟩

def located (cause : Cause) (position : Json.Position) : Refusal :=
  ⟨[], cause, some position⟩

def ofFault (fault : Json.Fault) : Refusal :=
  located (.malformed fault.cause) fault.position

/-- The same refusal seen from the parent of the node. -/
def under (step : Json.Step) (refusal : Refusal) : Refusal :=
  { refusal with path := step :: refusal.path }

/-- Gives a position to a refusal that has none. -/
def settle (position : Json.Position) (refusal : Refusal) : Refusal :=
  { refusal with position := some (refusal.position.getD position) }

def message (refusal : Refusal) : String :=
  refusal.cause.message ++ (refusal.position.map Json.Position.describe).getD ""

def describe (refusal : Refusal) : String :=
  "at JSON path " ++ refusal.path.display ++ " → " ++ refusal.message

end Refusal

abbrev Decoded (α : Type) := Except Refusal α

def Decoded.under {α : Type} (step : Json.Step) (decoded : Decoded α) : Decoded α :=
  decoded.mapError (Refusal.under step)

def Decoded.settle {α : Type} (position : Json.Position) (decoded : Decoded α) : Decoded α :=
  decoded.mapError (Refusal.settle position)

def Decoded.ofChecked {α : Type} (checked : Except SchemaError α) : Decoded α :=
  checked.mapError fun error => .here (.invalid error)

end ToolGrammar.Schema
