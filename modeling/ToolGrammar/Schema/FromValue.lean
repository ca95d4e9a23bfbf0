import ToolGrammar.Json.Value
import ToolGrammar.Schema.Record

namespace ToolGrammar.Schema.FromValue

open Json (Value)

def found : Value → Found
  | .null => .null
  | .bool value => .bool value
  | .number value => .number value
  | .string value => .string value
  | .array _ => .array
  | .object _ => .object

def mismatch {α : Type} (value : Value) (expected : Expected) : Decoded α :=
  .error (.here (.mismatch (found value) expected))

def string : Value → Decoded String
  | .string text => .ok text
  | other => mismatch other .string

def bool : Value → Decoded Bool
  | .bool value => .ok value
  | other => mismatch other .bool

def count : Value → Decoded Nat
  | .number value => (countOf value).mapError .here
  | other => mismatch other .count

/-- Nothing for `null`, else what the decoder makes of the value. -/
def optional {α : Type} (decode : Value → Decoded α) : Value → Decoded (Option α)
  | .null => .ok none
  | value => (decode value).map some

def stringItems (index : Nat) : List Value → Decoded (List String)
  | [] => .ok []
  | item :: rest => do
      let text ← Decoded.under (.item index) (string item)
      return text :: (← stringItems (index + 1) rest)

def strings : Value → Decoded (List String)
  | .array items => stringItems 0 items
  | other => mismatch other .array

def kindOfName (name : String) : Decoded Kind :=
  match Kind.ofName? name with
  | some kind => .ok kind
  | none => .error (.here (.unknownKind name))

/-- A kind is its name, or an object whose one member has that name and the value `null`. -/
def kind : Value → Decoded Kind
  | .string name => kindOfName name
  | .object [(name, value)] => do
      let kind ← kindOfName name
      match value with
      | .null => return kind
      | other => Decoded.under (.member name) (mismatch other .unit)
  | .object _ => .error (.here .kindNotSingle)
  | other => mismatch other .kind

/-- The record with one more member, whose value as fields or as a parameter is decoded only
where the attribute calls for it. -/
def withAttribute (record : ParameterRecord) (property : Attribute) (value : Value)
    (fields : Unit → Decoded Fields) (parameter : Unit → Decoded Parameter) :
    Decoded ParameterRecord :=
  match property with
  | .kind => return { record with kind := some (← kind value) }
  | .required => return { record with required := some (← bool value) }
  | .description => return { record with description := some (← optional string value) }
  | .precision => return { record with precision := some (← optional count value) }
  | .fields => return { record with fields := some (← optional (fun _ => fields ()) value) }
  | .element => return { record with element := some (← optional (fun _ => parameter ()) value) }
  | .values => return { record with values := some (← optional strings value) }

mutual

def parameter : Value → Decoded Parameter
  | .object members => do (← membersOf .empty members).finish
  | .array items => do (← itemsOf items.length 0 .empty Attribute.all items).finish
  | other => mismatch other (.record .parameter)
termination_by structural value => value

/-- Reads the members of a parameter record in their order. -/
def membersOf (record : ParameterRecord) : List (String × Value) → Decoded ParameterRecord
  | [] => .ok record
  | (name, value) :: rest =>
      match Attribute.ofName? name with
      | none => .error (Refusal.here (.unknownMember .parameter name) |>.under (.member name))
      | some property => do
          let record ← Decoded.under (.member name)
            (withAttribute record property value (fun _ => fields value) (fun _ => parameter value))
          membersOf record rest
termination_by structural members => members

/-- Reads the items of a parameter record against the members still to come. -/
def itemsOf (count index : Nat) (record : ParameterRecord) (properties : List Attribute) :
    List Value → Decoded ParameterRecord
  | [] => if index = 0 then .error (.here (.emptyRecord .parameter)) else .ok record
  | value :: rest =>
      match properties with
      | [] => .error (.here (.tooManyItems count))
      | property :: properties => do
          let record ← Decoded.under (.item index)
            (withAttribute record property value (fun _ => fields value) (fun _ => parameter value))
          itemsOf count (index + 1) record properties rest
termination_by structural items => items

/-- Fields in the order of the members. -/
def fields : Value → Decoded Fields
  | .object members => namedParameters members
  | other => mismatch other .object
termination_by structural value => value

def namedParameters : List (String × Value) → Decoded Fields
  | [] => .ok []
  | (name, value) :: rest => do
      let first ← Decoded.under (.member name) (parameter value)
      return (name, first) :: (← namedParameters rest)
termination_by structural members => members

end

def withMember (record : FunctionRecord) (member : FunctionMember) (value : Value) :
    Decoded FunctionRecord :=
  match member with
  | .name => return { record with name := some (← string value) }
  | .description => return { record with description := some (← string value) }
  | .parameters => return { record with parameters := some (← fields value) }

def functionMembers (record : FunctionRecord) : List (String × Value) → Decoded FunctionRecord
  | [] => .ok record
  | (name, value) :: rest =>
      match FunctionMember.ofText? name with
      | none => .error (Refusal.here (.unknownMember .function name) |>.under (.member name))
      | some member => do
          functionMembers (← Decoded.under (.member name) (withMember record member value)) rest

def functionItems (count index : Nat) (record : FunctionRecord) (members : List FunctionMember) :
    List Value → Decoded FunctionRecord
  | [] => if index = 0 then .error (.here (.emptyRecord .function)) else .ok record
  | value :: rest =>
      match members with
      | [] => .error (.here (.tooManyItems count))
      | member :: members => do
          functionItems count (index + 1)
            (← Decoded.under (.item index) (withMember record member value)) members rest

def function : Value → Decoded FunctionSpec
  | .object members => do (← functionMembers .empty members).finish
  | .array items => do (← functionItems items.length 0 .empty FunctionMember.all items).finish
  | other => mismatch other (.record .function)

def functionList (index : Nat) : List Value → Decoded (List FunctionSpec)
  | [] => .ok []
  | item :: rest => do
      let first ← Decoded.under (.item index) (function item)
      return first :: (← functionList (index + 1) rest)

def functions : Value → Decoded (List FunctionSpec)
  | .array items => functionList 0 items
  | other => mismatch other .array

/-- A document is a list of functions or a single one. -/
def document : Value → Decoded (List FunctionSpec)
  | .array items => functions (.array items)
  | other => return [← function other]

end ToolGrammar.Schema.FromValue
