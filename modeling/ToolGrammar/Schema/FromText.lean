import ToolGrammar.Json.Tree
import ToolGrammar.Schema.Record

/-!
Decoding schemas while their text is read. The decoder walks the located tree in text order, so of
a wrong schema and a later fault of the text the schema is refused. A refusal that arises from a
record as a whole takes the position at which the reader stands once the container around it has
been left.
-/
namespace ToolGrammar.Schema.FromText

open Json (Tree Items Members Scalar Position Fault)

def found : Scalar → Found
  | .null => .null
  | .bool value => .bool value
  | .number value => .number value
  | .string value => .string value

/-- Refuses a value of the wrong type: a scalar after it has been read, a container before. -/
def mismatch {α : Type} (tree : Tree) (expected : Expected) : Decoded α :=
  match tree with
  | .scalar _ stop value => .error (.located (.mismatch (found value) expected) stop)
  | .array start _ => .error (.located (.mismatch .array expected) start)
  | .object start _ => .error (.located (.mismatch .object expected) start)
  | .broken _ fault => .error (.ofFault fault)

def string : Tree → Decoded String
  | .scalar _ _ (.string text) => .ok text
  | other => mismatch other .string

def bool : Tree → Decoded Bool
  | .scalar _ _ (.bool value) => .ok value
  | other => mismatch other .bool

def count : Tree → Decoded Nat
  | .scalar _ stop (.number value) => (countOf value).mapError (.located · stop)
  | other => mismatch other .count

/-- Nothing for `null`, else what the decoder makes of the value. -/
def optional {α : Type} (decode : Tree → Decoded α) : Tree → Decoded (Option α)
  | .scalar _ _ .null => .ok none
  | tree => (decode tree).map some

/-- Where the reader stands after it has left an array early: past the closing bracket, or past a
comma and the white space after it. -/
def Items.leave : Items → Position
  | .close stop => stop
  | .item value _ => value.start
  | .broken here _ => here

/-- Where the reader stands after it has left an object early: past the closing brace, but before a
comma. -/
def Members.leave : Members → Position
  | .close stop => stop
  | .member before .. | .bare before .. => before
  | .broken here _ => here

/-- The refusal of an object that no further member can be read from. -/
def keyRefusal (fault : Fault) : Refusal :=
  if fault.cause = .nestedTooDeeply then .ofFault fault
  else (Refusal.ofFault fault).under .unknown

def stringItems (index : Nat) : Items → Decoded (List String)
  | .close _ => .ok []
  | .broken _ fault => .error (.ofFault fault)
  | .item value rest => do
      let text ← Decoded.under (.item index) (string value)
      return text :: (← stringItems (index + 1) rest)

def strings : Tree → Decoded (List String)
  | .array _ items => stringItems 0 items
  | other => mismatch other .array

def kindOfName (name : String) (stop : Position) : Decoded Kind :=
  match Kind.ofName? name with
  | some kind => .ok kind
  | none => .error (.located (.unknownKind name) stop)

/-- What must follow the one member of a kind given as an object. -/
def kindEnd (kind : Kind) : Members → Decoded Kind
  | .close _ => .ok kind
  | .broken here fault =>
      .error (.located
        (.malformed (if fault.cause = .endInObject then .endInObject else .expectedValue)) here)
  | other => .error (.located (.malformed .expectedValue) (Members.leave other))

def kindMembers : Members → Decoded Kind
  | .close stop => .error (.located (.malformed .expectedValue) stop)
  | .broken _ fault => .error (.ofFault fault)
  | .bare _ name keyStop _ fault => do
      let _ ← kindOfName name keyStop
      throw (.ofFault fault)
  | .member _ name keyStop _ value rest => do
      let kind ← kindOfName name keyStop
      match value with
      | .scalar _ _ .null => kindEnd kind rest
      | other => Decoded.under (.member name) (mismatch other .unit)

/-- A kind is its name, or an object whose one member has that name and the value `null`. Anything
else is refused at its first byte. -/
def kind : Tree → Decoded Kind
  | .scalar _ stop (.string name) => kindOfName name stop
  | .object _ members => kindMembers members
  | .broken start fault =>
      if fault.cause.inString || fault = ⟨.endInValue, start⟩ then .error (.ofFault fault)
      else .error (.located (.malformed .expectedValue) (Tree.broken start fault).peek)
  | other => .error (.located (.malformed .expectedValue) other.peek)

/-- The record with one more member, whose value as fields or as a parameter is decoded only
where the attribute calls for it. -/
def withAttribute (record : ParameterRecord) (property : Attribute) (value : Tree)
    (fields : Unit → Decoded Fields) (parameter : Unit → Decoded Parameter) :
    Decoded ParameterRecord :=
  match property with
  | .kind => return { record with kind := some (← kind value) }
  | .required => return { record with required := some (← bool value) }
  | .description => return { record with description := some (← optional string value) }
  | .precision => return { record with precision := some (← optional count value) }
  | .fields => return { record with fields := some (← optional (fun _ => fields ()) value) }
  | .element => return { record with element := some (← optional (fun _ => parameter ()) value) }
  | .values => return { record with values := some (← optional strings value) }

/-- What may follow once every member of a record has been given by position. -/
def recordEnd {α : Type} (result : α) : Items → Decoded α
  | .close _ => .ok result
  | .item value _ => .error (.located (.malformed .trailingCharacters) value.peek)
  | .broken _ fault =>
      let cause :=
        match fault.cause with
        | .trailingComma => Fault.Cause.trailingComma
        | .endInArray => .endInArray
        | _ => .trailingCharacters
      .error (.located (.malformed cause) fault.position)

mutual

def parameter : Tree → Decoded Parameter
  | .object _ members => do
      let (record, stop) ← membersOf .empty members
      (record.finish).mapError fun refusal =>
        match refusal.cause with
        | .missingMember _ => refusal.settle stop
        | _ => refusal
  | .array _ items => do (← itemsOf 0 .empty Attribute.all items).finish
  | other => mismatch other (.record .parameter)
termination_by structural tree => tree

/-- Reads the members of a parameter record in their order, up to the position after it. -/
def membersOf (record : ParameterRecord) : Members → Decoded (ParameterRecord × Position)
  | .close stop => .ok (record, stop)
  | .broken _ fault => .error (keyRefusal fault)
  | .bare _ name _ here fault =>
      match Attribute.ofName? name with
      | none =>
          .error (Refusal.located (.unknownMember .parameter name) here |>.under (.member name))
      | some property =>
          if record.has property then .error (.located (.repeatedMember name) here)
          else .error (.ofFault fault)
  | .member _ name _ colon value rest =>
      match Attribute.ofName? name with
      | none =>
          .error (Refusal.located (.unknownMember .parameter name) colon |>.under (.member name))
      | some property =>
          if record.has property then .error (.located (.repeatedMember name) colon)
          else do
            let record ← Decoded.under (.member name)
              (Decoded.settle (Members.leave rest)
                (withAttribute record property value (fun _ => fields value)
                  (fun _ => parameter value)))
            membersOf record rest
termination_by structural members => members

/-- Reads the items of a parameter record against the members still to come. -/
def itemsOf (index : Nat) (record : ParameterRecord) (properties : List Attribute) :
    Items → Decoded ParameterRecord
  | .close stop =>
      if index = 0 then .error (.located (.emptyRecord .parameter) stop) else .ok record
  | .broken here fault =>
      if properties.isEmpty then recordEnd record (.broken here fault) else .error (.ofFault fault)
  | .item value rest =>
      match properties with
      | [] => recordEnd record (.item value rest)
      | property :: properties => do
          let record ← Decoded.under (.item index)
            (Decoded.settle (Items.leave rest)
              (withAttribute record property value (fun _ => fields value)
                (fun _ => parameter value)))
          itemsOf (index + 1) record properties rest
termination_by structural items => items

/-- Fields in the order of the members; a repeated name keeps its place and takes the later
value. -/
def fields : Tree → Decoded Fields
  | .object _ members => (namedParameters members).map Keyed.settle
  | other => mismatch other .object
termination_by structural tree => tree

def namedParameters : Members → Decoded Fields
  | .close _ => .ok []
  | .broken _ fault => .error (keyRefusal fault)
  | .bare _ _ _ _ fault => .error (.ofFault fault)
  | .member _ name _ _ value rest => do
      let first ← Decoded.under (.member name)
        (Decoded.settle (Members.leave rest) (parameter value))
      return (name, first) :: (← namedParameters rest)
termination_by structural members => members

end

def withMember (record : FunctionRecord) (member : FunctionMember) (value : Tree) :
    Decoded FunctionRecord :=
  match member with
  | .name => return { record with name := some (← string value) }
  | .description => return { record with description := some (← string value) }
  | .parameters => return { record with parameters := some (← fields value) }

def functionMembers (record : FunctionRecord) : Members → Decoded (FunctionRecord × Position)
  | .close stop => .ok (record, stop)
  | .broken _ fault => .error (keyRefusal fault)
  | .bare _ name _ here fault =>
      match FunctionMember.ofText? name with
      | none =>
          .error (Refusal.located (.unknownMember .function name) here |>.under (.member name))
      | some member =>
          if record.has member then .error (.located (.repeatedMember name) here)
          else .error (.ofFault fault)
  | .member _ name _ colon value rest =>
      match FunctionMember.ofText? name with
      | none =>
          .error (Refusal.located (.unknownMember .function name) colon |>.under (.member name))
      | some member =>
          if record.has member then .error (.located (.repeatedMember name) colon)
          else do
            let record ← Decoded.under (.member name) (withMember record member value)
            functionMembers record rest

def functionItems (index : Nat) (record : FunctionRecord) (members : List FunctionMember) :
    Items → Decoded FunctionRecord
  | .close stop =>
      if index = 0 then .error (.located (.emptyRecord .function) stop) else .ok record
  | .broken here fault =>
      if members.isEmpty then recordEnd record (.broken here fault) else .error (.ofFault fault)
  | .item value rest =>
      match members with
      | [] => recordEnd record (.item value rest)
      | member :: members => do
          let record ← Decoded.under (.item index) (withMember record member value)
          functionItems (index + 1) record members rest

def function : Tree → Decoded FunctionSpec
  | .object _ members => do
      let (record, stop) ← functionMembers .empty members
      (record.finish).mapError fun refusal =>
        match refusal.cause with
        | .missingMember _ => refusal.settle stop
        | _ => refusal
  | .array _ items => do (← functionItems 0 .empty FunctionMember.all items).finish
  | other => mismatch other (.record .function)

def functionList (index : Nat) : Items → Decoded (List FunctionSpec)
  | .close _ => .ok []
  | .broken _ fault => .error (.ofFault fault)
  | .item value rest => do
      let first ← Decoded.under (.item index) (Decoded.settle (Items.leave rest) (function value))
      return first :: (← functionList (index + 1) rest)

def functions : Tree → Decoded (List FunctionSpec)
  | .array _ items => functionList 0 items
  | other => mismatch other .array

end ToolGrammar.Schema.FromText
