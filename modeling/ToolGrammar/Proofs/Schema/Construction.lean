import ToolGrammar.Proofs.Schema.Agreement
import ToolGrammar.Proofs.Schema.Decoding

namespace ToolGrammar.Schema

open Json (Tree Value)

/-- The node is the parameter itself or lies within it, as a field or as an element. -/
inductive Parameter.Within : Parameter → Parameter → Prop
  | self (parameter : Parameter) : Within parameter parameter
  | field {note : Note} {fields : Fields} {parameter : Parameter} {field : String × Parameter}
      (inside : Within (.object note fields) parameter) (member : field ∈ fields) :
      Within field.2 parameter
  | element {note : Note} {element parameter : Parameter}
      (inside : Within (.array note element) parameter) : Within element parameter

/-- What emission relies on at one node. -/
def Parameter.WellFormed : Parameter → Prop
  | .object _ fields =>
      fields ≠ [] ∧ (fields.map (·.1)).Nodup ∧ ∀ name ∈ fields.map (·.1), FieldWord name
  | .float _ (some precision) => 1 ≤ precision.digits ∧ precision.digits ≤ 64
  | .enum _ values => values.values ≠ [] ∧ values.values.Nodup
  | .string _ | .boolean _ | .integer .. | .float _ none | .array .. => True

structure FunctionSpec.WellFormed (function : FunctionSpec) : Prop where
  name : FunctionWord function.name
  words : ∀ name ∈ function.parameters.map (·.1), FieldWord name
  distinct : (function.parameters.map (·.1)).Nodup
  nodes : ∀ field ∈ function.parameters, ∀ node : Parameter, node.Within field.2 → node.WellFormed

theorem Parameter.Valid.within {node parameter : Parameter} (valid : parameter.Valid)
    (within : node.Within parameter) : node.Valid := by
  induction within with
  | self => exact valid
  | field _ member ih => exact (fieldsValid_iff.mp (ih valid).2).2.2 _ member
  | element _ ih => exact ih valid

theorem Parameter.Valid.wellFormed {parameter : Parameter} (valid : parameter.Valid) :
    parameter.WellFormed := by
  cases parameter with
  | string | boolean | integer | array => trivial
  | float note precision =>
      cases precision with
      | none => trivial
      | some precision => exact ⟨precision.positive, precision.bounded⟩
  | object note fields =>
      obtain ⟨words, distinct, -⟩ := fieldsValid_iff.mp valid.2
      exact ⟨valid.1, distinct, words⟩
  | enum note values => exact ⟨values.nonempty, values.distinct⟩

theorem FunctionSpec.Valid.wellFormed {function : FunctionSpec} (valid : function.Valid) :
    function.WellFormed := by
  obtain ⟨words, distinct, parameters⟩ := fieldsValid_iff.mp valid.parameters
  exact ⟨isFunctionName_eq_true.mp valid.name, words, distinct, fun field member _ within =>
    ((parameters field member).within within).wellFormed⟩

theorem Parameter.valid_withNote {note : Note} {parameter : Parameter} :
    (parameter.withNote note).Valid ↔ parameter.Valid := by
  cases parameter <;> exact Iff.rfl

/-- The fields and the element that have been read are valid. -/
structure ParameterRecord.Valid (record : ParameterRecord) : Prop where
  fields : ∀ own, record.fields.join = some own → ∀ field ∈ own, field.2.Valid
  element : ∀ own, record.element.join = some own → own.Valid

theorem ParameterRecord.Valid.finish {record : ParameterRecord} (valid : record.Valid)
    {parameter : Parameter} (finished : record.finish = .ok parameter) : parameter.Valid := by
  obtain ⟨-, -, tells⟩ := ParameterRecord.finish_eq_ok.mp finished
  cases parameter with
  | string | boolean | integer | float | enum => trivial
  | object note fields =>
      obtain ⟨-, given, -, -, some, words, distinct⟩ := tells
      exact ⟨some, fieldsValid_iff.mpr ⟨words, distinct, valid.fields fields given⟩⟩
  | array note element => exact valid.element element tells.2.2.1

def FunctionRecord.Valid (record : FunctionRecord) : Prop :=
  ∀ own, record.parameters = some own → ∀ field ∈ own, field.2.Valid

theorem FunctionRecord.Valid.finish {record : FunctionRecord} (valid : record.Valid)
    {function : FunctionSpec} (finished : record.finish = .ok function) : function.Valid := by
  obtain ⟨-, -, given, word, words, distinct⟩ := FunctionRecord.finish_eq_ok.mp finished
  refine ⟨isFunctionName_eq_true.mpr word, fieldsValid_iff.mpr ⟨words, distinct, ?_⟩⟩
  rw [← given]
  cases held : record.parameters with
  | none => simp
  | some own => exact valid own held

namespace FromValue

/-- What the value decodes to is valid, as a parameter and as fields. -/
structure DecodesValid (value : Value) : Prop where
  parameter : ∀ own, FromValue.parameter value = .ok own → own.Valid
  fields : ∀ own, FromValue.fields value = .ok own → ∀ field ∈ own, field.2.Valid

theorem Put.join {α : Type} {name : String} {decode : Value → Decoded α} {member : String × Value}
    {before after : Option (Option α)} {holds : α → Prop}
    (put : Put name (optional decode) member before after)
    (fresh : ∀ content, decode member.2 = .ok content → holds content)
    (old : ∀ content, before.join = some content → holds content) :
    ∀ content, after.join = some content → holds content := by
  rcases put with ⟨-, content, decoded, rfl⟩ | ⟨-, rfl⟩
  · intro own held
    rcases optional_eq_ok.mp decoded with ⟨-, rfl⟩ | ⟨-, read, inner, rfl⟩
    · cases held
    · exact Option.some.inj held ▸ fresh read inner
  · exact old

theorem AttributeStep.valid {record next : ParameterRecord} {member : String × Value}
    (step : AttributeStep record member next) (below : DecodesValid member.2)
    (valid : record.Valid) : next.Valid := by
  obtain ⟨-, -, -, -, fields, element, -⟩ := step.puts
  exact ⟨Put.join fields below.fields valid.fields, Put.join element below.parameter valid.element⟩

theorem valid_of_decodesFields {members : Given}
    (below : ∀ member ∈ members, ∀ own, FromValue.parameter member.2 = .ok own → own.Valid)
    {own : Fields} (each : List.Forall₂ DecodesField own members) :
    ∀ field ∈ own, field.2.Valid := by
  induction each with
  | nil => simp
  | cons head _ ih =>
      obtain ⟨first, later⟩ := List.forall_mem_cons.mp below
      exact List.forall_mem_cons.mpr ⟨first _ head.2, ih later⟩

theorem decodesValid (value : Value) : DecodesValid value := by
  induction value using Value.induction with
  | step value ih =>
      constructor
      · intro own decoded
        obtain ⟨given, record, gives, reads, finished⟩ := parameter_eq_ok.mp decoded
        have empty : ParameterRecord.empty.Valid := ⟨nofun, nofun⟩
        have valid : record.Valid := reads.preserves (fun member found _ _ step =>
          step.valid (ih member.2 (gives.mem_parts member found))) empty
        exact valid.finish finished
      · intro own decoded
        cases value with
        | object members =>
            exact valid_of_decodesFields (fun member found =>
              (ih member.2 (List.mem_map_of_mem found)).parameter)
              (namedParameters_eq_ok.mp decoded)
        | _ => cases decoded

theorem MemberStep.valid {record next : FunctionRecord} {member : String × Value}
    (step : MemberStep record member next) (valid : record.Valid) : next.Valid := by
  rcases step.puts.2.2 with ⟨-, content, decoded, same⟩ | ⟨-, same⟩
  · intro own held
    obtain rfl := Option.some.inj (same.symm.trans held)
    exact (decodesValid member.2).fields content decoded
  · intro own held
    exact valid own (same ▸ held)

theorem valid_of_function {value : Value} {own : FunctionSpec}
    (decoded : function value = .ok own) : own.Valid := by
  obtain ⟨given, record, gives, reads, finished⟩ := function_eq_ok.mp decoded
  have empty : FunctionRecord.empty.Valid := nofun
  have valid : record.Valid := reads.preserves (fun _ _ _ _ step => step.valid) empty
  exact valid.finish finished

theorem valid_of_functionList {index : Nat} {items : List Value} {functions : List FunctionSpec}
    (decoded : functionList index items = .ok functions) : ∀ own ∈ functions, own.Valid := by
  induction items generalizing index functions with
  | nil =>
      obtain rfl := Except.ok.inj decoded
      simp
  | cons item rest ih =>
      simp only [functionList, ok_of_bind, Decoded.ok_of_under, ok_of_pure] at decoded
      obtain ⟨first, head, others, tail, rfl⟩ := decoded
      exact List.forall_mem_cons.mpr ⟨valid_of_function head, ih tail⟩

theorem valid_of_functions {value : Value} {functions : List FunctionSpec}
    (decoded : FromValue.functions value = .ok functions) : ∀ own ∈ functions, own.Valid := by
  cases value with
  | array items => exact valid_of_functionList decoded
  | _ => cases decoded

theorem valid_of_document {value : Value} {functions : List FunctionSpec}
    (decoded : document value = .ok functions) : ∀ own ∈ functions, own.Valid := by
  cases value with
  | array items => exact valid_of_functionList decoded
  | _ =>
      simp only [document, ok_of_bind, ok_of_pure] at decoded
      obtain ⟨function, decoded, rfl⟩ := decoded
      simpa using valid_of_function decoded

end FromValue

mutual

/-- Parameters that can be built. -/
inductive Parameter.Built : Parameter → Prop
  | string : Parameter.Built (.string .plain)
  | boolean : Parameter.Built (.boolean .plain)
  | integer : Parameter.Built (.integer .plain .integer)
  | float {digits : Option Nat} {parameter : Parameter}
      (checked : Parameter.checkedFloat digits = .ok parameter) : Parameter.Built parameter
  | object {fields : Fields} {parameter : Parameter}
      (built : ∀ field ∈ fields, Parameter.Built field.2)
      (checked : Parameter.checkedObject fields = .ok parameter) : Parameter.Built parameter
  | array {element : Parameter} (built : Parameter.Built element) :
      Parameter.Built (.array .plain element)
  | enum {values : List String} {parameter : Parameter}
      (checked : Parameter.checkedEnum values = .ok parameter) : Parameter.Built parameter
  | require {parameter : Parameter} (built : Parameter.Built parameter) (required : Bool) :
      Parameter.Built (parameter.require required)
  | optional {parameter : Parameter} (built : Parameter.Built parameter) :
      Parameter.Built parameter.optional
  | describe {parameter : Parameter} (built : Parameter.Built parameter) (text : String) :
      Parameter.Built (parameter.describe text)
  | ofText {text : String} {parameter : Parameter}
      (decoded : FromText.parameter (Tree.ofText text) = .ok parameter) : Parameter.Built parameter
  | ofValue {value : Value} {parameter : Parameter}
      (decoded : FromValue.parameter value = .ok parameter) : Parameter.Built parameter
  | within {node parameter : Parameter} (built : Parameter.Built parameter)
      (within : node.Within parameter) : Parameter.Built node
  | ofFunction {function : FunctionSpec} (built : FunctionSpec.Built function)
      {field : String × Parameter} (member : field ∈ function.parameters) :
      Parameter.Built field.2

/-- Functions that can be built. -/
inductive FunctionSpec.Built : FunctionSpec → Prop
  | checked {name description : String} {parameters : Fields} {function : FunctionSpec}
      (built : ∀ field ∈ parameters, Parameter.Built field.2)
      (checked : FunctionSpec.checked name description parameters = .ok function) :
      FunctionSpec.Built function
  | ofText {text : String} {function : FunctionSpec}
      (decoded : FromText.function (Tree.ofText text) = .ok function) : FunctionSpec.Built function
  | ofListText {text : String} {functions : List FunctionSpec} {function : FunctionSpec}
      (decoded : FromText.functions (Tree.ofText text) = .ok functions)
      (member : function ∈ functions) : FunctionSpec.Built function
  | ofValue {value : Value} {function : FunctionSpec}
      (decoded : FromValue.function value = .ok function) : FunctionSpec.Built function
  | ofListValue {value : Value} {functions : List FunctionSpec} {function : FunctionSpec}
      (decoded : FromValue.functions value = .ok functions) (member : function ∈ functions) :
      FunctionSpec.Built function
  | ofDocument {value : Value} {functions : List FunctionSpec} {function : FunctionSpec}
      (decoded : FromValue.document value = .ok functions) (member : function ∈ functions) :
      FunctionSpec.Built function

end

mutual

/-- Every way to build keeps what is built valid: the checked constructors check, notes do not
matter, and a text is decoded to nothing that its value is not decoded to. -/
theorem Parameter.Built.valid : {parameter : Parameter} → parameter.Built → parameter.Valid
  | _, .string | _, .boolean | _, .integer => trivial
  | _, .float checked => by
      obtain ⟨precision, -, rfl⟩ := Parameter.checkedFloat_eq_ok.mp checked
      trivial
  | _, .object built checked =>
      Parameter.valid_of_checkedObject checked fun field member => (built field member).valid
  | _, .array built => built.valid
  | _, .enum checked => by
      obtain ⟨values, -, rfl⟩ := Parameter.checkedEnum_eq_ok.mp checked
      trivial
  | _, .require built _ | _, .optional built | _, .describe built _ =>
      Parameter.valid_withNote.mpr built.valid
  | _, .ofText decoded =>
      (FromValue.decodesValid _).parameter _ ((parameter_alike _).forth decoded).2
  | _, .ofValue decoded => (FromValue.decodesValid _).parameter _ decoded
  | _, .within built within => built.valid.within within
  | _, .ofFunction built member => (fieldsValid_iff.mp built.valid.parameters).2.2 _ member

theorem FunctionSpec.Built.valid : {function : FunctionSpec} → function.Built → function.Valid
  | _, .checked built checked =>
      FunctionSpec.valid_of_checked checked fun field member => (built field member).valid
  | _, .ofText decoded => FromValue.valid_of_function ((function_alike _).forth decoded).2
  | _, .ofListText decoded member =>
      FromValue.valid_of_functions ((functions_alike _).forth decoded).2 _ member
  | _, .ofValue decoded => FromValue.valid_of_function decoded
  | _, .ofListValue decoded member => FromValue.valid_of_functions decoded _ member
  | _, .ofDocument decoded member => FromValue.valid_of_document decoded _ member

end

/-- Whatever is built is well formed at every node. -/
theorem built_wellFormed :
    (∀ parameter : Parameter, parameter.Built →
      ∀ node : Parameter, node.Within parameter → node.WellFormed) ∧
    ∀ function : FunctionSpec, function.Built → function.WellFormed :=
  ⟨fun _ built _ within => (built.valid.within within).wellFormed,
    fun _ built => built.valid.wellFormed⟩

def plottedLabels : EnumValues :=
  ⟨["near", "far"], by decide, by decide⟩

def plottedPrecision : Precision :=
  ⟨12, by decide, by decide⟩

def plottedFields : Fields :=
  [("x", .integer .plain .number), ("label-1", .enum ⟨true, some "Shown."⟩ plottedLabels)]

def plottedParameters : Fields :=
  [("at", .object ⟨false, none⟩ plottedFields),
   ("raw", .array .plain (.float .plain (some plottedPrecision)))]

/-- The one field is decoded from a text, the other is given a description. -/
theorem plottedPoint_built : (Parameter.object ⟨false, none⟩ plottedFields).Built := by
  have x : FromText.parameter (Tree.ofText "[\"number\"] ") =
      .ok (.integer .plain .number) := by cbv
  have label : Parameter.checkedEnum ["near", "far"] = .ok (.enum .plain plottedLabels) := rfl
  have point : Parameter.checkedObject plottedFields = .ok (.object .plain plottedFields) := rfl
  refine .optional (.object (fun field member => ?_) point)
  simp only [plottedFields, List.mem_cons, List.not_mem_nil, or_false] at member
  rcases member with rfl | rfl
  · exact .ofText x
  · exact .describe (.enum label) "Shown."

/-- The second parameter is decoded from a value. -/
theorem plotting_built : FunctionSpec.Built ⟨"plot", "", plottedParameters⟩ := by
  have raw : FromValue.parameter (.object [("type", .string "array"), ("element_type", .array
      [.string "float", .bool true, .null, .number (.integer 12)])]) =
      .ok (.array .plain (.float .plain (some plottedPrecision))) := rfl
  have plot : FunctionSpec.checked "plot" "" plottedParameters =
      .ok ⟨"plot", "", plottedParameters⟩ := rfl
  refine .checked (fun field member => ?_) plot
  simp only [plottedParameters, List.mem_cons, List.not_mem_nil, or_false] at member
  rcases member with rfl | rfl
  · exact plottedPoint_built
  · exact .ofValue raw

theorem built_wellFormed_plotting :
    (∀ node : Parameter, node.Within (.object ⟨false, none⟩ plottedFields) → node.WellFormed) ∧
      FunctionSpec.WellFormed ⟨"plot", "", plottedParameters⟩ :=
  ⟨built_wellFormed.1 _ plottedPoint_built, built_wellFormed.2 _ plotting_built⟩

end ToolGrammar.Schema
