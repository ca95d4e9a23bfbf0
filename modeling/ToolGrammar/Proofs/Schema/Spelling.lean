import ToolGrammar.Proofs.Json.Values
import ToolGrammar.Proofs.Schema.Valid

namespace ToolGrammar.Schema

open Json (Value)

/-- The members that a record gives. -/
abbrev Given := List (String × Value)

/-- The value gives these members for a record of these names. An array has to give the first of
the names at least. -/
inductive Gives (names : List String) : Value → Given → Prop
  | byName {given : Given} (known : ∀ member ∈ given, member.1 ∈ names) :
      Gives names (.object given) given
  | byPosition {items : List Value} (some : items ≠ []) (few : items.length ≤ names.length) :
      Gives names (.array items) (names.zip items)

theorem Gives.known {names : List String} {value : Value} {given : Given}
    (gives : Gives names value given) : ∀ member ∈ given, member.1 ∈ names := by
  cases gives with
  | byName known => exact known
  | byPosition => exact fun member found => (List.of_mem_zip found).1

theorem Gives.mem_parts {names : List String} {value : Value} {given : Given}
    (gives : Gives names value given) : ∀ member ∈ given, member.2 ∈ value.parts := by
  cases gives with
  | byName => exact fun member found => List.mem_map_of_mem found
  | byPosition => exact fun member found => (List.of_mem_zip found).2

theorem keys_eq_of_forall₂ {α β : Type} {fits : String × α → String × β → Prop}
    (names : ∀ {left right}, fits left right → left.1 = right.1) {lefts : List (String × α)}
    {rights : List (String × β)} (each : List.Forall₂ fits lefts rights) :
    lefts.map (·.1) = rights.map (·.1) := by
  induction each with
  | nil => rfl
  | cons head _ ih => rw [List.map_cons, List.map_cons, names head, ih]

theorem keys_zip_sublist (names : List String) (items : List Value) :
    ((names.zip items).map (·.1)).Sublist names := by
  induction names generalizing items with
  | nil => simp
  | cons name names ih =>
      cases items with
      | nil => simp
      | cons item items => exact (ih items).cons_cons name

/-- No name is given twice: positions have names of their own, and an object repeats none. -/
theorem Gives.nodup {names : List String} {value : Value} {given : Given}
    (gives : Gives names value given) (distinct : value.Distinct) (own : names.Nodup) :
    (given.map (·.1)).Nodup := by
  cases gives with
  | byName => exact distinct.1
  | byPosition => exact own.sublist (keys_zip_sublist names _)

/-- The member is absent or null. -/
def Lacks (given : Given) (name : String) : Prop :=
  ∀ value, (name, value) ∈ given → value = .null

def LacksAll (given : Given) (names : List String) : Prop :=
  ∀ name ∈ names, Lacks given name

def parameterMembers : List String :=
  ["type", "required", "description", "precision", "structure", "element_type", "enum"]

/-- A kind is its name, or an object that holds nothing but a null under that name. -/
def SpellsKind (kind : Kind) (value : Value) : Prop :=
  value = .string kind.name ∨ value = .object [(kind.name, .null)]

/-- What a parameter of any kind says: its kind, whether it is required, which it is unless told
otherwise, and what its description is, if it has one. -/
structure Heads (given : Given) (kind : Kind) (note : Note) : Prop where
  kind : ∃ value, ("type", value) ∈ given ∧ SpellsKind kind value
  required : ("required", .bool note.required) ∈ given ∨
    (∀ value, ("required", value) ∉ given) ∧ note.required = true
  description : (∃ text, ("description", .string text) ∈ given ∧ note.description = some text) ∨
    Lacks given "description" ∧ note.description = none

/-- The value is a record of the parameter's kind and note, and its other members are as `holds`
asks. -/
def SpellsAs (parameter : Parameter) (holds : Given → Prop) (value : Value) : Prop :=
  ∃ given, Gives parameterMembers value given ∧
    Heads given parameter.declaredKind parameter.note ∧ holds given

mutual

/-- Of the members that belong to one kind of parameters each, those of the parameter's own kind are
there, and those of the others are absent or null. -/
def Holds : Parameter → Given → Prop
  | .string _ | .boolean _ | .integer .. => fun given =>
      LacksAll given ["precision", "structure", "element_type", "enum"]
  | .float _ none => fun given =>
      LacksAll given ["precision", "structure", "element_type", "enum"]
  | .float _ (some precision) => fun given =>
      ("precision", .number (.integer precision.digits)) ∈ given ∧
        LacksAll given ["structure", "element_type", "enum"]
  | .object _ fields => fun given =>
      (fields ≠ [] ∧ ∃ members, ("structure", .object members) ∈ given ∧
        SpellsFields fields members) ∧ LacksAll given ["precision", "element_type", "enum"]
  | .array _ element => fun given =>
      (∃ value, ("element_type", value) ∈ given ∧ SpellsAs element (Holds element) value) ∧
        LacksAll given ["precision", "structure", "enum"]
  | .enum _ values => fun given =>
      ("enum", .array (values.values.map .string)) ∈ given ∧
        LacksAll given ["precision", "structure", "element_type"]
termination_by structural parameter => parameter

/-- The members are the fields in their order, each under its name. -/
def SpellsFields : Fields → List (String × Value) → Prop
  | [] => fun members => members = []
  | (name, parameter) :: rest => fun members =>
      ∃ value others, members = (name, value) :: others ∧ FieldWord name ∧
        SpellsAs parameter (Holds parameter) value ∧ SpellsFields rest others
termination_by structural fields => fields

end

def Spells (parameter : Parameter) (value : Value) : Prop :=
  SpellsAs parameter (Holds parameter) value

theorem Spells.ne_null {parameter : Parameter} {value : Value} (spells : Spells parameter value) :
    value ≠ .null := by
  obtain ⟨given, gives, -⟩ := spells
  cases gives <;> simp

/-- The member has the name of the field and spells its parameter. -/
def SpellsField (field : String × Parameter) (member : String × Value) : Prop :=
  field.1 = member.1 ∧ Spells field.2 member.2

theorem spellsFields_iff {fields : Fields} {members : List (String × Value)} :
    SpellsFields fields members ↔
      List.Forall₂ SpellsField fields members ∧ ∀ name ∈ fields.map (·.1), FieldWord name := by
  induction fields generalizing members with
  | nil => simp [SpellsFields]
  | cons field rest ih =>
      obtain ⟨name, parameter⟩ := field
      rw [SpellsFields, List.forall₂_cons_left_iff, List.map_cons, List.forall_mem_cons]
      constructor
      · rintro ⟨value, others, rfl, word, spells, later⟩
        obtain ⟨each, words⟩ := ih.mp later
        exact ⟨⟨(name, value), others, ⟨rfl, spells⟩, each, rfl⟩, word, words⟩
      · rintro ⟨⟨⟨key, value⟩, others, ⟨rfl, spells⟩, each, rfl⟩, word, words⟩
        exact ⟨value, others, rfl, word, spells, ih.mpr ⟨each, words⟩⟩

def functionMembers : List String :=
  ["name", "description", "parameters"]

/-- The value is a function record: a name and, unless they are empty, a description and
parameters. Neither of the two is ever null. -/
structure SpellsFunctionIn (given : Given) (function : FunctionSpec) : Prop where
  name : ("name", .string function.name) ∈ given
  word : FunctionWord function.name
  description : ("description", .string function.description) ∈ given ∨
    (∀ value, ("description", value) ∉ given) ∧ function.description = ""
  parameters : (∃ members, ("parameters", .object members) ∈ given ∧
      SpellsFields function.parameters members) ∨
    (∀ value, ("parameters", value) ∉ given) ∧ function.parameters = []

def SpellsFunction (function : FunctionSpec) (value : Value) : Prop :=
  ∃ given, Gives functionMembers value given ∧ SpellsFunctionIn given function

/-- A document is an array of function records, or else a single one. -/
inductive SpellsDocument : List FunctionSpec → Value → Prop
  | list {functions : List FunctionSpec} {items : List Value}
      (each : List.Forall₂ SpellsFunction functions items) :
      SpellsDocument functions (.array items)
  | single {function : FunctionSpec} {value : Value} (other : ∀ items, value ≠ .array items)
      (spells : SpellsFunction function value) : SpellsDocument [function] value

end ToolGrammar.Schema
