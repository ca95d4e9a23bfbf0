import ToolGrammar.Proofs.Json.Denotation
import ToolGrammar.Proofs.Schema.Valid

/-!
Values that conform to parameters. Strings are of any type into which texts can be encoded, so both
values that are denoted and values that are to be written can conform.
-/
namespace ToolGrammar.Schema

open Json (Content digit wholeTexts numberTexts)

variable {σ : Type} (encode : String → σ)

mutual

/-- The value is of the declared type. A float of fixed precision has no sign and no exponent. -/
def Conforms : Parameter → Content σ → Prop
  | .string _ => fun value => ∃ text, value = .string text
  | .boolean _ => fun value => ∃ truth, value = .bool truth
  | .integer .. | .float _ none => fun value => ∃ text ∈ numberTexts, value = .number text
  | .float _ (some precision) => fun value =>
      ∃ text ∈ wholeTexts * {['.']} * digit ^ precision.digits, value = .number text
  | .enum _ values => fun value => ∃ listed ∈ values.values, value = .string (encode listed)
  | .array _ element => fun value =>
      ∃ items, value = .array items ∧ ∀ item ∈ items, Conforms element item
  | .object _ fields => fun value =>
      ∃ members, value = .object members ∧ FieldsConform fields members
termination_by structural parameter => parameter

/-- The members are those of the fields, one for each in their order. -/
def FieldsConform : Fields → List (σ × Content σ) → Prop
  | [] => fun members => members = []
  | (name, parameter) :: rest => fun members =>
      ∃ value others, members = (encode name, value) :: others ∧ Conforms parameter value ∧
        FieldsConform rest others
termination_by structural fields => fields

end

/-- The call of a function as a value: an object of its name and its parameters. -/
def callContent (name : String) (members : List (σ × Content σ)) : Content σ :=
  .object [(encode "function", .string (encode name)), (encode "params", .object members)]

theorem fieldsConform_of_forall₂ {fields : Fields} {members : List (σ × Content σ)}
    (each : List.Forall₂ (fun field member => member.1 = encode field.1 ∧
      Conforms encode field.2 member.2) fields members) : FieldsConform encode fields members := by
  induction each with
  | nil => exact rfl
  | @cons field member fields members first later ih =>
      obtain ⟨key, value⟩ := member
      obtain ⟨rfl, conforms⟩ := first
      exact ⟨value, members, rfl, conforms, ih⟩

end ToolGrammar.Schema
