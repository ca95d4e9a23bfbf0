import ToolGrammar.Schema.Parameter
import ToolGrammar.Text.Lowercase

namespace ToolGrammar.Schema

def Solid (name : String) : Prop :=
  '_' ∉ name.toList ∧ '-' ∉ name.toList

instance (name : String) : Decidable (Solid name) :=
  inferInstanceAs (Decidable ('_' ∉ name.toList ∧ '-' ∉ name.toList))

/-- The name differs from others in more than the case of letters. -/
def Distinguished (name : String) (others : List String) : Prop :=
  Text.lowercase name ∉ others.map Text.lowercase

instance (name : String) (others : List String) : Decidable (Distinguished name others) :=
  inferInstanceAs (Decidable (Text.lowercase name ∉ others.map Text.lowercase))

mutual

def Parameter.Separate : Parameter → Prop
  | .object _ fields => FieldsSeparate fields
  | .array _ element => element.Separate
  | .string _ | .boolean _ | .integer .. | .float .. | .enum .. => True
termination_by structural parameter => parameter

def FieldsSeparate : Fields → Prop
  | [] => True
  | (name, parameter) :: rest =>
      Solid name ∧ Distinguished name (rest.map (·.1)) ∧ parameter.Separate ∧ FieldsSeparate rest
termination_by structural fields => fields

end

mutual

def Parameter.decideSeparate : (parameter : Parameter) → Decidable parameter.Separate
  | .object _ fields => decideFieldsSeparate fields
  | .array _ element => element.decideSeparate
  | .string _ | .boolean _ | .integer .. | .float .. | .enum .. => isTrue trivial
termination_by structural parameter => parameter

def decideFieldsSeparate : (fields : Fields) → Decidable (FieldsSeparate fields)
  | [] => isTrue trivial
  | (name, parameter) :: rest =>
      haveI := parameter.decideSeparate
      haveI := decideFieldsSeparate rest
      inferInstanceAs (Decidable (Solid name ∧ Distinguished name (rest.map (·.1)) ∧
        parameter.Separate ∧ FieldsSeparate rest))
termination_by structural fields => fields

end

instance (fields : Fields) : Decidable (FieldsSeparate fields) :=
  decideFieldsSeparate fields

theorem solid_of_mem {fields : Fields} (separate : FieldsSeparate fields) :
    ∀ name ∈ fields.map (·.1), Solid name := by
  induction fields with
  | nil => simp
  | cons field rest ih =>
      obtain ⟨solid, _, _, later⟩ := separate
      exact List.forall_mem_cons.mpr ⟨solid, ih later⟩

mutual

/-- How many objects, arrays and enumerations a parameter is made of. -/
def Parameter.composites : Parameter → Nat
  | .object _ fields => fieldComposites fields + 1
  | .array _ element => element.composites + 1
  | .enum .. => 1
  | .string _ | .boolean _ | .integer .. | .float .. => 0
termination_by structural parameter => parameter

def fieldComposites : Fields → Nat
  | [] => 0
  | (_, parameter) :: rest => parameter.composites + fieldComposites rest
termination_by structural fields => fields

end

end ToolGrammar.Schema
