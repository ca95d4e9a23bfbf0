import Mathlib
import ToolGrammar.Schema.Parameter

namespace ToolGrammar.Schema

mutual

def Parameter.Valid : Parameter → Prop
  | .object _ fields => fields ≠ [] ∧ FieldsValid fields
  | .array _ element => element.Valid
  | .string _ | .boolean _ | .integer .. | .float .. | .enum .. => True
termination_by structural parameter => parameter

def FieldsValid : Fields → Prop
  | [] => True
  | (name, parameter) :: rest =>
      isFieldName name = true ∧ name ∉ rest.map (·.1) ∧ parameter.Valid ∧ FieldsValid rest
termination_by structural fields => fields

end

structure FunctionSpec.Valid (function : FunctionSpec) : Prop where
  name : isFunctionName function.name = true
  parameters : FieldsValid function.parameters

mutual

def Parameter.decideValid : (parameter : Parameter) → Decidable parameter.Valid
  | .object _ fields =>
      haveI := decideFieldsValid fields
      inferInstanceAs (Decidable (fields ≠ [] ∧ FieldsValid fields))
  | .array _ element => element.decideValid
  | .string _ | .boolean _ | .integer .. | .float .. | .enum .. => isTrue trivial
termination_by structural parameter => parameter

def decideFieldsValid : (fields : Fields) → Decidable (FieldsValid fields)
  | [] => isTrue trivial
  | (name, parameter) :: rest =>
      haveI := parameter.decideValid
      haveI := decideFieldsValid rest
      inferInstanceAs (Decidable (isFieldName name = true ∧ name ∉ rest.map (·.1) ∧
        parameter.Valid ∧ FieldsValid rest))
termination_by structural fields => fields

end

instance (fields : Fields) : Decidable (FieldsValid fields) :=
  decideFieldsValid fields

instance (function : FunctionSpec) : Decidable function.Valid :=
  decidable_of_iff (isFunctionName function.name = true ∧ FieldsValid function.parameters)
    ⟨fun valid => ⟨valid.1, valid.2⟩, fun valid => ⟨valid.name, valid.parameters⟩⟩

/-- An ASCII letter, an ASCII digit or an underscore. -/
def WordLetter (c : Char) : Prop :=
  ('A' ≤ c ∧ c ≤ 'Z') ∨ ('a' ≤ c ∧ c ≤ 'z') ∨ ('0' ≤ c ∧ c ≤ '9') ∨ c = '_'

/-- One word letter or more. -/
def FunctionWord (name : String) : Prop :=
  name.toList ≠ [] ∧ ∀ c ∈ name.toList, WordLetter c

/-- One word letter or hyphen, or more. -/
def FieldWord (name : String) : Prop :=
  name.toList ≠ [] ∧ ∀ c ∈ name.toList, WordLetter c ∨ c = '-'

theorem isWordChar_iff {c : Char} : isWordChar c = true ↔ WordLetter c := by
  simp only [isWordChar, Char.isAlphanum, Char.isAlpha, Char.isUpper, Char.isLower, Char.isDigit,
    Bool.or_eq_true, Bool.and_eq_true, decide_eq_true_eq, beq_iff_eq, or_assoc]
  rfl

theorem isFunctionName_eq_true {name : String} :
    isFunctionName name = true ↔ FunctionWord name := by
  simp [isFunctionName, FunctionWord, isWordChar_iff]

theorem isFieldName_eq_true {name : String} : isFieldName name = true ↔ FieldWord name := by
  simp [isFieldName, FieldWord, isWordChar_iff]

theorem firstRepeat?_append {seen before : List String} (rest : List String)
    (distinct : before.Nodup) (unseen : ∀ value ∈ before, value ∉ seen) :
    firstRepeat? seen (before ++ rest) = firstRepeat? (before.reverse ++ seen) rest := by
  induction before generalizing seen with
  | nil => rfl
  | cons value before ih =>
      obtain ⟨different, distinct⟩ := List.nodup_cons.mp distinct
      have fresh : value ∉ seen := unseen value List.mem_cons_self
      have unseenNow : ∀ other ∈ before, other ∉ value :: seen := by
        intro other member old
        rcases List.mem_cons.mp old with rfl | old
        · exact different member
        · exact unseen other (List.mem_cons_of_mem value member) old
      rw [List.cons_append, firstRepeat?, if_neg fresh, ih distinct unseenNow,
        List.reverse_cons, List.append_assoc]
      rfl

theorem firstRepeat?_of_nodup {values : List String} (distinct : values.Nodup) :
    firstRepeat? [] values = none := by
  simpa [firstRepeat?] using firstRepeat?_append [] distinct (by simp)

theorem firstRepeat?_of_repeated {before : List String} {value : String} (after : List String)
    (distinct : before.Nodup) (repeated : value ∈ before) :
    firstRepeat? [] (before ++ value :: after) = some value := by
  rw [firstRepeat?_append (value :: after) distinct (by simp)]
  simp [firstRepeat?, repeated]

theorem nodup_or_repeated (values : List String) :
    values.Nodup ∨ ∃ before value after,
      values = before ++ value :: after ∧ before.Nodup ∧ value ∈ before := by
  suffices ∀ front : List String, front.Nodup → (front ++ values).Nodup ∨
      ∃ before value after, front ++ values = before ++ value :: after ∧ before.Nodup ∧
        value ∈ before from this [] List.nodup_nil
  induction values with
  | nil => exact fun front distinct => .inl (by simpa using distinct)
  | cons value rest ih =>
      intro front distinct
      by_cases repeated : value ∈ front
      · exact .inr ⟨front, value, rest, rfl, distinct, repeated⟩
      · have apart : ∀ other ∈ front, other ≠ value :=
          fun other member same => repeated (same ▸ member)
        have longer : (front ++ [value]).Nodup := by
          simpa [List.nodup_append, distinct] using apart
        simpa using ih (front ++ [value]) longer

theorem nodup_names_of_fieldsValid {fields : Fields} (valid : FieldsValid fields) :
    (fields.map (·.1)).Nodup := by
  induction fields with
  | nil => exact List.nodup_nil
  | cons field rest ih =>
      obtain ⟨_, apart, _, later⟩ := valid
      exact List.nodup_cons.mpr ⟨apart, ih later⟩

theorem isFieldName_of_mem {fields : Fields} (valid : FieldsValid fields) :
    ∀ name ∈ fields.map (·.1), isFieldName name = true := by
  induction fields with
  | nil => simp
  | cons field rest ih =>
      obtain ⟨wellFormed, _, _, later⟩ := valid
      exact List.forall_mem_cons.mpr ⟨wellFormed, ih later⟩

theorem fieldsValid_iff {fields : Fields} :
    FieldsValid fields ↔ (∀ name ∈ fields.map (·.1), FieldWord name) ∧
      (fields.map (·.1)).Nodup ∧ ∀ field ∈ fields, field.2.Valid := by
  induction fields with
  | nil => simp [FieldsValid]
  | cons field rest ih =>
      rw [FieldsValid, ih, isFieldName_eq_true, List.map_cons, List.forall_mem_cons,
        List.nodup_cons, List.forall_mem_cons]
      constructor
      · rintro ⟨word, apart, valid, words, distinct, others⟩
        exact ⟨⟨word, words⟩, ⟨apart, distinct⟩, valid, others⟩
      · rintro ⟨⟨word, words⟩, ⟨apart, distinct⟩, valid, others⟩
        exact ⟨word, apart, valid, words, distinct, others⟩

/-- The check of fields finds no defect just when their names are valid, distinct, and none of those
seen before. -/
theorem fieldsValid_of_fieldDefect?_eq_none {seen : List String} {fields : Fields}
    (sound : fieldDefect? seen fields = none)
    (parameters : ∀ field ∈ fields, field.2.Valid) :
    FieldsValid fields ∧ ∀ field ∈ fields, field.1 ∉ seen := by
  induction fields generalizing seen with
  | nil => simp [FieldsValid]
  | cons field rest ih =>
      obtain ⟨name, parameter⟩ := field
      simp only [fieldDefect?] at sound
      split at sound
      · cases sound
      · rename_i wellFormed
        split at sound
        · cases sound
        · rename_i unseen
          obtain ⟨valid, fresh⟩ := ih sound fun field member => parameters field (by simp [member])
          have apart : name ∉ rest.map (·.1) := by
            intro repeated
            obtain ⟨field, member, same⟩ := List.mem_map.mp repeated
            exact fresh field member (by simp [same])
          refine ⟨⟨by simpa using wellFormed, apart, parameters _ List.mem_cons_self, valid⟩, ?_⟩
          intro field member
          rcases List.mem_cons.mp member with rfl | later
          · exact unseen
          · exact fun earlier => fresh field later (List.mem_cons_of_mem _ earlier)

theorem fieldsValid_of_checkedFields {fields checked : Fields}
    (sound : checkedFields fields = .ok checked) (parameters : ∀ field ∈ fields, field.2.Valid) :
    FieldsValid checked := by
  unfold checkedFields at sound
  split at sound
  · cases sound
  · rename_i none
    cases sound
    exact (fieldsValid_of_fieldDefect?_eq_none none parameters).1

/-- An object that was checked is valid if its fields are. -/
theorem Parameter.valid_of_checkedObject {fields : Fields} {parameter : Parameter}
    (sound : checkedObject fields = .ok parameter) (parameters : ∀ field ∈ fields, field.2.Valid) :
    parameter.Valid := by
  unfold checkedObject at sound
  cases checked : checkedFields fields with
  | error defect => simp [checked, bind, Except.bind] at sound
  | ok fields =>
      simp only [checked, bind, Except.bind] at sound
      split at sound
      · simp [throw, throwThe, MonadExceptOf.throw] at sound
      · rename_i some
        cases sound
        exact ⟨by simpa using some, fieldsValid_of_checkedFields checked parameters⟩

/-- A function that was checked is valid if its parameters are. -/
theorem FunctionSpec.valid_of_checked {name description : String} {parameters : Fields}
    {function : FunctionSpec} (sound : checked name description parameters = .ok function)
    (each : ∀ field ∈ parameters, field.2.Valid) : function.Valid := by
  unfold checked at sound
  split at sound
  · simp [throw, throwThe, MonadExceptOf.throw, bind, Except.bind] at sound
  · rename_i named
    cases checked : checkedFields parameters with
    | error defect => simp [checked, bind, Except.bind] at sound
    | ok fields =>
        simp only [checked, bind, Except.bind, pure, Except.pure] at sound
        cases sound
        exact ⟨by simpa using named, fieldsValid_of_checkedFields checked each⟩

end ToolGrammar.Schema
