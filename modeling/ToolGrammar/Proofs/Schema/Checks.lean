import ToolGrammar.Proofs.Schema.Success
import ToolGrammar.Proofs.Schema.Valid

namespace ToolGrammar.Schema

theorem Precision.checked_eq_ok {digits : Nat} {precision : Precision} :
    Precision.checked digits = .ok precision ↔ precision.digits = digits := by
  constructor
  · intro accepted
    simp only [Precision.checked] at accepted
    split at accepted
    · split at accepted
      · cases accepted
        rfl
      · cases accepted
    · cases accepted
  · rintro rfl
    simp [Precision.checked, precision.bounded, precision.positive]

theorem EnumValues.checked_eq_ok {values : List String} {checked : EnumValues} :
    EnumValues.checked values = .ok checked ↔ checked.values = values := by
  constructor
  · intro accepted
    simp only [EnumValues.checked] at accepted
    split at accepted
    · cases accepted
    · split at accepted
      · cases accepted
        rfl
      · cases accepted
  · rintro rfl
    unfold EnumValues.checked
    split
    · rename_i value repeated
      rw [firstRepeat?_of_nodup checked.distinct] at repeated
      cases repeated
    · rw [dif_pos checked.nonempty]

theorem fieldDefect?_eq_none {seen : List String} {fields : Fields} :
    fieldDefect? seen fields = none ↔
      (∀ name ∈ fields.map (·.1), FieldWord name ∧ name ∉ seen) ∧ (fields.map (·.1)).Nodup := by
  induction fields generalizing seen with
  | nil => simp [fieldDefect?]
  | cons field rest ih =>
      obtain ⟨name, parameter⟩ := field
      rw [List.map_cons, List.forall_mem_cons, List.nodup_cons, ← isFieldName_eq_true]
      by_cases word : isFieldName name = true
      · by_cases known : name ∈ seen
        · simp [fieldDefect?, word, known]
        · have fresh : (∀ other ∈ rest.map (·.1), FieldWord other ∧ other ∉ name :: seen) ↔
              (∀ other ∈ rest.map (·.1), FieldWord other ∧ other ∉ seen) ∧
                name ∉ rest.map (·.1) := by
            constructor
            · exact fun each => ⟨fun other later => ⟨(each other later).1, fun earlier =>
                (each other later).2 (List.mem_cons_of_mem _ earlier)⟩,
                fun again => (each name again).2 List.mem_cons_self⟩
            · rintro ⟨each, apart⟩ other later
              have different : other ≠ name := fun same => apart (same ▸ later)
              simpa [different] using each other later
          rw [fieldDefect?, if_neg (by simp [word]), if_neg known, ih, fresh]
          simp only [word, known, not_false_eq_true, and_self, true_and, and_assoc]
      · simp [fieldDefect?, word]

theorem checkedFields_eq_ok {fields checked : Fields} :
    checkedFields fields = .ok checked ↔ checked = fields ∧
      (∀ name ∈ fields.map (·.1), FieldWord name) ∧ (fields.map (·.1)).Nodup := by
  have sound := @fieldDefect?_eq_none [] fields
  simp only [List.not_mem_nil, not_false_eq_true, and_true] at sound
  rw [← sound, checkedFields]
  cases fieldDefect? [] fields <;> simp [@eq_comm _ checked]

theorem Parameter.checkedFloat_eq_ok {digits : Option Nat} {parameter : Parameter} :
    Parameter.checkedFloat digits = .ok parameter ↔ ∃ precision : Option Precision,
      precision.map (·.digits) = digits ∧ parameter = .float .plain precision := by
  cases digits with
  | none => simp [Parameter.checkedFloat, @eq_comm _ parameter]
  | some digits =>
      simp only [Parameter.checkedFloat, ok_of_map, Precision.checked_eq_ok, Option.map_eq_some_iff]
      constructor
      · rintro ⟨precision, same, rfl⟩
        exact ⟨some precision, ⟨precision, rfl, same⟩, rfl⟩
      · rintro ⟨_, ⟨precision, rfl, same⟩, rfl⟩
        exact ⟨precision, same, rfl⟩

theorem Parameter.checkedObject_eq_ok {fields : Fields} {parameter : Parameter} :
    Parameter.checkedObject fields = .ok parameter ↔ parameter = .object .plain fields ∧
      fields ≠ [] ∧ (∀ name ∈ fields.map (·.1), FieldWord name) ∧
      (fields.map (·.1)).Nodup := by
  simp only [Parameter.checkedObject, ok_of_bind, checkedFields_eq_ok]
  constructor
  · rintro ⟨checked, ⟨rfl, sound⟩, accepted⟩
    by_cases empty : checked = []
    · simp [empty] at accepted
    · simp only [List.isEmpty_iff, empty, if_false, ok_of_pure] at accepted
      exact ⟨accepted.symm, empty, sound⟩
  · rintro ⟨rfl, some, sound⟩
    exact ⟨_, ⟨rfl, sound⟩, by simp [some]⟩

theorem Parameter.checkedEnum_eq_ok {values : List String} {parameter : Parameter} :
    Parameter.checkedEnum values = .ok parameter ↔
      ∃ checked : EnumValues, checked.values = values ∧ parameter = .enum .plain checked := by
  simp [Parameter.checkedEnum, EnumValues.checked_eq_ok, @eq_comm _ parameter]

theorem FunctionSpec.checked_eq_ok {name description : String} {parameters : Fields}
    {function : FunctionSpec} :
    FunctionSpec.checked name description parameters = .ok function ↔
      function = ⟨name, description, parameters⟩ ∧ FunctionWord name ∧
      (∀ name ∈ parameters.map (·.1), FieldWord name) ∧ (parameters.map (·.1)).Nodup := by
  rw [← isFunctionName_eq_true, FunctionSpec.checked]
  by_cases word : isFunctionName name = true
  · simp only [word, Bool.not_true, Bool.false_eq_true, if_false, ok_of_bind,
      checkedFields_eq_ok, ok_of_pure, true_and]
    constructor
    · rintro ⟨_, ⟨rfl, sound⟩, rfl⟩
      exact ⟨rfl, sound⟩
    · rintro ⟨rfl, sound⟩
      exact ⟨parameters, ⟨rfl, sound⟩, rfl⟩
  · simp [word]

end ToolGrammar.Schema
