import ToolGrammar.Proofs.Schema.Checks
import ToolGrammar.Schema.Record

namespace ToolGrammar.Schema

namespace ParameterRecord

theorem stray?_eq_none {record : ParameterRecord} {kind : Kind} :
    record.stray? kind = none ↔
      (record.precision.join = none ∨ kind = .float) ∧
      (record.fields.join = none ∨ kind = .object) ∧
      (record.element.join = none ∨ kind = .array) ∧
      (record.values.join = none ∨ kind = .enum) := by
  simp only [stray?, Option.map_eq_none_iff, List.find?_eq_none, Attribute.restricted,
    List.forall_mem_cons, List.not_mem_nil, gives]
  simp [Decidable.or_iff_not_imp_left, Option.isSome_iff_ne_none]

/-- What a complete record tells of a parameter besides its kind and its note. -/
def Tells (record : ParameterRecord) : Parameter → Prop
  | .string _ | .boolean _ | .integer .. =>
      record.precision.join = none ∧ record.fields.join = none ∧ record.element.join = none ∧
        record.values.join = none
  | .float _ precision =>
      record.precision.join = precision.map (·.digits) ∧ record.fields.join = none ∧
        record.element.join = none ∧ record.values.join = none
  | .object _ fields =>
      record.precision.join = none ∧ record.fields.join = some fields ∧
        record.element.join = none ∧ record.values.join = none ∧ fields ≠ [] ∧
        (∀ name ∈ fields.map (·.1), FieldWord name) ∧ (fields.map (·.1)).Nodup
  | .array _ element =>
      record.precision.join = none ∧ record.fields.join = none ∧
        record.element.join = some element ∧ record.values.join = none
  | .enum _ values =>
      record.precision.join = none ∧ record.fields.join = none ∧ record.element.join = none ∧
        record.values.join = some values.values

theorem tells_of_parameterOf {record : ParameterRecord} {kind : Kind} {parameter : Parameter}
    (accepted : record.parameterOf kind = .ok parameter) :
    kind = parameter.declaredKind ∧
      parameter.note = ⟨record.required.getD true, record.description.join⟩ ∧
      record.Tells parameter := by
  cases stray : record.stray? kind with
  | some property => simp [parameterOf, stray] at accepted
  | none =>
      have clean := stray?_eq_none.mp stray
      rw [parameterOf, stray] at accepted
      cases kind with
      | string | boolean | integer | number =>
          simp only [pure_bind, ok_of_pure] at accepted
          subst accepted
          exact ⟨rfl, rfl, by simpa [Tells, Parameter.withNote] using clean⟩
      | float =>
          simp only [ok_of_bind, Parameter.checkedFloat_eq_ok, ok_of_pure] at accepted
          obtain ⟨_, ⟨precision, given, rfl⟩, rfl⟩ := accepted
          exact ⟨rfl, rfl, by simpa [Tells, Parameter.withNote, given] using clean⟩
      | object =>
          cases given : record.fields.join with
          | none => simp [given] at accepted
          | some fields =>
              simp only [given, ok_of_bind, Parameter.checkedObject_eq_ok,
                ok_of_pure] at accepted
              obtain ⟨_, ⟨rfl, sound⟩, rfl⟩ := accepted
              exact ⟨rfl, rfl, by simpa using clean.1, given, by simpa using clean.2.2.1,
                by simpa using clean.2.2.2, sound⟩
      | array =>
          cases given : record.element.join with
          | none => simp [given] at accepted
          | some element =>
              simp only [given, pure_bind, ok_of_pure] at accepted
              subst accepted
              exact ⟨rfl, rfl, by simpa [Tells, Parameter.withNote, given] using clean⟩
      | enum =>
          cases given : record.values.join with
          | none => simp [given] at accepted
          | some values =>
              simp only [given, ok_of_bind, Parameter.checkedEnum_eq_ok,
                ok_of_pure] at accepted
              obtain ⟨_, ⟨checked, same, rfl⟩, rfl⟩ := accepted
              exact ⟨rfl, rfl, by simpa [Tells, Parameter.withNote, given, same] using clean⟩

theorem stray?_of_tells {record : ParameterRecord} {parameter : Parameter}
    (tells : record.Tells parameter) : record.stray? parameter.declaredKind = none := by
  rw [stray?_eq_none]
  cases parameter with
  | integer note name => cases name <;> simp_all [Tells]
  | _ => simp_all [Tells, Parameter.declaredKind, Parameter.kind]

theorem parameterOf_of_tells {record : ParameterRecord} {parameter : Parameter}
    (noted : parameter.note = ⟨record.required.getD true, record.description.join⟩)
    (tells : record.Tells parameter) :
    record.parameterOf parameter.declaredKind = .ok parameter := by
  rw [parameterOf, stray?_of_tells tells]
  cases parameter with
  | string note | boolean note =>
      obtain rfl : note = _ := noted
      rfl
  | integer note name =>
      obtain rfl : note = _ := noted
      cases name <;> rfl
  | float note precision =>
      obtain rfl : note = _ := noted
      obtain ⟨given, -⟩ := tells
      have shaped := Parameter.checkedFloat_eq_ok.mpr ⟨precision, given.symm, rfl⟩
      simp only [Parameter.declaredKind, Parameter.kind, shaped]
      rfl
  | object note fields =>
      obtain rfl : note = _ := noted
      obtain ⟨-, given, -, -, sound⟩ := tells
      have shaped := Parameter.checkedObject_eq_ok.mpr ⟨rfl, sound⟩
      simp only [Parameter.declaredKind, Parameter.kind, given, shaped]
      rfl
  | array note element =>
      obtain rfl : note = _ := noted
      obtain ⟨-, -, given, -⟩ := tells
      simp only [Parameter.declaredKind, Parameter.kind, given]
      rfl
  | enum note values =>
      obtain rfl : note = _ := noted
      obtain ⟨-, -, -, given⟩ := tells
      have shaped := Parameter.checkedEnum_eq_ok.mpr ⟨values, rfl, rfl⟩
      simp only [Parameter.declaredKind, Parameter.kind, given, shaped]
      rfl

/-- A complete record gives the one parameter of which it tells kind, note and all the rest. -/
theorem finish_eq_ok {record : ParameterRecord} {parameter : Parameter} :
    record.finish = .ok parameter ↔ record.kind = some parameter.declaredKind ∧
      parameter.note = ⟨record.required.getD true, record.description.join⟩ ∧
      record.Tells parameter := by
  cases named : record.kind with
  | none => simp [finish, named]
  | some kind =>
      simp only [finish, named, Decoded.ok_of_ofChecked, Option.some_inj]
      constructor
      · exact tells_of_parameterOf
      · rintro ⟨rfl, noted, tells⟩
        exact parameterOf_of_tells noted tells

end ParameterRecord

theorem FunctionRecord.finish_eq_ok {record : FunctionRecord} {function : FunctionSpec} :
    record.finish = .ok function ↔ record.name = some function.name ∧
      record.description.getD "" = function.description ∧
      record.parameters.getD [] = function.parameters ∧ FunctionWord function.name ∧
      (∀ name ∈ function.parameters.map (·.1), FieldWord name) ∧
      (function.parameters.map (·.1)).Nodup := by
  obtain ⟨name, description, parameters⟩ := function
  cases named : record.name with
  | none => simp [finish, named]
  | some written =>
      simp only [finish, named, Decoded.ok_of_ofChecked, FunctionSpec.checked_eq_ok,
        FunctionSpec.mk.injEq, Option.some_inj]
      constructor
      · rintro ⟨⟨rfl, rfl, rfl⟩, word, words, names⟩
        exact ⟨rfl, rfl, rfl, word, words, names⟩
      · rintro ⟨rfl, rfl, rfl, word, words, names⟩
        exact ⟨⟨rfl, rfl, rfl⟩, word, words, names⟩

end ToolGrammar.Schema
