import ToolGrammar.Proofs.Json.Nodes
import ToolGrammar.Proofs.Schema.Checks
import ToolGrammar.Proofs.Schema.Failure

namespace ToolGrammar.Schema

theorem firstRepeat?_eq_some {values : List String} {value : String} :
    firstRepeat? [] values = some value ↔
      ∃ before after, values = before ++ value :: after ∧ before.Nodup ∧ value ∈ before := by
  constructor
  · intro found
    rcases nodup_or_repeated values with distinct | ⟨before, other, after, rfl, distinct, repeated⟩
    · rw [firstRepeat?_of_nodup distinct] at found
      cases found
    · rw [firstRepeat?_of_repeated after distinct repeated] at found
      obtain rfl := Option.some.inj found
      exact ⟨before, after, rfl, distinct, repeated⟩
  · rintro ⟨before, after, rfl, distinct, repeated⟩
    exact firstRepeat?_of_repeated after distinct repeated

theorem EnumValues.checked_eq_error {values : List String} {error : SchemaError} :
    EnumValues.checked values = .error error ↔ values = [] ∧ error = .emptyEnum ∨
      ∃ before value after, values = before ++ value :: after ∧ before.Nodup ∧ value ∈ before ∧
        error = .duplicateEnumValue value := by
  have repeats : (∃ before value after, values = before ++ value :: after ∧ before.Nodup ∧
      value ∈ before ∧ error = .duplicateEnumValue value) ↔
        ∃ value, firstRepeat? [] values = some value ∧ error = .duplicateEnumValue value := by
    simp only [firstRepeat?_eq_some]
    constructor
    · rintro ⟨before, value, after, whole, distinct, repeated, told⟩
      exact ⟨value, ⟨before, after, whole, distinct, repeated⟩, told⟩
    · rintro ⟨value, ⟨before, after, whole, distinct, repeated⟩, told⟩
      exact ⟨before, value, after, whole, distinct, repeated, told⟩
  rw [repeats, EnumValues.checked]
  split
  · rename_i value repeated
    have some : values ≠ [] := by
      rintro rfl
      cases repeated
    simp [repeated, some, eq_comm]
  · rename_i none
    by_cases empty : values = []
    · simp [empty, firstRepeat?, eq_comm]
    · simp [none, empty]

/-- The names are those of fields: well formed, and no two of them the same. -/
structure SoundNames (names : List String) : Prop where
  words : ∀ name ∈ names, FieldWord name
  distinct : names.Nodup

/-- What is wrong with a name that follows the earlier ones. -/
inductive NameDefect (earlier : List String) (name : String) : SchemaError → Prop
  | malformed (malformed : ¬ FieldWord name) : NameDefect earlier name (.invalidFieldName name)
  | repeated (word : FieldWord name) (known : name ∈ earlier) :
      NameDefect earlier name (.duplicateField name)

/-- The error tells what is wrong with the first field whose name has a defect. -/
def FirstDefect (fields : Fields) (error : SchemaError) : Prop :=
  ∃ before name parameter after, fields = before ++ (name, parameter) :: after ∧
    SoundNames (before.map (·.1)) ∧ NameDefect (before.map (·.1)) name error

theorem soundNames_iff {fields : Fields} :
    SoundNames (fields.map (·.1)) ↔ fieldDefect? [] fields = none := by
  have sound := @fieldDefect?_eq_none [] fields
  simp only [List.not_mem_nil, not_false_eq_true, and_true] at sound
  exact ⟨fun ⟨words, distinct⟩ => sound.mpr ⟨words, distinct⟩,
    fun none => ⟨(sound.mp none).1, (sound.mp none).2⟩⟩

section

variable {seen : List String} {name : String} {parameter : Parameter} {rest fields : Fields}
  {error : SchemaError}

theorem NameDefect.congr {others : List String} (same : ∀ other, other ∈ seen ↔ other ∈ others) :
    NameDefect seen name error ↔ NameDefect others name error := by
  constructor
  · rintro (malformed | ⟨word, known⟩)
    · exact .malformed malformed
    · exact .repeated word ((same name).mp known)
  · rintro (malformed | ⟨word, known⟩)
    · exact .malformed malformed
    · exact .repeated word ((same name).mpr known)

theorem exists_nameDefect_or_sound (seen : List String) (name : String) :
    (∃ error, NameDefect seen name error) ∨ FieldWord name ∧ name ∉ seen := by
  by_cases word : FieldWord name
  · by_cases known : name ∈ seen
    · exact .inl ⟨_, .repeated word known⟩
    · exact .inr ⟨word, known⟩
  · exact .inl ⟨_, .malformed word⟩

theorem fieldDefect?_of_nameDefect (defect : NameDefect seen name error) :
    fieldDefect? seen ((name, parameter) :: rest) = some error := by
  cases defect with
  | malformed malformed =>
      rw [← isFieldName_eq_true] at malformed
      simp [fieldDefect?, malformed]
  | repeated word known =>
      rw [← isFieldName_eq_true] at word
      simp [fieldDefect?, word, known]

theorem fieldDefect?_of_sound (word : FieldWord name) (unseen : name ∉ seen) :
    fieldDefect? seen ((name, parameter) :: rest) = fieldDefect? (name :: seen) rest := by
  rw [← isFieldName_eq_true] at word
  simp [fieldDefect?, word, unseen]

/-- The first defect is that of a name which follows, besides those seen before, names without a
defect. -/
theorem fieldDefect?_eq_some_after :
    fieldDefect? seen fields = some error ↔ ∃ before name parameter after,
      fields = before ++ (name, parameter) :: after ∧ fieldDefect? seen before = none ∧
        NameDefect (before.map (·.1) ++ seen) name error := by
  induction fields generalizing seen with
  | nil => simp [fieldDefect?]
  | cons field rest ih =>
      obtain ⟨name, parameter⟩ := field
      rcases exists_nameDefect_or_sound seen name with ⟨own, defect⟩ | ⟨word, unseen⟩
      · constructor
        · intro found
          rw [fieldDefect?_of_nameDefect defect] at found
          obtain rfl := Option.some.inj found
          exact ⟨[], name, parameter, rest, rfl, rfl, defect⟩
        · rintro ⟨before, last, value, after, whole, none, later⟩
          cases before with
          | nil =>
              obtain ⟨same, rfl⟩ := List.cons.inj whole
              obtain ⟨rfl, rfl⟩ := Prod.mk.inj same
              exact fieldDefect?_of_nameDefect later
          | cons first before =>
              obtain ⟨rfl, -⟩ := List.cons.inj whole
              rw [fieldDefect?_of_nameDefect defect] at none
              cases none
      · rw [fieldDefect?_of_sound word unseen, ih]
        have moved (before : Fields) (other : String) :
            other ∈ before.map (·.1) ++ name :: seen ↔
              other ∈ ((name, parameter) :: before).map (·.1) ++ seen :=
          List.perm_middle.mem_iff
        constructor
        · rintro ⟨before, last, value, after, rfl, none, later⟩
          refine ⟨(name, parameter) :: before, last, value, after, rfl, ?_,
            (NameDefect.congr (moved before)).mp later⟩
          rwa [fieldDefect?_of_sound word unseen]
        · rintro ⟨before, last, value, after, whole, none, later⟩
          cases before with
          | nil =>
              obtain ⟨same, -⟩ := List.cons.inj whole
              obtain ⟨rfl, -⟩ := Prod.mk.inj same
              rcases later with malformed | ⟨-, known⟩
              · exact absurd word malformed
              · exact absurd known unseen
          | cons first before =>
              obtain ⟨rfl, rfl⟩ := List.cons.inj whole
              rw [fieldDefect?_of_sound word unseen] at none
              exact ⟨before, last, value, after, rfl, none,
                (NameDefect.congr (moved before)).mpr later⟩

theorem fieldDefect?_eq_some : fieldDefect? [] fields = some error ↔ FirstDefect fields error := by
  rw [fieldDefect?_eq_some_after]
  simp only [List.append_nil, FirstDefect, soundNames_iff]

theorem checkedFields_eq_error :
    checkedFields fields = .error error ↔ FirstDefect fields error := by
  rw [← fieldDefect?_eq_some, checkedFields]
  cases fieldDefect? [] fields <;> simp

end

theorem Parameter.checkedObject_eq_error {fields : Fields} {error : SchemaError} :
    Parameter.checkedObject fields = .error error ↔
      fields = [] ∧ error = .emptyObject ∨ FirstDefect fields error := by
  simp only [Parameter.checkedObject, error_of_bind, checkedFields_eq_error, checkedFields_eq_ok]
  constructor
  · rintro (defect | ⟨checked, ⟨rfl, -⟩, refused⟩)
    · exact .inr defect
    · by_cases empty : checked = []
      · exact .inl ⟨empty, by simpa [empty, @eq_comm _ error] using refused⟩
      · simp [empty] at refused
  · rintro (⟨rfl, rfl⟩ | defect)
    · exact .inr ⟨[], ⟨rfl, by simp, by simp⟩, rfl⟩
    · exact .inl defect

theorem FunctionSpec.checked_eq_error {name description : String} {parameters : Fields}
    {error : SchemaError} :
    FunctionSpec.checked name description parameters = .error error ↔
      ¬ FunctionWord name ∧ error = .invalidFunctionName name ∨
        FunctionWord name ∧ FirstDefect parameters error := by
  rw [← isFunctionName_eq_true, FunctionSpec.checked]
  by_cases word : isFunctionName name = true
  · simp [word, checkedFields_eq_error]
  · simp [word, @eq_comm _ error]

/-- What becomes of fields as those of an object. -/
structure ObjectChecked (fields : Fields) : Prop where
  accepts : ∀ parameter, Parameter.checkedObject fields = .ok parameter ↔
    fields ≠ [] ∧ SoundNames (fields.map (·.1)) ∧ parameter = .object .plain fields
  empty : Parameter.checkedObject fields = .error .emptyObject ↔ fields = []
  refuses : fields ≠ [] → ∀ error,
    Parameter.checkedObject fields = .error error ↔ FirstDefect fields error
  /-- By its name each field is found, and nothing else. -/
  finds : ∀ note own, Parameter.checkedObject fields = .ok (.object note own) →
    own.length = fields.length ∧ ∀ name parameter,
      Keyed.lookup? name own = some parameter ↔ (name, parameter) ∈ fields

/-- What becomes of texts as the values of an enumeration. -/
structure EnumChecked (values : List String) : Prop where
  accepts : ∀ own, EnumValues.checked values = .ok own ↔
    values ≠ [] ∧ values.Nodup ∧ own.values = values
  empty : EnumValues.checked values = .error .emptyEnum ↔ values = []
  refuses : values ≠ [] → ∀ error, EnumValues.checked values = .error error ↔
    ∃ before value after, values = before ++ value :: after ∧ before.Nodup ∧ value ∈ before ∧
      error = .duplicateEnumValue value

/-- What becomes of fields as the parameters of a function. -/
structure FunctionChecked (name description : String) (parameters : Fields) : Prop where
  accepts : ∀ function, FunctionSpec.checked name description parameters = .ok function ↔
    FunctionWord name ∧ SoundNames (parameters.map (·.1)) ∧
      function = ⟨name, description, parameters⟩
  refuses : ∀ error, FunctionSpec.checked name description parameters = .error error ↔
    ¬ FunctionWord name ∧ error = .invalidFunctionName name ∨
      FunctionWord name ∧ FirstDefect parameters error

theorem not_firstDefect_emptyObject (fields : Fields) : ¬ FirstDefect fields .emptyObject := by
  rintro ⟨before, name, parameter, after, -, -, ⟨⟩⟩

theorem objectChecked (fields : Fields) : ObjectChecked fields where
  accepts parameter := by
    rw [Parameter.checkedObject_eq_ok]
    constructor
    · rintro ⟨made, some, words, distinct⟩
      exact ⟨some, ⟨words, distinct⟩, made⟩
    · rintro ⟨some, ⟨words, distinct⟩, made⟩
      exact ⟨made, some, words, distinct⟩
  empty := by
    simp [Parameter.checkedObject_eq_error, not_firstDefect_emptyObject]
  refuses some error := by
    rw [Parameter.checkedObject_eq_error, or_iff_right fun empty => some empty.1]
  finds note own accepted := by
    obtain ⟨made, -, -, distinct⟩ := Parameter.checkedObject_eq_ok.mp accepted
    obtain ⟨-, rfl⟩ := Parameter.object.inj made
    exact ⟨rfl, fun name parameter => ⟨Keyed.mem_of_lookup?, Keyed.lookup?_of_mem distinct⟩⟩

theorem enumChecked (values : List String) : EnumChecked values where
  accepts own := by
    rw [EnumValues.checked_eq_ok]
    constructor
    · rintro rfl
      exact ⟨own.nonempty, own.distinct, rfl⟩
    · exact fun made => made.2.2
  empty := by
    rw [EnumValues.checked_eq_error]
    simp
  refuses some error := by
    rw [EnumValues.checked_eq_error, or_iff_right fun empty => some empty.1]

theorem functionChecked (name description : String) (parameters : Fields) :
    FunctionChecked name description parameters where
  accepts function := by
    rw [FunctionSpec.checked_eq_ok]
    constructor
    · rintro ⟨made, word, words, distinct⟩
      exact ⟨word, ⟨words, distinct⟩, made⟩
    · rintro ⟨word, ⟨words, distinct⟩, made⟩
      exact ⟨made, word, words, distinct⟩
  refuses _ := FunctionSpec.checked_eq_error

/-- The checked constructors accept exactly what is sound, hand it on as it is, and tell of the
first defect of all else. -/
theorem sound_or_first_defect (fields : Fields) (values : List String) (name description : String) :
    ObjectChecked fields ∧ EnumChecked values ∧ FunctionChecked name description fields :=
  ⟨objectChecked fields, enumChecked values, functionChecked name description fields⟩

/-- A malformed name that is repeated is refused where it first stands, and as malformed. -/
example : Parameter.checkedObject [("side", .string .plain), ("2nd side", .string .plain),
    ("side", .boolean .plain), ("2nd side", .string .plain)] =
      .error (.invalidFieldName "2nd side") := by
  rfl

end ToolGrammar.Schema
