import ToolGrammar.Proofs.Schema.Completion
import ToolGrammar.Proofs.Schema.Records

namespace ToolGrammar.Schema

open Json (Value)

theorem value_unique {given : Given} (names : (given.map (·.1)).Nodup) {name : String}
    {value other : Value} (found : (name, value) ∈ given) (again : (name, other) ∈ given) :
    value = other := by
  have same := List.inj_on_of_nodup_map names found again rfl
  exact congrArg Prod.snd same

section

variable {α : Type} {given : Given} {name : String} {decode : Value → Decoded α}

theorem Filled.eq_some_iff {place : Option α} (filled : Filled given name decode none place)
    (names : (given.map (·.1)).Nodup) {content : α} :
    place = some content ↔ ∃ value, (name, value) ∈ given ∧ decode value = .ok content := by
  rcases filled with ⟨value, found, member, decoded, rfl⟩ | ⟨absent, rfl⟩
  · rw [Option.some_inj]
    constructor
    · rintro rfl
      exact ⟨value, member, decoded⟩
    · rintro ⟨other, again, decodedAgain⟩
      rw [value_unique names again member, decoded] at decodedAgain
      exact Except.ok.inj decodedAgain
  · simp [absent]

theorem Filled.eq_none_iff {place : Option α} (filled : Filled given name decode none place) :
    place = none ↔ ∀ value, (name, value) ∉ given := by
  rcases filled with ⟨value, found, member, decoded, rfl⟩ | ⟨absent, rfl⟩
  · simpa using ⟨value, member⟩
  · simpa using absent

theorem Filled.join_eq_some_iff {place : Option (Option α)}
    (filled : Filled given name (FromValue.optional decode) none place)
    (names : (given.map (·.1)).Nodup) {content : α} :
    place.join = some content ↔
      ∃ value, (name, value) ∈ given ∧ value ≠ .null ∧ decode value = .ok content := by
  rw [Option.join_eq_some_iff, filled.eq_some_iff names]
  simp only [FromValue.optional_eq_ok, reduceCtorEq, and_false, false_or, Option.some_inj,
    exists_eq_right']

theorem Filled.join_eq_none_iff {place : Option (Option α)}
    (filled : Filled given name (FromValue.optional decode) none place)
    (names : (given.map (·.1)).Nodup) : place.join = none ↔ Lacks given name := by
  rcases filled with ⟨value, found, member, decoded, rfl⟩ | ⟨absent, rfl⟩
  · have only : Lacks given name ↔ value = .null :=
      ⟨fun lacks => lacks value member,
        fun null other again => value_unique names again member ▸ null⟩
    rw [only, Option.join_some]
    rcases FromValue.optional_eq_ok.mp decoded with ⟨null, rfl⟩ | ⟨other, content, _, rfl⟩
    · simp [null]
    · simp [other]
  · simp [Lacks, absent]

end

namespace FromValue

variable {given : Given} {record next : ParameterRecord} {member : String × Value}

theorem optional_self {α : Type} (decode : Value → Decoded α) (value : Value) :
    optional (fun _ => decode value) value = optional decode value := by
  cases value <;> rfl

/-- Each member of a parameter record goes to the place of its name. -/
theorem AttributeStep.puts (step : AttributeStep record member next) :
    Put "type" kind member record.kind next.kind ∧
    Put "required" bool member record.required next.required ∧
    Put "description" (optional string) member record.description next.description ∧
    Put "precision" (optional count) member record.precision next.precision ∧
    Put "structure" (optional fields) member record.fields next.fields ∧
    Put "element_type" (optional parameter) member record.element next.element ∧
    Put "enum" (optional strings) member record.values next.values := by
  obtain ⟨name, value⟩ := member
  obtain ⟨property, rfl, decoded⟩ := step
  cases property <;>
    simp only [withAttribute, optional_self fields, optional_self parameter, ok_of_bind,
      ok_of_pure] at decoded <;>
    obtain ⟨content, decoded, rfl⟩ := decoded <;>
    simp [Put, Attribute.name, decoded]

/-- Where each place of a record comes from once all members have been read. -/
structure ParameterPlaces (given : Given) (record : ParameterRecord) : Prop where
  kind : Filled given "type" kind none record.kind
  required : Filled given "required" bool none record.required
  description : Filled given "description" (optional string) none record.description
  precision : Filled given "precision" (optional count) none record.precision
  fields : Filled given "structure" (optional fields) none record.fields
  element : Filled given "element_type" (optional parameter) none record.element
  values : Filled given "enum" (optional strings) none record.values

theorem parameterPlaces (reads : Reads AttributeStep .empty given record)
    (names : (given.map (·.1)).Nodup) : ParameterPlaces given record where
  kind := reads.filled names fun step => step.puts.1
  required := reads.filled names fun step => step.puts.2.1
  description := reads.filled names fun step => step.puts.2.2.1
  precision := reads.filled names fun step => step.puts.2.2.2.1
  fields := reads.filled names fun step => step.puts.2.2.2.2.1
  element := reads.filled names fun step => step.puts.2.2.2.2.2.1
  values := reads.filled names fun step => step.puts.2.2.2.2.2.2

section

variable (places : ParameterPlaces given record) (names : (given.map (·.1)).Nodup)

include places names

theorem kind_eq_some_iff {own : Kind} :
    record.kind = some own ↔ ∃ value, ("type", value) ∈ given ∧ SpellsKind own value := by
  simp only [places.kind.eq_some_iff names, kind_eq_ok]

theorem required_iff {truth : Bool} :
    ("required", .bool truth) ∈ given ∨ (∀ value, ("required", value) ∉ given) ∧ truth = true ↔
      truth = record.required.getD true := by
  cases held : record.required with
  | none =>
      have absent := places.required.eq_none_iff.mp held
      simp [absent]
  | some written =>
      obtain ⟨value, member, decoded⟩ := (places.required.eq_some_iff names).mp held
      obtain rfl := bool_eq_ok.mp decoded
      constructor
      · rintro (again | ⟨absent, -⟩)
        · exact Value.bool.inj (value_unique names again member)
        · exact absurd member (absent _)
      · rintro rfl
        exact .inl member

theorem description_iff {text : Option String} :
    (∃ content, ("description", .string content) ∈ given ∧ text = some content) ∨
      Lacks given "description" ∧ text = none ↔ text = record.description.join := by
  cases held : record.description.join with
  | none =>
      have lacks := (places.description.join_eq_none_iff names).mp held
      have absent : ∀ content, ("description", Value.string content) ∉ given :=
        fun content member => by simpa using lacks _ member
      simp [absent, lacks]
  | some written =>
      obtain ⟨value, member, _, decoded⟩ := (places.description.join_eq_some_iff names).mp held
      obtain rfl := string_eq_ok.mp decoded
      constructor
      · rintro (⟨content, again, rfl⟩ | ⟨lacks, -⟩)
        · exact congrArg some (Value.string.inj (value_unique names again member))
        · simpa using lacks _ member
      · rintro rfl
        exact .inl ⟨written, member, rfl⟩

theorem heads_iff {own : Kind} {note : Note} :
    Heads given own note ↔ record.kind = some own ∧
      note = ⟨record.required.getD true, record.description.join⟩ := by
  obtain ⟨truth, text⟩ := note
  rw [kind_eq_some_iff places names, Note.mk.injEq, ← required_iff places names,
    ← description_iff places names]
  exact ⟨fun heads => ⟨heads.kind, heads.required, heads.description⟩,
    fun ⟨named, required, described⟩ => ⟨named, required, described⟩⟩

theorem precision_eq_some_iff {digits : Nat} :
    record.precision.join = some digits ↔
      ("precision", .number (.integer digits)) ∈ given ∧ digits < 2 ^ 32 := by
  rw [places.precision.join_eq_some_iff names]
  constructor
  · rintro ⟨value, member, -, decoded⟩
    obtain ⟨rfl, fits⟩ := count_eq_ok.mp decoded
    exact ⟨member, fits⟩
  · rintro ⟨member, fits⟩
    exact ⟨_, member, Value.noConfusion, count_eq_ok.mpr ⟨rfl, fits⟩⟩

theorem values_eq_some_iff {texts : List String} :
    record.values.join = some texts ↔ ("enum", .array (texts.map .string)) ∈ given := by
  rw [places.values.join_eq_some_iff names]
  constructor
  · rintro ⟨value, member, -, decoded⟩
    exact strings_eq_ok.mp decoded ▸ member
  · exact fun member => ⟨_, member, Value.noConfusion, strings_eq_ok.mpr rfl⟩

end

/-- Decoding and spelling agree on a value, and if it is an object, it repeats no name. -/
structure Agrees (value : Value) : Prop where
  parameter : ∀ {own}, parameter value = .ok own ↔ Spells own value
  fields : ∀ {own}, fields value = .ok own ↔
    ∃ members, value = .object members ∧ List.Forall₂ SpellsField own members
  names : ∀ {members}, value = .object members → (members.map (·.1)).Nodup

section

variable (places : ParameterPlaces given record) (names : (given.map (·.1)).Nodup)
  (agree : ∀ member ∈ given, Agrees member.2)

include places names agree

theorem element_eq_some_iff {own : Parameter} :
    record.element.join = some own ↔
      ∃ value, ("element_type", value) ∈ given ∧ Spells own value := by
  rw [places.element.join_eq_some_iff names]
  constructor
  · rintro ⟨value, member, -, decoded⟩
    exact ⟨value, member, (agree _ member).parameter.mp decoded⟩
  · rintro ⟨value, member, spells⟩
    exact ⟨value, member, spells.ne_null, (agree _ member).parameter.mpr spells⟩

theorem fields_eq_some_iff {own : Fields} :
    record.fields.join = some own ↔
      ∃ members, ("structure", .object members) ∈ given ∧
        List.Forall₂ SpellsField own members := by
  rw [places.fields.join_eq_some_iff names]
  constructor
  · rintro ⟨value, member, -, decoded⟩
    obtain ⟨members, rfl, each⟩ := (agree _ member).fields.mp decoded
    exact ⟨members, member, each⟩
  · rintro ⟨members, member, each⟩
    exact ⟨_, member, Value.noConfusion, (agree _ member).fields.mpr ⟨members, rfl, each⟩⟩

theorem holds_iff {own : Parameter} : Holds own given ↔ record.Tells own := by
  have precision := places.precision.join_eq_none_iff names
  have fields := places.fields.join_eq_none_iff names
  have element := places.element.join_eq_none_iff names
  have values := places.values.join_eq_none_iff names
  cases own with
  | string | boolean | integer =>
      simp only [Holds, LacksAll, List.forall_mem_cons, List.not_mem_nil, ParameterRecord.Tells,
        precision, fields, element, values, false_imp_iff, implies_true, and_true]
  | float note own =>
      cases own with
      | none =>
          simp only [Holds, LacksAll, List.forall_mem_cons, List.not_mem_nil,
            ParameterRecord.Tells, Option.map_none, precision, fields, element, values,
            false_imp_iff, implies_true, and_true]
      | some own =>
          have fits : own.digits < 2 ^ 32 := Nat.lt_of_le_of_lt own.bounded (by decide)
          simp only [Holds, LacksAll, List.forall_mem_cons, List.not_mem_nil,
            ParameterRecord.Tells, Option.map_some, precision_eq_some_iff places names, fits,
            fields, element, values, false_imp_iff, implies_true, and_true]
  | object note own =>
      have distinct : ∀ members, ("structure", Value.object members) ∈ given →
          List.Forall₂ SpellsField own members → (own.map (·.1)).Nodup := fun members member each =>
        keys_eq_of_forall₂ And.left each ▸ (agree _ member).names rfl
      simp only [Holds, LacksAll, List.forall_mem_cons, List.not_mem_nil, ParameterRecord.Tells,
        fields_eq_some_iff places names agree, spellsFields_iff, precision, element, values,
        false_imp_iff, implies_true, and_true]
      constructor
      · rintro ⟨⟨some, members, member, each, words⟩, noPrecision, noElement, noValues⟩
        exact ⟨noPrecision, ⟨members, member, each⟩, noElement, noValues, some, words,
          distinct members member each⟩
      · rintro ⟨noPrecision, ⟨members, member, each⟩, noElement, noValues, some, words, -⟩
        exact ⟨⟨some, members, member, each, words⟩, noPrecision, noElement, noValues⟩
  | array note own =>
      simp only [Holds, LacksAll, List.forall_mem_cons, List.not_mem_nil, ParameterRecord.Tells,
        element_eq_some_iff places names agree, precision, fields, values, false_imp_iff,
        implies_true, and_true]
      constructor
      · rintro ⟨found, noPrecision, noFields, noValues⟩
        exact ⟨noPrecision, noFields, found, noValues⟩
      · rintro ⟨noPrecision, noFields, found, noValues⟩
        exact ⟨found, noPrecision, noFields, noValues⟩
  | enum note own =>
      simp only [Holds, LacksAll, List.forall_mem_cons, List.not_mem_nil, ParameterRecord.Tells,
        values_eq_some_iff places names, precision, fields, element, false_imp_iff, implies_true,
        and_true]
      constructor
      · rintro ⟨found, noPrecision, noFields, noElement⟩
        exact ⟨noPrecision, noFields, noElement, found⟩
      · rintro ⟨noPrecision, noFields, noElement, found⟩
        exact ⟨found, noPrecision, noFields, noElement⟩

end

/-- What stands at the members that belong to one kind each. -/
theorem held_of_holds {own : Parameter} (holds : Holds own given) :
    (Lacks given "precision" ∨
      ∃ precision : Precision, ("precision", .number (.integer precision.digits)) ∈ given) ∧
    (Lacks given "structure" ∨ ∃ fields members, ("structure", .object members) ∈ given ∧
      List.Forall₂ SpellsField fields members) ∧
    (Lacks given "element_type" ∨
      ∃ element value, ("element_type", value) ∈ given ∧ Spells element value) ∧
    (Lacks given "enum" ∨ ∃ texts : List String, ("enum", .array (texts.map .string)) ∈ given) := by
  cases own with
  | string | boolean | integer =>
      simp only [Holds, LacksAll, List.forall_mem_cons] at holds
      exact ⟨.inl holds.1, .inl holds.2.1, .inl holds.2.2.1, .inl holds.2.2.2.1⟩
  | float note own =>
      cases own with
      | none =>
          simp only [Holds, LacksAll, List.forall_mem_cons] at holds
          exact ⟨.inl holds.1, .inl holds.2.1, .inl holds.2.2.1, .inl holds.2.2.2.1⟩
      | some own =>
          simp only [Holds, LacksAll, List.forall_mem_cons] at holds
          exact ⟨.inr ⟨own, holds.1⟩, .inl holds.2.1, .inl holds.2.2.1, .inl holds.2.2.2.1⟩
  | object note own =>
      simp only [Holds, LacksAll, List.forall_mem_cons, spellsFields_iff] at holds
      obtain ⟨⟨-, members, member, each, -⟩, precision, element, values, -⟩ := holds
      exact ⟨.inl precision, .inr ⟨own, members, member, each⟩, .inl element, .inl values⟩
  | array note own =>
      simp only [Holds, LacksAll, List.forall_mem_cons] at holds
      obtain ⟨⟨value, member, spells⟩, precision, fields, values, -⟩ := holds
      exact ⟨.inl precision, .inl fields, .inr ⟨own, value, member, spells⟩, .inl values⟩
  | enum note own =>
      simp only [Holds, LacksAll, List.forall_mem_cons] at holds
      obtain ⟨member, precision, fields, element, -⟩ := holds
      exact ⟨.inl precision, .inl fields, .inl element, .inr ⟨own.values, member⟩⟩

/-- Every member of a record that spells a parameter can be read. -/
theorem exists_attributeStep {own : Parameter} (names : (given.map (·.1)).Nodup)
    (agree : ∀ member ∈ given, Agrees member.2)
    (heads : Heads given own.declaredKind own.note) (holds : Holds own given)
    (found : member ∈ given) (known : member.1 ∈ parameterMembers) (record : ParameterRecord) :
    ∃ next, AttributeStep record member next := by
  obtain ⟨name, value⟩ := member
  obtain ⟨precision, fields, element, values⟩ := held_of_holds holds
  have null : ∀ {α : Type} (decode : Value → Decoded α), Lacks given name →
      optional decode value = .ok none := fun decode lacks =>
    optional_eq_ok.mpr (.inl ⟨lacks value found, rfl⟩)
  have some : ∀ {α : Type} {decode : Value → Decoded α} {content : α}, value ≠ .null →
      decode value = .ok content → optional decode value = .ok (some content) :=
    fun other decoded => optional_eq_ok.mpr (.inr ⟨other, _, decoded, rfl⟩)
  simp only [parameterMembers, List.mem_cons, List.not_mem_nil, or_false] at known
  rcases known with rfl | rfl | rfl | rfl | rfl | rfl | rfl
  · obtain ⟨other, again, spells⟩ := heads.kind
    obtain rfl := value_unique names found again
    exact ⟨_, .kind, rfl, ok_of_bind.mpr ⟨_, kind_eq_ok.mpr spells, rfl⟩⟩
  · rcases heads.required with again | ⟨absent, -⟩
    · obtain rfl := value_unique names found again
      exact ⟨_, .required, rfl, ok_of_bind.mpr ⟨_, rfl, rfl⟩⟩
    · exact absurd found (absent value)
  · rcases heads.description with ⟨text, again, -⟩ | ⟨lacks, -⟩
    · obtain rfl := value_unique names found again
      exact ⟨_, .description, rfl, ok_of_bind.mpr ⟨_, rfl, rfl⟩⟩
    · exact ⟨_, .description, rfl, ok_of_bind.mpr ⟨_, null string lacks, rfl⟩⟩
  · rcases precision with lacks | ⟨precision, again⟩
    · exact ⟨_, .precision, rfl, ok_of_bind.mpr ⟨_, null count lacks, rfl⟩⟩
    · obtain rfl := value_unique names found again
      have fits : precision.digits < 2 ^ 32 :=
        Nat.lt_of_le_of_lt precision.bounded (by decide)
      exact ⟨_, .precision, rfl, ok_of_bind.mpr
        ⟨_, some Value.noConfusion (count_eq_ok.mpr ⟨rfl, fits⟩), rfl⟩⟩
  · rcases fields with lacks | ⟨fields, members, again, each⟩
    · exact ⟨_, .fields, rfl, ok_of_bind.mpr ⟨_, null _ lacks, rfl⟩⟩
    · obtain rfl := value_unique names found again
      have decoded := (agree _ found).fields.mpr ⟨members, rfl, each⟩
      exact ⟨_, .fields, rfl, ok_of_bind.mpr ⟨_, some Value.noConfusion decoded, rfl⟩⟩
  · rcases element with lacks | ⟨element, other, again, spells⟩
    · exact ⟨_, .element, rfl, ok_of_bind.mpr ⟨_, null _ lacks, rfl⟩⟩
    · obtain rfl := value_unique names found again
      have decoded := (agree _ found).parameter.mpr spells
      exact ⟨_, .element, rfl, ok_of_bind.mpr ⟨_, some spells.ne_null decoded, rfl⟩⟩
  · rcases values with lacks | ⟨texts, again⟩
    · exact ⟨_, .values, rfl, ok_of_bind.mpr ⟨_, null strings lacks, rfl⟩⟩
    · obtain rfl := value_unique names found again
      exact ⟨_, .values, rfl, ok_of_bind.mpr
        ⟨_, some Value.noConfusion (strings_eq_ok.mpr rfl), rfl⟩⟩

end FromValue

end ToolGrammar.Schema
