import ToolGrammar.Proofs.Schema.Places

namespace ToolGrammar.Schema.FromValue

open Json (Value)

theorem parameter_eq_ok {value : Value} {own : Parameter} :
    parameter value = .ok own ↔ ∃ given record, Gives parameterMembers value given ∧
      Reads AttributeStep .empty given record ∧ record.finish = .ok own := by
  constructor
  · intro decoded
    cases value with
    | object members =>
        simp only [parameter, ok_of_bind, membersOf_eq_ok] at decoded
        obtain ⟨record, reads, finished⟩ := decoded
        have known : ∀ member ∈ members, member.1 ∈ parameterMembers := by
          refine reads.forall_mem ?_
          rintro _ _ _ ⟨property, named, -⟩
          cases property <;> rw [← named] <;> decide
        exact ⟨members, record, .byName known, reads, finished⟩
    | array items =>
        simp only [parameter, ok_of_bind, itemsOf_eq_ok] at decoded
        obtain ⟨record, ⟨some, few, reads⟩, finished⟩ := decoded
        exact ⟨_, record, .byPosition (fun none => some none rfl) few, reads, finished⟩
    | _ => simp [parameter, mismatch] at decoded
  · rintro ⟨given, record, gives, reads, finished⟩
    cases gives with
    | byName => simpa [parameter, membersOf_eq_ok] using ⟨record, reads, finished⟩
    | byPosition some few =>
        simp only [parameter, ok_of_bind, itemsOf_eq_ok]
        exact ⟨record, ⟨fun none => absurd none some, few, reads⟩, finished⟩

theorem namedParameters_eq_ok_iff {members : Given} (agree : ∀ member ∈ members, Agrees member.2)
    {own : Fields} :
    namedParameters members = .ok own ↔ List.Forall₂ SpellsField own members := by
  rw [namedParameters_eq_ok, List.forall₂_iff_zip, List.forall₂_iff_zip]
  refine and_congr_right fun _ =>
    ⟨fun each field member pair => ?_, fun each field member pair => ?_⟩
  · exact (each pair).imp_right (agree member (List.of_mem_zip pair).2).parameter.mp
  · exact (each pair).imp_right (agree member (List.of_mem_zip pair).2).parameter.mpr

/-- The induction goes from the members and items of a value to the value. -/
theorem agrees (value : Value) : value.Distinct → Agrees value := by
  induction value using Value.induction with
  | step value ih =>
      intro distinct
      have below : ∀ {given : Given}, Gives parameterMembers value given →
          ∀ member ∈ given, Agrees member.2 := fun gives member found =>
        ih member.2 (gives.mem_parts member found)
          (distinct.part member.2 (gives.mem_parts member found))
      have keys : ∀ {given : Given}, Gives parameterMembers value given →
          (given.map (·.1)).Nodup := fun gives => gives.nodup distinct (by decide)
      refine ⟨fun {own} => ?_, fun {own} => ?_, fun {members} same => ?_⟩
      · rw [parameter_eq_ok]
        constructor
        · rintro ⟨given, record, gives, reads, finished⟩
          obtain ⟨named, noted, tells⟩ := ParameterRecord.finish_eq_ok.mp finished
          have places := parameterPlaces reads (keys gives)
          exact ⟨given, gives, (heads_iff places (keys gives)).mpr ⟨named, noted⟩,
            (holds_iff places (keys gives) (below gives)).mpr tells⟩
        · rintro ⟨given, gives, heads, holds⟩
          obtain ⟨record, reads⟩ := exists_reads fun member found record =>
            exists_attributeStep (keys gives) (below gives) heads holds found
              (gives.known member found) record
          have places := parameterPlaces reads (keys gives)
          obtain ⟨named, noted⟩ := (heads_iff places (keys gives)).mp heads
          have tells := (holds_iff places (keys gives) (below gives)).mp holds
          exact ⟨given, record, gives, reads,
            ParameterRecord.finish_eq_ok.mpr ⟨named, noted, tells⟩⟩
      · cases value with
        | object members =>
            have parts : ∀ member ∈ members, Agrees member.2 := fun member found =>
              ih member.2 (List.mem_map_of_mem found)
                (distinct.part member.2 (List.mem_map_of_mem found))
            simp [fields, namedParameters_eq_ok_iff parts]
        | _ => simp [fields, mismatch]
      · subst same
        exact distinct.1

variable {given : Given} {record next : FunctionRecord} {member : String × Value}

/-- Each member of a function record goes to the place of its name. -/
theorem MemberStep.puts (step : MemberStep record member next) :
    Put "name" string member record.name next.name ∧
    Put "description" string member record.description next.description ∧
    Put "parameters" fields member record.parameters next.parameters := by
  obtain ⟨name, value⟩ := member
  obtain ⟨own, rfl, decoded⟩ := step
  cases own <;>
    simp only [withMember, ok_of_bind, ok_of_pure] at decoded <;>
    obtain ⟨content, decoded, rfl⟩ := decoded <;>
    simp [Put, FunctionMember.text, decoded]

/-- Where each place of a record comes from once all members have been read. -/
structure FunctionPlaces (given : Given) (record : FunctionRecord) : Prop where
  name : Filled given "name" string none record.name
  description : Filled given "description" string none record.description
  parameters : Filled given "parameters" fields none record.parameters

theorem functionPlaces (reads : Reads MemberStep .empty given record)
    (names : (given.map (·.1)).Nodup) : FunctionPlaces given record where
  name := reads.filled names fun step => step.puts.1
  description := reads.filled names fun step => step.puts.2.1
  parameters := reads.filled names fun step => step.puts.2.2

section

variable (places : FunctionPlaces given record) (names : (given.map (·.1)).Nodup)

include places names

theorem name_eq_some_iff {name : String} :
    record.name = some name ↔ ("name", .string name) ∈ given := by
  simp [places.name.eq_some_iff names, string_eq_ok]

theorem documented_iff {text : String} :
    record.description.getD "" = text ↔ ("description", .string text) ∈ given ∨
      (∀ value, ("description", value) ∉ given) ∧ text = "" := by
  cases held : record.description with
  | none =>
      have absent := places.description.eq_none_iff.mp held
      simp [absent, @eq_comm _ ""]
  | some written =>
      obtain ⟨value, member, decoded⟩ := (places.description.eq_some_iff names).mp held
      obtain rfl := string_eq_ok.mp decoded
      constructor
      · rintro rfl
        exact .inl member
      · rintro (again | ⟨absent, -⟩)
        · exact Value.string.inj (value_unique names member again)
        · exact absurd member (absent _)

theorem parameters_iff (agree : ∀ member ∈ given, Agrees member.2) {own : Fields} :
    record.parameters.getD [] = own ↔
      (∃ members, ("parameters", .object members) ∈ given ∧
        List.Forall₂ SpellsField own members) ∨
      (∀ value, ("parameters", value) ∉ given) ∧ own = [] := by
  cases held : record.parameters with
  | none =>
      have absent := places.parameters.eq_none_iff.mp held
      simp [absent, @eq_comm _ []]
  | some written =>
      obtain ⟨value, member, decoded⟩ := (places.parameters.eq_some_iff names).mp held
      obtain ⟨members, rfl, each⟩ := (agree _ member).fields.mp decoded
      constructor
      · rintro rfl
        exact .inl ⟨members, member, each⟩
      · rintro (⟨others, again, eachAgain⟩ | ⟨absent, -⟩)
        · obtain rfl := Value.object.inj (value_unique names member again)
          have decodedAgain := (agree _ member).fields.mpr ⟨_, rfl, eachAgain⟩
          exact Except.ok.inj (decoded.symm.trans decodedAgain)
        · exact absurd member (absent _)

theorem spellsFunctionIn_iff (agree : ∀ member ∈ given, Agrees member.2)
    {function : FunctionSpec} :
    SpellsFunctionIn given function ↔ record.finish = .ok function := by
  rw [FunctionRecord.finish_eq_ok, name_eq_some_iff places names, documented_iff places names,
    parameters_iff places names agree]
  constructor
  · rintro ⟨named, word, described, ⟨members, member, spells⟩ | ⟨absent, none⟩⟩
    · obtain ⟨each, words⟩ := spellsFields_iff.mp spells
      exact ⟨named, described, .inl ⟨members, member, each⟩, word, words,
        keys_eq_of_forall₂ And.left each ▸ (agree _ member).names rfl⟩
    · exact ⟨named, described, .inr ⟨absent, none⟩, word, by simp [none], by simp [none]⟩
  · rintro ⟨named, described, parameters, word, words, -⟩
    refine ⟨named, word, described, parameters.imp_left fun ⟨members, member, each⟩ => ?_⟩
    exact ⟨members, member, spellsFields_iff.mpr ⟨each, words⟩⟩

end

/-- Every member of a record that spells a function can be read. -/
theorem exists_memberStep {function : FunctionSpec} (names : (given.map (·.1)).Nodup)
    (agree : ∀ member ∈ given, Agrees member.2) (spells : SpellsFunctionIn given function)
    (found : member ∈ given) (known : member.1 ∈ Schema.functionMembers) (record : FunctionRecord) :
    ∃ next, MemberStep record member next := by
  obtain ⟨name, value⟩ := member
  simp only [Schema.functionMembers, List.mem_cons, List.not_mem_nil, or_false] at known
  rcases known with rfl | rfl | rfl
  · obtain rfl := value_unique names found spells.name
    exact ⟨_, .name, rfl, ok_of_bind.mpr ⟨_, rfl, rfl⟩⟩
  · rcases spells.description with again | ⟨absent, -⟩
    · obtain rfl := value_unique names found again
      exact ⟨_, .description, rfl, ok_of_bind.mpr ⟨_, rfl, rfl⟩⟩
    · exact absurd found (absent value)
  · rcases spells.parameters with ⟨members, again, spelled⟩ | ⟨absent, -⟩
    · obtain rfl := value_unique names found again
      have decoded := (agree _ found).fields.mpr ⟨members, rfl, (spellsFields_iff.mp spelled).1⟩
      exact ⟨_, .parameters, rfl, ok_of_bind.mpr ⟨_, decoded, rfl⟩⟩
    · exact absurd found (absent value)

theorem function_eq_ok {value : Value} {own : FunctionSpec} :
    function value = .ok own ↔ ∃ given record, Gives Schema.functionMembers value given ∧
      Reads MemberStep .empty given record ∧ record.finish = .ok own := by
  constructor
  · intro decoded
    cases value with
    | object members =>
        simp only [function, ok_of_bind, functionMembers_eq_ok] at decoded
        obtain ⟨record, reads, finished⟩ := decoded
        have known : ∀ member ∈ members, member.1 ∈ Schema.functionMembers := by
          refine reads.forall_mem ?_
          rintro _ _ _ ⟨member, named, -⟩
          cases member <;> rw [← named] <;> decide
        exact ⟨members, record, .byName known, reads, finished⟩
    | array items =>
        simp only [function, ok_of_bind, functionItems_eq_ok] at decoded
        obtain ⟨record, ⟨some, few, reads⟩, finished⟩ := decoded
        exact ⟨_, record, .byPosition (fun none => some none rfl) few, reads, finished⟩
    | _ => simp [function, mismatch] at decoded
  · rintro ⟨given, record, gives, reads, finished⟩
    cases gives with
    | byName => simpa [function, functionMembers_eq_ok] using ⟨record, reads, finished⟩
    | byPosition some few =>
        simp only [function, ok_of_bind, functionItems_eq_ok]
        exact ⟨record, ⟨fun none => absurd none some, few, reads⟩, finished⟩

theorem function_eq_ok_iff {value : Value} (distinct : value.Distinct) {own : FunctionSpec} :
    function value = .ok own ↔ SpellsFunction own value := by
  have below : ∀ {given : Given}, Gives Schema.functionMembers value given →
      ∀ member ∈ given, Agrees member.2 := fun gives member found =>
    agrees member.2 (distinct.part member.2 (gives.mem_parts member found))
  have keys : ∀ {given : Given}, Gives Schema.functionMembers value given →
      (given.map (·.1)).Nodup := fun gives => gives.nodup distinct (by decide)
  rw [function_eq_ok]
  constructor
  · rintro ⟨given, record, gives, reads, finished⟩
    have places := functionPlaces reads (keys gives)
    exact ⟨given, gives, (spellsFunctionIn_iff places (keys gives) (below gives)).mpr finished⟩
  · rintro ⟨given, gives, spells⟩
    obtain ⟨record, reads⟩ := exists_reads fun member found record =>
      exists_memberStep (keys gives) (below gives) spells found (gives.known member found) record
    have places := functionPlaces reads (keys gives)
    exact ⟨given, record, gives, reads,
      (spellsFunctionIn_iff places (keys gives) (below gives)).mp spells⟩

theorem functionList_eq_ok {index : Nat} {items : List Value}
    (distinct : ∀ item ∈ items, item.Distinct) {functions : List FunctionSpec} :
    functionList index items = .ok functions ↔
      List.Forall₂ SpellsFunction functions items := by
  induction items generalizing index functions with
  | nil => simp [functionList, @eq_comm _ []]
  | cons item rest ih =>
      obtain ⟨first, later⟩ := List.forall_mem_cons.mp distinct
      simp only [functionList, ok_of_bind, Decoded.ok_of_under, ok_of_pure, ih later,
        function_eq_ok_iff first, List.forall₂_cons_right_iff]
      constructor
      · rintro ⟨function, spells, others, each, rfl⟩
        exact ⟨function, others, spells, each, rfl⟩
      · rintro ⟨function, others, spells, each, rfl⟩
        exact ⟨function, spells, others, each, rfl⟩

/-- A value decodes to functions just when it spells them. -/
theorem document_eq_ok_iff {value : Value} (distinct : value.Distinct)
    (functions : List FunctionSpec) :
    document value = .ok functions ↔ SpellsDocument functions value := by
  constructor
  · intro decoded
    cases value with
    | array items =>
        exact .list ((functionList_eq_ok (Json.itemsDistinct_iff.mp distinct)).mp decoded)
    | _ =>
        simp only [document, ok_of_bind, ok_of_pure] at decoded
        obtain ⟨function, decoded, rfl⟩ := decoded
        exact .single (fun _ => Value.noConfusion) ((function_eq_ok_iff distinct).mp decoded)
  · intro spells
    cases spells with
    | list each => exact (functionList_eq_ok (Json.itemsDistinct_iff.mp distinct)).mpr each
    | @single function value other spells =>
        have decoded := (function_eq_ok_iff distinct).mpr spells
        cases value with
        | array items => exact absurd rfl (other items)
        | _ => simp [document, decoded]

/-- A document that mixes both kinds of records at every depth, with a kind given as an object, an
integer by its other name and members out of order. -/
def surveyDocument : Value :=
  .array
    [.object
      [("parameters", .object
        [("site-1", .array [.string "object", .bool false, .null, .null, .object
          [("height", .object
            [("precision", .number (.integer 6)), ("type", .object [("float", .null)])])]]),
         ("tags", .object
          [("element_type", .array [.string "enum", .bool true, .string "A tag.", .null, .null,
              .null, .array [.string "wet", .string "dry"]]),
           ("type", .string "array"), ("enum", .null)])]),
       ("name", .string "survey")],
     .array [.string "count_all", .string "Counts.",
      .object [("limit", .object [("type", .string "number")])]]]

def surveyFunctions : List FunctionSpec :=
  [{ name := "survey"
     description := ""
     parameters :=
      [("site-1", .object ⟨false, none⟩
        [("height", .float .plain (some ⟨6, by decide, by decide⟩))]),
       ("tags", .array .plain
        (.enum ⟨true, some "A tag."⟩ ⟨["wet", "dry"], by decide, by decide⟩))] },
   { name := "count_all"
     description := "Counts."
     parameters := [("limit", .integer .plain .number)] }]

theorem document_eq_ok_iff_survey :
    surveyDocument.Distinct ∧ document surveyDocument = .ok surveyFunctions ∧
      SpellsDocument surveyFunctions surveyDocument := by
  have distinct : surveyDocument.Distinct := by
    simp [surveyDocument, Value.Distinct, Json.ItemsDistinct, Json.MembersDistinct]
  have decoded : document surveyDocument = .ok surveyFunctions := rfl
  exact ⟨distinct, decoded, (document_eq_ok_iff distinct surveyFunctions).mp decoded⟩

end ToolGrammar.Schema.FromValue
