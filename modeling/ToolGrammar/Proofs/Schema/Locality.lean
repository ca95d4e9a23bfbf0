import ToolGrammar.Proofs.Schema.Decoding
import ToolGrammar.Proofs.Schema.Failure

/-!
Refusals and the nodes that they point to. A record within a document is refused for what is refused
of it alone, with the rest of the path; so every refusal is that of one record, which is the last
one on the path, and what is told of this record holds of it whatever is around it.
-/
namespace ToolGrammar.Schema

open Json (Value Path Step)

/-- The member that holds parameters under names. -/
def RecordType.fieldsMember : RecordType → String
  | .function => FunctionMember.parameters.text
  | .parameter => Attribute.fields.name

/-- The member that no record of the type is without. -/
def RecordType.requiredMember : RecordType → String
  | .function => FunctionMember.name.text
  | .parameter => Attribute.kind.name

/-- The same refusal seen from a node from which the path leads to where it was. -/
def Refusal.within (path : Path) (refusal : Refusal) : Refusal :=
  { refusal with path := path ++ refusal.path }

/-- A record that gives its members by position has the first of them, so one that lacks it is an
object. -/
theorem Gives.object_of_absent {names : List String} {value : Value} {given : Given}
    {first : String}
    (gives : Gives (first :: names) value given) (absent : ∀ child, (first, child) ∉ given) :
    ∃ members, value = .object members ∧ first ∉ members.map (·.1) := by
  cases gives with
  | byName known =>
      refine ⟨given, rfl, fun listed => ?_⟩
      obtain ⟨⟨name, child⟩, member, rfl⟩ := List.mem_map.mp listed
      exact absent child member
  | @byPosition items some few =>
      cases items with
      | nil => exact absurd rfl some
      | cons item rest => exact absurd List.mem_cons_self (absent item)

namespace FromValue

variable {type inner : RecordType} {root value child record : Value} {refusal : Refusal}
  {steps path rest : Path} {step : Step} {name : String}

/-- The value alone is refused as a record of the type. -/
def Refuses : RecordType → Value → Refusal → Prop
  | .function, value, refusal => function value = .error refusal
  | .parameter, value, refusal => parameter value = .error refusal

/-- The steps lead from a record to a parameter record right within it: one that it holds under a
name, or the element. -/
inductive Below (type : RecordType) (value : Value) : Path → Value → Prop
  | field {step : Step} {name : String} {fields child : Value}
      (slot : type.slot? step = some type.fieldsMember) (found : value.child? step = some fields)
      (member : fields.child? (.member name) = some child) :
      Below type value [step, .member name] child
  | element {step : Step} {child : Value} (slot : type.slot? step = some Attribute.element.name)
      (found : value.child? step = some child) : Below type value [step] child

/-- The path leads from a record to one within it, at any depth. -/
inductive Leads : RecordType → Value → Path → RecordType → Value → Prop
  | here (type : RecordType) (value : Value) : Leads type value [] type value
  | within {type inner : RecordType} {value child record : Value} {steps path : Path}
      (first : Below type value steps child) (later : Leads .parameter child path inner record) :
      Leads type value (steps ++ path) inner record

/-- The path leads from the root of a document to a record of the type. -/
inductive RecordAt : Value → Path → RecordType → Value → Prop
  | single {type : RecordType} {value record : Value} {path : Path}
      (other : ∀ items, value ≠ .array items) (leads : Leads .function value path type record) :
      RecordAt value path type record
  | item {type : RecordType} {items : List Value} {index : Nat} {item record : Value} {path : Path}
      (found : (Value.array items).child? (.item index) = some item)
      (leads : Leads .function item path type record) :
      RecordAt (.array items) (.item index :: path) type record

theorem Below.distinct (below : Below type value steps child) (distinct : value.Distinct) :
    child.Distinct := by
  cases below with
  | field slot found member => exact (distinct.of_child? found).of_child? member
  | element slot found => exact distinct.of_child? found

theorem Below.at? (below : Below type value steps child) : value.at? steps = some child := by
  cases below with
  | field slot found member => simp [found, member]
  | element slot found => simp [found]

/-- The first step leads to a member that holds records, and to a record itself only if that is the
element. -/
theorem Below.slot (below : Below type value steps child) : ∃ step more name,
    steps = step :: more ∧ type.slot? step = some name ∧
      (name = type.fieldsMember ∧ more ≠ [] ∨ name = Attribute.element.name) := by
  cases below with
  | field slot => exact ⟨_, _, _, rfl, slot, .inl ⟨rfl, List.cons_ne_nil _ _⟩⟩
  | element slot => exact ⟨_, _, _, rfl, slot, .inr rfl⟩

theorem fieldsMember_ne_element (type : RecordType) :
    type.fieldsMember ≠ Attribute.element.name := by
  cases type <;> decide

/-- Where one path leads to records right within a record by two ways, both are the same. -/
theorem Below.unique {others : Path} {other : Value} {more : Path}
    (below : Below type value steps child) (again : Below type value others other)
    (same : steps ++ rest = others ++ more) : child = other ∧ rest = more := by
  cases below with
  | field slot found member =>
      cases again with
      | field slot' found' member' => simp_all
      | element slot' found' =>
          obtain ⟨rfl, -⟩ := List.cons.inj same
          exact absurd (Option.some.inj (slot.symm.trans slot')) (fieldsMember_ne_element type)
  | element slot found =>
      cases again with
      | field slot' found' member' =>
          obtain ⟨rfl, -⟩ := List.cons.inj same
          exact absurd (Option.some.inj (slot'.symm.trans slot)) (fieldsMember_ne_element type)
      | element slot' found' => simp_all

theorem Leads.at? (leads : Leads type value path inner record) : value.at? path = some record := by
  induction leads with
  | here => rfl
  | within first later ih => rw [Value.at?_append, first.at?, Option.bind_some, ih]

theorem RecordAt.at? (there : RecordAt root path type record) :
    root.at? path = some record := by
  cases there with
  | single other leads => exact leads.at?
  | item found leads => rw [Value.at?_cons, found, Option.bind_some, leads.at?]

/-- All members have been read, and the check of the record finds this error. -/
def Violates : RecordType → Value → SchemaError → Prop
  | .function, value, error => ∃ record, functionFormat.recordOf value = .ok record ∧
      record.finish = .error (.here (.invalid error))
  | .parameter, value, error => ∃ record, parameterFormat.recordOf value = .ok record ∧
      record.finish = .error (.here (.invalid error))

/-- What a record is refused for itself, and not for a record within it. -/
inductive Own (type : RecordType) : Value → Refusal → Prop
  | form {value : Value} {cause : Refusal.Cause} (form : cause.OfForm) :
      Own type value (.here cause)
  | content {value child : Value} {step : Step} {name : String} {refusal : Refusal}
      (slot : type.slot? step = some name) (found : value.child? step = some child)
      (noElement : name ≠ Attribute.element.name) (misformed : Misformed child refusal)
      (near : name = type.fieldsMember → refusal.path = []) : Own type value (refusal.under step)
  | unknown {members : List (String × Value)} {name : String} (given : name ∈ members.map (·.1))
      (unknown : name ∉ type.members) : Own type (.object members)
        ((Refusal.here (.unknownMember type name)).under (.member name))
  | missing {members : List (String × Value)}
      (lacks : type.requiredMember ∉ members.map (·.1)) :
      Own type (.object members) (.here (.missingMember type.requiredMember))
  | invalid {value : Value} {error : SchemaError} (violates : Violates type value error) :
      Own type value (.here (.invalid error))

/-- A record is refused for what one right within it is refused for. -/
def FromBelow (type : RecordType) (value : Value) (refusal : Refusal) : Prop :=
  ∃ steps child inner, Below type value steps child ∧ Refuses .parameter child inner ∧
    refusal = inner.within steps

/-- What the value of one member is refused for. -/
inductive MemberRefused (type : RecordType) (name : String) (value : Value) (refusal : Refusal) :
    Prop
  | fields (same : name = type.fieldsMember) (refused : fields value = .error refusal)
  | element (same : name = Attribute.element.name) (refused : parameter value = .error refusal)
  | plain (noFields : name ≠ type.fieldsMember) (noElement : name ≠ Attribute.element.name)
      (misformed : Misformed value refusal)

theorem attribute_refused {record : ParameterRecord} {property : Attribute}
    (refused : parameterFormat.read record property value = .error refusal) :
    MemberRefused .parameter property.name value refusal := by
  cases property <;>
    simp only [parameterFormat, withAttribute, optional_self fields, optional_self parameter,
      error_of_bind, error_of_pure, and_false, exists_false, or_false] at refused
  case kind => exact .plain (by decide) (by decide) (misformed_of_kind refused)
  case required => exact .plain (by decide) (by decide) (misformed_of_bool refused)
  case description =>
    exact .plain (by decide) (by decide) (misformed_of_string (error_of_optional refused))
  case precision =>
    exact .plain (by decide) (by decide) (misformed_of_count (error_of_optional refused))
  case values =>
    exact .plain (by decide) (by decide) (misformed_of_strings (error_of_optional refused))
  case fields => exact .fields rfl (error_of_optional refused)
  case element => exact .element rfl (error_of_optional refused)

theorem member_refused {record : FunctionRecord} {own : FunctionMember}
    (refused : functionFormat.read record own value = .error refusal) :
    MemberRefused .function own.text value refusal := by
  cases own <;>
    simp only [functionFormat, withMember, error_of_bind, error_of_pure, and_false, exists_false,
      or_false] at refused
  case name => exact .plain (by decide) (by decide) (misformed_of_string refused)
  case description => exact .plain (by decide) (by decide) (misformed_of_string refused)
  case parameters => exact .fields rfl refused

/-- A refusal for a member is the record's own or that of a record right within it. -/
theorem MemberRefused.own_or_below (refused : MemberRefused type name child refusal)
    (distinct : value.Distinct) (slot : type.slot? step = some name)
    (found : value.child? step = some child) :
    Own type value (refusal.under step) ∨ FromBelow type value (refusal.under step) := by
  cases refused with
  | fields same refused =>
      subst same
      cases child with
      | object members =>
          obtain ⟨name, node, inner, member, failed, rfl⟩ :=
            exists_of_namedParameters_error refused
          have deeper := (distinct.of_child? found).child?_of_mem member
          exact .inr ⟨_, node, inner, .field slot found deeper, failed, rfl⟩
      | _ =>
          cases refused
          exact .inl (.content slot found (fieldsMember_ne_element type) (misformed_here trivial)
            fun _ => rfl)
  | element same refused =>
      subst same
      exact .inr ⟨_, child, refusal, .element slot found, refused, rfl⟩
  | plain noFields noElement misformed =>
      exact .inl (.content slot found noElement misformed fun same => absurd same noFields)

theorem own_or_below_of_refused {μ ρ α : Type} {format : Format μ ρ α} (distinct : value.Distinct)
    (refused : format.Refused value refusal)
    (members : ∀ {record own child inner}, format.read record own child = .error inner →
      MemberRefused format.type (format.text own) child inner)
    (finish : ∀ {record refusal}, format.recordOf value = .ok record →
      format.finish record = .error refusal → Own format.type value refusal) :
    Own format.type value refusal ∨ FromBelow format.type value refusal := by
  cases refused with
  | shapeless => exact .inl (.form trivial)
  | empty => exact .inl (.form trivial)
  | tooMany => exact .inl (.form trivial)
  | unknown given unknown => exact .inl (.unknown given unknown)
  | member slot found refused => exact (members refused).own_or_below distinct slot found
  | unfinished read refused => exact .inl (finish read refused)

theorem parameter_finish_error {record : ParameterRecord}
    (refused : record.finish = .error refusal) :
    record.kind = none ∧ refusal = .here (.missingMember Attribute.kind.name) ∨
      ∃ error, refusal = .here (.invalid error) := by
  rw [ParameterRecord.finish] at refused
  cases kind : record.kind with
  | none =>
      rw [kind] at refused
      exact .inl ⟨rfl, (Except.error.inj refused).symm⟩
  | some own =>
      simp only [kind, Decoded.error_of_ofChecked] at refused
      obtain ⟨error, -, rfl⟩ := refused
      exact .inr ⟨error, rfl⟩

theorem function_finish_error {record : FunctionRecord}
    (refused : record.finish = .error refusal) :
    record.name = none ∧ refusal = .here (.missingMember FunctionMember.name.text) ∨
      ∃ error, refusal = .here (.invalid error) := by
  rw [FunctionRecord.finish] at refused
  cases name : record.name with
  | none =>
      rw [name] at refused
      exact .inl ⟨rfl, (Except.error.inj refused).symm⟩
  | some own =>
      simp only [name, Decoded.error_of_ofChecked] at refused
      obtain ⟨error, -, rfl⟩ := refused
      exact .inr ⟨error, rfl⟩

theorem exists_attributes_of_recordOf {record : ParameterRecord}
    (read : parameterFormat.recordOf value = .ok record) :
    ∃ given, Gives parameterMembers value given ∧ Reads AttributeStep .empty given record := by
  cases value with
  | object members =>
      have reads := membersOf_eq_ok.mp ((membersOf_eq _ _).trans read)
      refine ⟨members, .byName (reads.forall_mem ?_), reads⟩
      rintro _ _ _ ⟨property, named, -⟩
      exact named ▸ parameterFormat.text_mem_members property
  | array items =>
      obtain ⟨some, few, reads⟩ := itemsOf_eq_ok.mp ((itemsOf_eq ..).trans read)
      exact ⟨_, .byPosition (fun none => some none rfl) few, reads⟩
  | _ => cases read

theorem exists_members_of_recordOf {record : FunctionRecord}
    (read : functionFormat.recordOf value = .ok record) :
    ∃ given, Gives Schema.functionMembers value given ∧ Reads MemberStep .empty given record := by
  cases value with
  | object members =>
      have reads := functionMembers_eq_ok.mp ((functionMembers_eq _ _).trans read)
      refine ⟨members, .byName (reads.forall_mem ?_), reads⟩
      rintro _ _ _ ⟨own, named, -⟩
      exact named ▸ functionFormat.text_mem_members own
  | array items =>
      obtain ⟨some, few, reads⟩ := functionItems_eq_ok.mp ((functionItems_eq ..).trans read)
      exact ⟨_, .byPosition (fun none => some none rfl) few, reads⟩
  | _ => cases read

theorem own_of_parameter_finish (distinct : value.Distinct) {record : ParameterRecord}
    (read : parameterFormat.recordOf value = .ok record)
    (refused : record.finish = .error refusal) : Own .parameter value refusal := by
  rcases parameter_finish_error refused with ⟨none, rfl⟩ | ⟨error, rfl⟩
  · obtain ⟨given, gives, reads⟩ := exists_attributes_of_recordOf read
    have places := parameterPlaces reads (gives.nodup distinct (by decide))
    obtain ⟨members, rfl, lacks⟩ := gives.object_of_absent (places.kind.eq_none_iff.mp none)
    exact .missing lacks
  · exact .invalid ⟨record, read, refused⟩

theorem own_of_function_finish (distinct : value.Distinct) {record : FunctionRecord}
    (read : functionFormat.recordOf value = .ok record)
    (refused : record.finish = .error refusal) : Own .function value refusal := by
  rcases function_finish_error refused with ⟨none, rfl⟩ | ⟨error, rfl⟩
  · obtain ⟨given, gives, reads⟩ := exists_members_of_recordOf read
    have places := functionPlaces reads (gives.nodup distinct (by decide))
    obtain ⟨members, rfl, lacks⟩ := gives.object_of_absent (places.name.eq_none_iff.mp none)
    exact .missing lacks
  · exact .invalid ⟨record, read, refused⟩

/-- A record is refused for itself or for one right within it. -/
theorem Refuses.own_or_below (distinct : value.Distinct) (refused : Refuses type value refusal) :
    Own type value refusal ∨ FromBelow type value refusal := by
  cases type with
  | function =>
      have refused := (function_eq value).symm.trans refused
      exact own_or_below_of_refused distinct (functionFormat.refused_of_error distinct refused)
        member_refused (own_of_function_finish distinct)
  | parameter =>
      have refused := (parameter_eq value).symm.trans refused
      exact own_or_below_of_refused distinct (parameterFormat.refused_of_error distinct refused)
        attribute_refused (own_of_parameter_finish distinct)

/-- What a record is refused for itself does not lie in a record within it. -/
theorem Own.not_below (own : Own type value refusal) (below : Below type value steps child) :
    refusal.path ≠ steps ++ rest := by
  intro same
  obtain ⟨step, more, name, rfl, slot, nested⟩ := below.slot
  cases own with
  | form | missing | invalid => cases same
  | content own found noElement misformed near =>
      obtain ⟨rfl, deeper⟩ := List.cons.inj same
      obtain rfl := Option.some.inj (own.symm.trans slot)
      rcases nested with ⟨fields, some⟩ | element
      · rw [near fields] at deeper
        exact some (List.append_eq_nil_iff.mp deeper.symm).1
      · exact noElement element
  | unknown given unknown =>
      obtain ⟨rfl, -⟩ := List.cons.inj same
      cases (if_neg unknown).symm.trans slot

/-- A record right within a refused one, on the path of the refusal, is refused alone. -/
theorem Refuses.of_below (distinct : value.Distinct) (refused : Refuses type value refusal)
    (below : Below type value steps child) (on : refusal.path = steps ++ rest) :
    Refuses .parameter child { refusal with path := rest } := by
  rcases refused.own_or_below distinct with own | ⟨others, other, inner, again, failed, rfl⟩
  · exact absurd on (own.not_below below)
  · obtain ⟨rfl, rfl⟩ := again.unique below on
    exact failed

/-- So is a record at any depth. -/
theorem Refuses.of_leads (leads : Leads type value path inner record) (distinct : value.Distinct)
    (refused : Refuses type value refusal) (on : refusal.path = path ++ rest) :
    Refuses inner record { refusal with path := rest } := by
  induction leads generalizing refusal with
  | here =>
      obtain rfl : refusal.path = rest := on
      exact refused
  | within first later ih =>
      rw [List.append_assoc] at on
      have deeper := ih (first.distinct distinct) (refused.of_below distinct first on) rfl
      exact deeper

/-- Every refusal is that of one record, seen from the records around it. -/
theorem Refuses.exists_own {type : RecordType} {value : Value} {refusal : Refusal}
    (distinct : value.Distinct) (refused : Refuses type value refusal) :
    ∃ path inner record own, Leads type value path inner record ∧ Own inner record own ∧
      refusal = own.within path := by
  rcases refused.own_or_below distinct with own | ⟨steps, child, inner, below, failed, rfl⟩
  · exact ⟨[], type, value, refusal, .here type value, own, rfl⟩
  · have shorter : inner.path.length < (inner.within steps).path.length := by
      cases below <;> simp [Refusal.within]
    obtain ⟨path, innermost, record, own, leads, owns, rfl⟩ :=
      exists_own (below.distinct distinct) failed
    exact ⟨steps ++ path, innermost, record, own, .within below leads, owns, by
      simp [Refusal.within]⟩
termination_by refusal.path.length

/-- A document is refused as a single function, or one of its items is. -/
theorem refused_function (refused : document root = .error refusal) :
    (∀ items, root ≠ .array items) ∧ Refuses .function root refusal ∨
      ∃ items i item inner, root = .array items ∧
        (Value.array items).child? (.item i) = some item ∧ Refuses .function item inner ∧
        refusal = inner.under (.item i) := by
  cases root with
  | array items =>
      have refused : functionList 0 items = .error refusal := refused
      obtain ⟨i, item, inner, found, failed, rfl⟩ :=
        exists_of_items_error function functionList (fun _ => rfl) (fun _ _ _ => rfl) refused
      exact .inr ⟨items, i, item, inner, rfl, found, failed, by rw [Nat.zero_add]⟩
  | _ =>
      simp only [document, error_of_bind, error_of_pure, and_false, exists_false, or_false]
        at refused
      exact .inl ⟨fun _ => Value.noConfusion, refused⟩

theorem refuses_of_recordAt (distinct : root.Distinct) (refused : document root = .error refusal)
    (on : refusal.path = path ++ rest) (there : RecordAt root path type record) :
    Refuses type record { refusal with path := rest } := by
  rcases refused_function refused with
    ⟨single, refuses⟩ | ⟨items, i, item, inner, rfl, found, refuses, rfl⟩
  · cases there with
    | single other leads => exact refuses.of_leads leads distinct on
    | item => exact absurd rfl (single _)
  · cases there with
    | single other => exact absurd rfl (other _)
    | item again leads =>
        obtain ⟨same, later⟩ := List.cons.inj on
        obtain rfl := Step.item.inj same
        obtain rfl := Option.some.inj (found.symm.trans again)
        have deeper := refuses.of_leads leads (distinct.of_child? found) later
        exact deeper

theorem exists_own_of_document (distinct : root.Distinct)
    (refused : document root = .error refusal) :
    ∃ path type record own, RecordAt root path type record ∧ Own type record own ∧
      refusal = own.within path := by
  rcases refused_function refused with
    ⟨single, refuses⟩ | ⟨items, i, item, inner, rfl, found, refuses, rfl⟩
  · obtain ⟨path, type, record, own, leads, owns, rfl⟩ := refuses.exists_own distinct
    exact ⟨path, type, record, own, .single single leads, owns, rfl⟩
  · obtain ⟨path, type, record, own, leads, owns, rfl⟩ :=
      refuses.exists_own (distinct.of_child? found)
    exact ⟨_, type, record, own, .item found leads, owns, rfl⟩

theorem Own.node (own : Own type value refusal) : (value.at? refusal.path).isSome := by
  cases own with
  | form | missing | invalid => rfl
  | content slot found noElement misformed near =>
      simpa [Refusal.under, found] using misformed.node
  | unknown given unknown =>
      obtain ⟨child, found⟩ := Keyed.exists_lookup? given
      simp [Refusal.under, Refusal.here, Value.child?, found]

/-- What the cause of a refusal tells of the record that is refused for it, and of where it points
to from there: an unknown member is a member of the record, and a record that lacks a member or
violates an invariant is at the end of the path. -/
def Accounts (type : RecordType) (record : Value) (rest : Path) : Refusal.Cause → Prop
  | .unknownMember inner name => inner = type ∧ rest = [.member name] ∧ ∃ members,
      record = .object members ∧ name ∈ members.map (·.1) ∧ name ∉ type.members
  | .missingMember name => name = type.requiredMember ∧ rest = [] ∧ ∃ members,
      record = .object members ∧ name ∉ members.map (·.1)
  | .invalid error => rest = [] ∧ Violates type record error
  | cause => cause.OfForm ∧ rest.length ≤ 2

theorem Own.accounts (own : Own type value refusal) :
    Accounts type value refusal.path refusal.cause := by
  have formal {cause : Refusal.Cause} (form : cause.OfForm) {rest : Path} (near : rest.length ≤ 2) :
      Accounts type value rest cause := by
    cases cause <;> first | exact ⟨form, near⟩ | cases form
  cases own with
  | form form => exact formal form (Nat.zero_le 2)
  | content slot found noElement misformed near =>
      exact formal misformed.form (Nat.succ_le_succ misformed.near)
  | unknown given unknown => exact ⟨rfl, rfl, _, rfl, given, unknown⟩
  | missing lacks => exact ⟨rfl, rfl, _, rfl, lacks⟩
  | invalid violates => exact ⟨rfl, violates⟩

/-- A refusal of a document, its path and what its cause tells. -/
structure Located (root : Value) (refusal : Refusal) : Prop where
  /-- The steps lead from the root to a node. -/
  node : ∃ node, root.at? refusal.path = some node
  /-- Every record on the way is refused alone, for the same cause and with the rest of the path. -/
  alone : ∀ path rest type record, refusal.path = path ++ rest → RecordAt root path type record →
    root.at? path = some record ∧ Refuses type record { refusal with path := rest }
  /-- What the cause tells holds of a record on the way. -/
  cause : ∃ path rest type record, refusal.path = path ++ rest ∧
    RecordAt root path type record ∧ Accounts type record rest refusal.cause

/-- Paths are exact and refusals are local: nothing around a record has a part in what it is
refused for. -/
theorem refusal_located (distinct : root.Distinct) (refused : document root = .error refusal) :
    Located root refusal := by
  obtain ⟨path, type, record, own, there, owns, rfl⟩ := exists_own_of_document distinct refused
  refine ⟨?_, fun path rest type record on there => ⟨there.at?, ?_⟩, path, own.path, type, record,
    rfl, there, owns.accounts⟩
  · rw [Refusal.within, Value.at?_append, there.at?]
    exact Option.isSome_iff_exists.mp owns.node
  · exact refuses_of_recordAt distinct refused on there

/-- A record by position that holds, under a name and as an element, an enumeration of nothing. -/
def sampledSite : Value :=
  .array [.string "object", .bool true, .null, .null, .object
    [("tags", .object [("type", .string "array"), ("element_type", .array
      [.string "enum", .bool true, .null, .null, .null, .null, .array []])])]]

def samplingDocument : Value :=
  .array
    [.array [.string "ping"],
     .object [("name", .string "sample"), ("parameters", .object [("site", sampledSite)])]]

def samplingRefusal : Refusal :=
  ⟨[.item 1, .member "parameters", .member "site", .item 4, .member "tags", .member "element_type"],
    .invalid .emptyEnum, none⟩

theorem refusal_located_sampling :
    samplingDocument.Distinct ∧ document samplingDocument = .error samplingRefusal ∧
      Located samplingDocument samplingRefusal ∧
      parameter sampledSite = .error { samplingRefusal with
        path := [.item 4, .member "tags", .member "element_type"] } := by
  have distinct : samplingDocument.Distinct := by
    simp [samplingDocument, sampledSite, Value.Distinct, Json.ItemsDistinct, Json.MembersDistinct]
  have refused : document samplingDocument = .error samplingRefusal := rfl
  have located := refusal_located distinct refused
  have site : RecordAt samplingDocument [.item 1, .member "parameters", .member "site"] .parameter
      sampledSite :=
    .item rfl (.within (.field rfl rfl rfl) (.here .parameter sampledSite))
  exact ⟨distinct, refused, located, (located.alone _ _ _ _ rfl site).2⟩

end FromValue

end ToolGrammar.Schema
