import ToolGrammar.Proofs.Schema.Agreement
import ToolGrammar.Proofs.Schema.Defects
import ToolGrammar.Proofs.Schema.Locality

namespace ToolGrammar.Schema

open Json (Tree Items Members Value)

/-- The fields that have been read for the record have different names. -/
def ParameterRecord.Settled (record : ParameterRecord) : Prop :=
  ∀ own, record.fields.join = some own → (own.map (·.1)).Nodup

def FunctionRecord.Settled (record : FunctionRecord) : Prop :=
  ∀ own, record.parameters = some own → (own.map (·.1)).Nodup

section

variable {name : String}

theorem not_firstDefect_duplicateField {fields : Fields} (distinct : (fields.map (·.1)).Nodup) :
    ¬ FirstDefect fields (.duplicateField name) := by
  intro defect
  obtain ⟨before, own, parameter, after, rfl, -, told⟩ := defect
  cases told with
  | repeated word known =>
      rw [List.map_append, List.map_cons, List.nodup_append] at distinct
      exact distinct.2.2 name known name List.mem_cons_self rfl

theorem Parameter.checkedFloat_ne_duplicateField (digits : Option Nat) :
    Parameter.checkedFloat digits ≠ .error (.duplicateField name) := by
  intro refused
  cases digits with
  | none => cases refused
  | some digits =>
      rw [Parameter.checkedFloat, error_of_map, Precision.checked] at refused
      split at refused
      · split at refused <;> cases refused
      · cases refused

theorem ParameterRecord.Settled.parameterOf_ne {record : ParameterRecord}
    (settled : record.Settled) (kind : Kind) :
    record.parameterOf kind ≠ .error (.duplicateField name) := by
  intro refused
  rw [parameterOf] at refused
  split at refused
  · cases refused
  · cases kind with
    | string | boolean | integer | number => cases refused
    | float => simp [Parameter.checkedFloat_ne_duplicateField] at refused
    | object =>
        cases given : record.fields.join with
        | none => simp [given] at refused
        | some own =>
            have sound := settled own given
            simp [given, Parameter.checkedObject_eq_error,
              not_firstDefect_duplicateField sound] at refused
    | array => cases given : record.element.join <;> simp [given] at refused
    | enum =>
        cases given : record.values.join <;>
          simp [given, Parameter.checkedEnum, EnumValues.checked_eq_error] at refused

theorem ParameterRecord.Settled.finish_ne {record : ParameterRecord} (settled : record.Settled)
    {refusal : Refusal} (refused : record.finish = .error refusal) :
    refusal.cause ≠ .invalid (.duplicateField name) := by
  rcases FromValue.parameter_finish_error refused with ⟨-, rfl⟩ | ⟨error, rfl⟩
  · exact Refusal.Cause.noConfusion
  · rintro ⟨⟩
    rw [finish] at refused
    cases held : record.kind with
    | none => simp [held, Refusal.here] at refused
    | some kind =>
        simp [held, Refusal.here, settled.parameterOf_ne] at refused

theorem FunctionRecord.Settled.finish_ne {record : FunctionRecord} (settled : record.Settled)
    {refusal : Refusal} (refused : record.finish = .error refusal) :
    refusal.cause ≠ .invalid (.duplicateField name) := by
  rcases FromValue.function_finish_error refused with ⟨-, rfl⟩ | ⟨error, rfl⟩
  · exact Refusal.Cause.noConfusion
  · rintro ⟨⟩
    rw [finish] at refused
    cases held : record.name with
    | none => simp [held, Refusal.here] at refused
    | some own =>
        have sound : ((record.parameters.getD []).map (·.1)).Nodup := by
          cases given : record.parameters with
          | none => exact List.nodup_nil
          | some own => exact settled own given
        simp [held, Refusal.here, FunctionSpec.checked_eq_error,
          not_firstDefect_duplicateField sound] at refused

end

/-- No refusal tells of a repeated field. -/
def Unnoticed {α : Type} (decoded : Decoded α) : Prop :=
  ∀ refusal name, decoded = .error refusal → refusal.cause ≠ .invalid (.duplicateField name)

namespace FromValue

variable {value : Value} {given : Given}

theorem nodup_of_fields (distinct : value.Distinct) {own : Fields}
    (decoded : fields value = .ok own) : (own.map (·.1)).Nodup := by
  cases value with
  | object members =>
      rw [keys_eq_of_forall₂ And.left (namedParameters_eq_ok.mp decoded)]
      exact distinct.1
  | _ => cases decoded

theorem ParameterPlaces.settled {record : ParameterRecord} (places : ParameterPlaces given record)
    (names : (given.map (·.1)).Nodup) (distinct : ∀ member ∈ given, member.2.Distinct) :
    record.Settled := by
  intro own held
  obtain ⟨value, member, -, decoded⟩ := (places.fields.join_eq_some_iff names).mp held
  exact nodup_of_fields (distinct _ member) decoded

theorem FunctionPlaces.settled {record : FunctionRecord} (places : FunctionPlaces given record)
    (names : (given.map (·.1)).Nodup) (distinct : ∀ member ∈ given, member.2.Distinct) :
    record.Settled := by
  intro own held
  obtain ⟨value, member, decoded⟩ := (places.parameters.eq_some_iff names).mp held
  exact nodup_of_fields (distinct _ member) decoded

theorem not_violates_duplicateField {type : RecordType} (distinct : value.Distinct)
    (name : String) : ¬ Violates type value (.duplicateField name) := by
  intro violates
  cases type with
  | function =>
      obtain ⟨record, read, refused⟩ := violates
      obtain ⟨given, gives, reads⟩ := exists_members_of_recordOf read
      have names := gives.nodup distinct (by decide)
      have settled := (functionPlaces reads names).settled names fun member found =>
        distinct.part _ (gives.mem_parts member found)
      exact settled.finish_ne refused rfl
  | parameter =>
      obtain ⟨record, read, refused⟩ := violates
      obtain ⟨given, gives, reads⟩ := exists_attributes_of_recordOf read
      have names := gives.nodup distinct (by decide)
      have settled := (parameterPlaces reads names).settled names fun member found =>
        distinct.part _ (gives.mem_parts member found)
      exact settled.finish_ne refused rfl

theorem distinct_of_at? {path : Json.Path} {inner : Value} (distinct : value.Distinct)
    (found : value.at? path = some inner) : inner.Distinct := by
  induction path generalizing value with
  | nil => exact Option.some.inj found ▸ distinct
  | cons step path ih =>
      obtain ⟨child, first, later⟩ := Option.bind_eq_some_iff.mp
        ((value.at?_cons step path).symm.trans found)
      exact ih (distinct.of_child? first) later

theorem unnoticed_document (distinct : value.Distinct) : Unnoticed (document value) := by
  intro refusal name refused same
  obtain ⟨path, type, record, own, there, owns, rfl⟩ := exists_own_of_document distinct refused
  have accounts := owns.accounts
  rw [show own.cause = .invalid (.duplicateField name) from same] at accounts
  exact not_violates_duplicateField (distinct_of_at? distinct there.at?) name accounts.2

end FromValue

section

variable {α β : Type} {decoded : Decoded α}

theorem Unnoticed.of_ok (value : α) : Unnoticed (.ok value : Decoded α) :=
  nofun

theorem Unnoticed.of_error {refusal : Refusal} (other : ∀ error, refusal.cause ≠ .invalid error) :
    Unnoticed (.error refusal : Decoded α) := by
  intro _ name refused
  cases refused
  exact other _

theorem Unnoticed.bind {next : α → Decoded β} (first : Unnoticed decoded)
    (rest : ∀ value, decoded = .ok value → Unnoticed (next value)) :
    Unnoticed (decoded >>= next) := by
  intro refusal name refused
  rcases error_of_bind.mp refused with failed | ⟨value, success, failed⟩
  · exact first refusal name failed
  · exact rest value success refusal name failed

theorem Unnoticed.mapError {tell : Refusal → Refusal} (first : Unnoticed decoded)
    (same : ∀ refusal, (tell refusal).cause = refusal.cause) :
    Unnoticed (decoded.mapError tell) := by
  intro refusal name refused
  obtain ⟨inner, failed, rfl⟩ := error_of_mapError.mp refused
  rw [same]
  exact first inner name failed

theorem Unnoticed.under {step : Json.Step} (first : Unnoticed decoded) :
    Unnoticed (Decoded.under step decoded) :=
  first.mapError fun _ => rfl

theorem Unnoticed.settle {position : Json.Position} (first : Unnoticed decoded) :
    Unnoticed (Decoded.settle position decoded) :=
  first.mapError fun _ => rfl

theorem Unnoticed.map (first : Unnoticed decoded) (use : α → β) :
    Unnoticed (decoded.map use) :=
  fun refusal name refused => first refusal name (error_of_map.mp refused)

end

namespace FromText

theorem unnoticed_ofFault {α : Type} (fault : Json.Fault) :
    Unnoticed (.error (.ofFault fault) : Decoded α) :=
  .of_error fun _ => Refusal.Cause.noConfusion

theorem unnoticed_mismatch {α : Type} (tree : Tree) (expected : Expected) :
    Unnoticed (mismatch tree expected : Decoded α) := by
  cases tree with
  | scalar | array | object => exact .of_error fun _ => Refusal.Cause.noConfusion
  | broken _ fault => exact unnoticed_ofFault fault

theorem unnoticed_string (tree : Tree) : Unnoticed (string tree) := by
  unfold string
  split
  · exact .of_ok _
  · exact unnoticed_mismatch _ _

theorem unnoticed_bool (tree : Tree) : Unnoticed (bool tree) := by
  unfold bool
  split
  · exact .of_ok _
  · exact unnoticed_mismatch _ _

theorem unnoticed_count (tree : Tree) : Unnoticed (count tree) := by
  unfold count
  split
  · intro refusal name refused
    obtain ⟨cause, failed, rfl⟩ := error_of_mapError.mp refused
    unfold countOf at failed
    split at failed
    · split at failed <;> cases failed
      exact Refusal.Cause.noConfusion
    · cases failed
      exact Refusal.Cause.noConfusion
  · exact unnoticed_mismatch _ _

theorem unnoticed_optional {α : Type} {decode : Tree → Decoded α} {tree : Tree}
    (own : Unnoticed (decode tree)) : Unnoticed (optional decode tree) := by
  unfold optional
  split
  · exact .of_ok _
  · exact own.map some

theorem unnoticed_stringItems (index : Nat) (items : Items) :
    Unnoticed (stringItems index items) := by
  cases items with
  | close => exact .of_ok _
  | broken _ fault => exact unnoticed_ofFault fault
  | item value rest =>
      refine (unnoticed_string value).under.bind fun _ _ => ?_
      exact (unnoticed_stringItems (index + 1) rest).bind fun _ _ => .of_ok _

theorem unnoticed_strings (tree : Tree) : Unnoticed (strings tree) := by
  unfold strings
  split
  · exact unnoticed_stringItems 0 _
  · exact unnoticed_mismatch _ _

theorem unnoticed_kindOfName (name : String) (stop : Json.Position) :
    Unnoticed (kindOfName name stop) := by
  unfold kindOfName
  split
  · exact .of_ok _
  · exact .of_error fun _ => Refusal.Cause.noConfusion

theorem unnoticed_kindEnd (kind : Kind) (members : Members) : Unnoticed (kindEnd kind members) := by
  cases members with
  | close => exact .of_ok _
  | broken | member | bare => exact .of_error fun _ => Refusal.Cause.noConfusion

theorem unnoticed_kindMembers (members : Members) : Unnoticed (kindMembers members) := by
  cases members with
  | close => exact .of_error fun _ => Refusal.Cause.noConfusion
  | broken _ fault => exact unnoticed_ofFault fault
  | bare _ name keyStop _ fault =>
      exact (unnoticed_kindOfName name keyStop).bind fun _ _ => unnoticed_ofFault fault
  | member _ name keyStop _ value rest =>
      refine (unnoticed_kindOfName name keyStop).bind fun kind _ => ?_
      split
      · exact unnoticed_kindEnd kind rest
      · exact (unnoticed_mismatch _ _).under

theorem unnoticed_kind (tree : Tree) : Unnoticed (kind tree) := by
  unfold kind
  split
  · exact unnoticed_kindOfName _ _
  · exact unnoticed_kindMembers _
  · split
    · exact unnoticed_ofFault _
    · exact .of_error fun _ => Refusal.Cause.noConfusion
  · exact .of_error fun _ => Refusal.Cause.noConfusion

theorem unnoticed_keyRefusal {α : Type} (fault : Json.Fault) :
    Unnoticed (.error (keyRefusal fault) : Decoded α) := by
  unfold keyRefusal
  split
  · exact unnoticed_ofFault fault
  · exact .of_error fun _ => Refusal.Cause.noConfusion

theorem unnoticed_recordEnd {α : Type} (result : α) (items : Items) :
    Unnoticed (recordEnd result items) := by
  cases items with
  | close => exact .of_ok _
  | item | broken => exact .of_error fun _ => Refusal.Cause.noConfusion

theorem unnoticed_withAttribute {tree : Tree} (record : ParameterRecord) (property : Attribute)
    (ownFields : Unnoticed (fields tree)) (ownParameter : Unnoticed (parameter tree)) :
    Unnoticed (withAttribute record property tree (fun _ => fields tree)
      (fun _ => parameter tree)) := by
  cases property with
  | kind => exact (unnoticed_kind tree).bind fun _ _ => .of_ok _
  | required => exact (unnoticed_bool tree).bind fun _ _ => .of_ok _
  | description =>
      exact (unnoticed_optional (unnoticed_string tree)).bind fun _ _ => .of_ok _
  | precision => exact (unnoticed_optional (unnoticed_count tree)).bind fun _ _ => .of_ok _
  | fields =>
      exact (@unnoticed_optional _ (fun _ => fields tree) tree ownFields).bind
        fun _ _ => .of_ok _
  | element =>
      exact (@unnoticed_optional _ (fun _ => parameter tree) tree ownParameter).bind
        fun _ _ => .of_ok _
  | values => exact (unnoticed_optional (unnoticed_strings tree)).bind fun _ _ => .of_ok _

/-- A record whose members have been read from a text has settled fields, for the members of its
value give the same record. -/
theorem settled_of_membersOf {members : Members} {both : ParameterRecord × Json.Position}
    (read : membersOf .empty members = .ok both) : both.1.Settled := by
  obtain ⟨⟨whole, unread⟩, decoded⟩ :=
    (membersOf_alike members .empty).forth (ok_of_map.mpr ⟨both, read, rfl⟩)
  have places := FromValue.parameterPlaces (FromValue.membersOf_eq_ok.mp decoded) unread.1
  exact places.settled unread.1 (Json.membersDistinct_iff.mp members.values_distinct)

theorem settled_of_itemsOf {items : Items} {record : ParameterRecord}
    (read : itemsOf 0 .empty Attribute.all items = .ok record) : record.Settled := by
  have decoded := ((@itemsOf_alike items 0 .empty Attribute.all 0).forth read).2
  obtain ⟨-, -, reads⟩ := FromValue.itemsOf_eq_ok.mp decoded
  have names : (((Attribute.all.map (·.name)).zip items.values).map (·.1)).Nodup :=
    List.Nodup.sublist (keys_zip_sublist _ _) (by decide)
  refine (FromValue.parameterPlaces reads names).settled names fun member found => ?_
  exact Json.itemsDistinct_iff.mp items.values_distinct _ (List.of_mem_zip found).2

mutual

theorem unnoticed_parameter : (tree : Tree) → Unnoticed (parameter tree)
  | .scalar start stop value => unnoticed_mismatch (.scalar start stop value) (.record .parameter)
  | .broken start fault => unnoticed_mismatch (.broken start fault) (.record .parameter)
  | .object _ members => by
      refine (unnoticed_membersOf .empty members).bind fun both read => ?_
      refine Unnoticed.mapError (fun _ _ => (settled_of_membersOf read).finish_ne) fun refusal => ?_
      split <;> rfl
  | .array _ items => by
      refine (unnoticed_itemsOf 0 .empty Attribute.all items).bind fun record read => ?_
      exact fun _ _ => (settled_of_itemsOf read).finish_ne

theorem unnoticed_membersOf (record : ParameterRecord) :
    (members : Members) → Unnoticed (membersOf record members)
  | .close _ => .of_ok _
  | .broken _ fault => unnoticed_keyRefusal fault
  | .bare _ name _ here fault => by
      unfold membersOf
      split
      · exact .of_error fun _ => Refusal.Cause.noConfusion
      · split
        · exact .of_error fun _ => Refusal.Cause.noConfusion
        · exact unnoticed_ofFault fault
  | .member _ name _ colon value rest => by
      unfold membersOf
      split
      · exact .of_error fun _ => Refusal.Cause.noConfusion
      · split
        · exact .of_error fun _ => Refusal.Cause.noConfusion
        · refine (unnoticed_withAttribute _ _ (unnoticed_fields value)
            (unnoticed_parameter value)).settle.under.bind fun next _ => ?_
          exact unnoticed_membersOf next rest

theorem unnoticed_itemsOf (index : Nat) (record : ParameterRecord) (properties : List Attribute) :
    (items : Items) → Unnoticed (itemsOf index record properties items)
  | .close _ => by
      unfold itemsOf
      split
      · exact .of_error fun _ => Refusal.Cause.noConfusion
      · exact .of_ok _
  | .broken _ fault => by
      unfold itemsOf
      split
      · exact unnoticed_recordEnd _ _
      · exact unnoticed_ofFault fault
  | .item value rest => by
      unfold itemsOf
      split
      · exact unnoticed_recordEnd _ _
      · refine (unnoticed_withAttribute _ _ (unnoticed_fields value)
          (unnoticed_parameter value)).settle.under.bind fun next _ => ?_
        exact unnoticed_itemsOf _ next _ rest

theorem unnoticed_fields : (tree : Tree) → Unnoticed (fields tree)
  | .scalar start stop value => unnoticed_mismatch (.scalar start stop value) .object
  | .array start items => unnoticed_mismatch (.array start items) .object
  | .broken start fault => unnoticed_mismatch (.broken start fault) .object
  | .object _ members => (unnoticed_namedParameters members).map _

theorem unnoticed_namedParameters : (members : Members) → Unnoticed (namedParameters members)
  | .close _ => .of_ok _
  | .broken _ fault => unnoticed_keyRefusal fault
  | .bare _ _ _ _ fault => unnoticed_ofFault fault
  | .member _ name _ _ value rest => by
      refine (unnoticed_parameter value).settle.under.bind fun _ _ => ?_
      exact (unnoticed_namedParameters rest).bind fun _ _ => .of_ok _

end

theorem unnoticed_withMember (record : FunctionRecord) (member : FunctionMember) (tree : Tree) :
    Unnoticed (withMember record member tree) := by
  cases member with
  | name | description => exact (unnoticed_string tree).bind fun _ _ => .of_ok _
  | parameters => exact (unnoticed_fields tree).bind fun _ _ => .of_ok _

theorem unnoticed_functionMembers (record : FunctionRecord) (members : Members) :
    Unnoticed (functionMembers record members) := by
  cases members with
  | close => exact .of_ok _
  | broken _ fault => exact unnoticed_keyRefusal fault
  | bare _ name _ here fault =>
      unfold functionMembers
      split
      · exact .of_error fun _ => Refusal.Cause.noConfusion
      · split
        · exact .of_error fun _ => Refusal.Cause.noConfusion
        · exact unnoticed_ofFault fault
  | member _ name _ colon value rest =>
      unfold functionMembers
      split
      · exact .of_error fun _ => Refusal.Cause.noConfusion
      · split
        · exact .of_error fun _ => Refusal.Cause.noConfusion
        · refine (unnoticed_withMember _ _ value).under.bind fun next _ => ?_
          exact unnoticed_functionMembers next rest

theorem unnoticed_functionItems (index : Nat) (record : FunctionRecord)
    (members : List FunctionMember) (items : Items) :
    Unnoticed (functionItems index record members items) := by
  cases items with
  | close =>
      unfold functionItems
      split
      · exact .of_error fun _ => Refusal.Cause.noConfusion
      · exact .of_ok _
  | broken _ fault =>
      unfold functionItems
      split
      · exact unnoticed_recordEnd _ _
      · exact unnoticed_ofFault fault
  | item value rest =>
      unfold functionItems
      split
      · exact unnoticed_recordEnd _ _
      · refine (unnoticed_withMember _ _ value).under.bind fun next _ => ?_
        exact unnoticed_functionItems _ next _ rest

theorem settled_of_functionMembers {members : Members} {both : FunctionRecord × Json.Position}
    (read : functionMembers .empty members = .ok both) : both.1.Settled := by
  obtain ⟨⟨whole, unread⟩, decoded⟩ :=
    (functionMembers_alike members .empty).forth (ok_of_map.mpr ⟨both, read, rfl⟩)
  have places := FromValue.functionPlaces (FromValue.functionMembers_eq_ok.mp decoded) unread.1
  exact places.settled unread.1 (Json.membersDistinct_iff.mp members.values_distinct)

theorem settled_of_functionItems {items : Items} {record : FunctionRecord}
    (read : functionItems 0 .empty FunctionMember.all items = .ok record) : record.Settled := by
  have decoded := ((@functionItems_alike items 0 .empty FunctionMember.all 0).forth read).2
  obtain ⟨-, -, reads⟩ := FromValue.functionItems_eq_ok.mp decoded
  have names : (((FunctionMember.all.map (·.text)).zip items.values).map (·.1)).Nodup :=
    List.Nodup.sublist (keys_zip_sublist _ _) (by decide)
  refine (FromValue.functionPlaces reads names).settled names fun member found => ?_
  exact Json.itemsDistinct_iff.mp items.values_distinct _ (List.of_mem_zip found).2

theorem unnoticed_function (tree : Tree) : Unnoticed (function tree) := by
  cases tree with
  | scalar start stop value =>
      exact unnoticed_mismatch (.scalar start stop value) (.record .function)
  | broken start fault => exact unnoticed_mismatch (.broken start fault) (.record .function)
  | object _ members =>
      refine (unnoticed_functionMembers .empty members).bind fun both read => ?_
      refine Unnoticed.mapError (fun _ _ => (settled_of_functionMembers read).finish_ne)
        fun refusal => ?_
      split <;> rfl
  | array _ items =>
      refine (unnoticed_functionItems 0 .empty FunctionMember.all items).bind fun record read => ?_
      exact fun _ _ => (settled_of_functionItems read).finish_ne

theorem unnoticed_functionList (index : Nat) (items : Items) :
    Unnoticed (functionList index items) := by
  cases items with
  | close => exact .of_ok _
  | broken _ fault => exact unnoticed_ofFault fault
  | item value rest =>
      refine (unnoticed_function value).settle.under.bind fun _ _ => ?_
      exact (unnoticed_functionList (index + 1) rest).bind fun _ _ => .of_ok _

theorem unnoticed_functions (tree : Tree) : Unnoticed (functions tree) := by
  cases tree with
  | scalar start stop value => exact unnoticed_mismatch (.scalar start stop value) .array
  | object start members => exact unnoticed_mismatch (.object start members) .array
  | broken start fault => exact unnoticed_mismatch (.broken start fault) .array
  | array _ items => exact unnoticed_functionList 0 items

end FromText

end ToolGrammar.Schema
