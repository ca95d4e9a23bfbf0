import ToolGrammar.Proofs.Json.Nodes
import ToolGrammar.Proofs.Schema.Records

namespace ToolGrammar.Schema

open Json (Value Step)

section

variable {ε ε' α β : Type}

@[simp]
theorem error_of_bind {first : Except ε α} {next : α → Except ε β} {failure : ε} :
    (first >>= next) = .error failure ↔
      first = .error failure ∨ ∃ value, first = .ok value ∧ next value = .error failure := by
  cases first <;> simp [bind, Except.bind]

@[simp]
theorem error_of_pure {value : α} {failure : ε} :
    (pure value : Except ε α) = .error failure ↔ False := by
  simp [pure, Except.pure]

@[simp]
theorem error_of_throw {told failure : ε} :
    (throw told : Except ε α) = .error failure ↔ told = failure := by
  simp [throw, throwThe, MonadExceptOf.throw]

@[simp]
theorem error_of_map {decoded : Except ε α} {use : α → β} {failure : ε} :
    decoded.map use = .error failure ↔ decoded = .error failure := by
  cases decoded <;> simp [Except.map]

@[simp]
theorem error_of_functorMap {decoded : Except ε α} {use : α → β} {failure : ε} :
    use <$> decoded = .error failure ↔ decoded = .error failure :=
  error_of_map

@[simp]
theorem error_of_mapError {decoded : Except ε α} {tell : ε → ε'} {failure : ε'} :
    decoded.mapError tell = .error failure ↔
      ∃ inner, decoded = .error inner ∧ tell inner = failure := by
  cases decoded <;> simp [Except.mapError]

@[simp]
theorem Decoded.error_of_under {step : Step} {decoded : Decoded α} {refusal : Refusal} :
    Decoded.under step decoded = .error refusal ↔
      ∃ inner, decoded = .error inner ∧ inner.under step = refusal :=
  error_of_mapError

@[simp]
theorem Decoded.error_of_ofChecked {checked : Except SchemaError α} {refusal : Refusal} :
    Decoded.ofChecked checked = .error refusal ↔
      ∃ error, checked = .error error ∧ Refusal.here (.invalid error) = refusal :=
  error_of_mapError

end

/-- A value is not of the form that is called for, whatever any members say. -/
def Refusal.Cause.OfForm : Cause → Prop
  | .mismatch .. | .countOutOfRange _ | .kindNotSingle | .unknownKind _ | .emptyRecord _
  | .tooManyItems _ => True
  | _ => False

/-- The value, or a node right below it, is not of the form that is called for. -/
structure Misformed (value : Value) (refusal : Refusal) : Prop where
  form : refusal.cause.OfForm
  node : (value.at? refusal.path).isSome
  near : refusal.path.length ≤ 1

variable {value : Value} {refusal : Refusal}

theorem misformed_here {cause : Refusal.Cause} (form : cause.OfForm) :
    Misformed value (.here cause) :=
  ⟨form, rfl, Nat.zero_le 1⟩

namespace FromValue

theorem misformed_of_mismatch {α : Type} {expected : Expected}
    (refused : (mismatch value expected : Decoded α) = .error refusal) :
    Misformed value refusal := by
  cases refused
  exact misformed_here trivial

theorem eq_of_string_error (refused : string value = .error refusal) :
    refusal = .here (.mismatch (found value) .string) := by
  cases value with
  | string text => cases refused
  | _ => exact (Except.error.inj refused).symm

theorem misformed_of_string (refused : string value = .error refusal) :
    Misformed value refusal :=
  eq_of_string_error refused ▸ misformed_here trivial

theorem misformed_of_bool (refused : bool value = .error refusal) : Misformed value refusal := by
  cases value with
  | bool truth => cases refused
  | _ => exact misformed_of_mismatch refused

theorem misformed_of_count (refused : count value = .error refusal) : Misformed value refusal := by
  cases value with
  | number number =>
      obtain ⟨cause, failed, rfl⟩ := error_of_mapError.mp refused
      refine misformed_here ?_
      cases number with
      | integer n =>
          simp only [countOf] at failed
          split at failed
          · cases failed
          · exact Except.error.inj failed ▸ trivial
      | real x => exact Except.error.inj failed ▸ trivial
  | _ => exact misformed_of_mismatch refused

theorem misformed_of_kindOfName {name : String} (refused : kindOfName name = .error refusal) :
    Misformed value refusal := by
  rw [kindOfName] at refused
  split at refused
  · cases refused
  · exact Except.error.inj refused ▸ misformed_here trivial

theorem misformed_of_kind (refused : kind value = .error refusal) : Misformed value refusal := by
  cases value with
  | string name => exact misformed_of_kindOfName refused
  | object members =>
      match members with
      | [] => exact Except.error.inj refused ▸ misformed_here trivial
      | [(name, inner)] =>
          rcases error_of_bind.mp refused with unknown | ⟨own, -, refused⟩
          · exact misformed_of_kindOfName unknown
          · have single : (Value.object [(name, inner)]).at? [.member name] = some inner := by
              simp [Value.child?, Keyed.lookup?]
            cases inner with
            | null => cases refused
            | _ =>
                cases refused
                exact ⟨trivial, Option.isSome_iff_exists.mpr ⟨_, single⟩, Nat.le_refl 1⟩
      | _ :: _ :: _ => exact Except.error.inj refused ▸ misformed_here trivial
  | _ => exact misformed_of_mismatch refused

/-- Items decoded one after another, each under its index, are refused for one of them. -/
theorem exists_of_items_error {α : Type} (decode : Value → Decoded α)
    (each : Nat → List Value → Decoded (List α)) (nil : ∀ index, each index [] = .ok [])
    (cons : ∀ index item rest, each index (item :: rest) = do
      let first ← Decoded.under (.item index) (decode item)
      return first :: (← each (index + 1) rest))
    {index : Nat} {items : List Value} (refused : each index items = .error refusal) :
    ∃ i item inner, items[i]? = some item ∧ decode item = .error inner ∧
      refusal = inner.under (.item (index + i)) := by
  induction items generalizing index with
  | nil => simp [nil] at refused
  | cons item rest ih =>
      simp only [cons, error_of_bind, Decoded.error_of_under, error_of_pure, and_false,
        exists_false, or_false] at refused
      rcases refused with ⟨inner, failed, rfl⟩ | ⟨first, -, later⟩
      · exact ⟨0, item, inner, rfl, failed, rfl⟩
      · obtain ⟨i, other, inner, found, failed, rfl⟩ := ih later
        exact ⟨i + 1, other, inner, found, failed, by rw [Nat.add_right_comm, Nat.add_assoc]⟩

theorem exists_of_namedParameters_error {members : List (String × Value)}
    (refused : namedParameters members = .error refusal) :
    ∃ name child inner, (name, child) ∈ members ∧ parameter child = .error inner ∧
      refusal = inner.under (.member name) := by
  induction members with
  | nil => cases refused
  | cons member rest ih =>
      obtain ⟨name, value⟩ := member
      simp only [namedParameters, error_of_bind, Decoded.error_of_under, error_of_pure, and_false,
        exists_false, or_false] at refused
      rcases refused with ⟨inner, failed, rfl⟩ | ⟨first, -, later⟩
      · exact ⟨name, value, inner, List.mem_cons_self, failed, rfl⟩
      · obtain ⟨other, child, inner, found, cause⟩ := ih later
        exact ⟨other, child, inner, List.mem_cons_of_mem _ found, cause⟩

theorem misformed_of_strings (refused : strings value = .error refusal) :
    Misformed value refusal := by
  cases value with
  | array items =>
      obtain ⟨i, item, inner, member, failed, rfl⟩ :=
        exists_of_items_error string stringItems (fun _ => rfl) (fun _ _ _ => rfl) refused
      rw [eq_of_string_error failed, Nat.zero_add]
      exact ⟨trivial, by simp [Refusal.under, Refusal.here, Value.child?, member], Nat.le_refl 1⟩
  | _ => exact misformed_of_mismatch refused

theorem error_of_optional {α : Type} {decode : Value → Decoded α}
    (refused : optional decode value = .error refusal) : decode value = .error refusal := by
  cases value with
  | null => cases refused
  | _ => exact error_of_map.mp refused

end FromValue

/-- The member of a record that a step leads to: an item is the member of its position. -/
def RecordType.slot? (type : RecordType) : Step → Option String
  | .member name => if name ∈ type.members then some name else none
  | .item index => type.members[index]?
  | .unknown => none

namespace FromValue

/-- A type of records: the members that it has, how each of them is read into a record, and what
becomes of a record that has been read. -/
structure Format (μ ρ α : Type) where
  type : RecordType
  all : List μ
  text : μ → String
  ofText? : String → Option μ
  read : ρ → μ → Value → Decoded ρ
  empty : ρ
  finish : ρ → Decoded α
  members : all.map text = type.members
  complete : ∀ member, member ∈ all
  ofText?_text : ∀ member, ofText? (text member) = some member
  text_of_ofText? : ∀ {name member}, ofText? name = some member → text member = name

def parameterFormat : Format Attribute ParameterRecord Parameter where
  type := .parameter
  all := Attribute.all
  text := Attribute.name
  ofText? := Attribute.ofName?
  read record property value :=
    withAttribute record property value (fun _ => fields value) fun _ => parameter value
  empty := .empty
  finish := ParameterRecord.finish
  members := rfl
  complete member := by cases member <;> decide
  ofText?_text _ := Attribute.ofName?_eq_some.mpr rfl
  text_of_ofText? := Attribute.ofName?_eq_some.mp

def functionFormat : Format FunctionMember FunctionRecord FunctionSpec where
  type := .function
  all := FunctionMember.all
  text := FunctionMember.text
  ofText? := FunctionMember.ofText?
  read := withMember
  empty := .empty
  finish := FunctionRecord.finish
  members := rfl
  complete member := by cases member <;> decide
  ofText?_text _ := FunctionMember.ofText?_eq_some.mpr rfl
  text_of_ofText? := FunctionMember.ofText?_eq_some.mp

namespace Format

variable {μ ρ α : Type} (format : Format μ ρ α) {members : List (String × Value)}
  {items : List Value} {todo : List μ} {record : ρ} {index total : Nat}

def readMembers (record : ρ) : List (String × Value) → Decoded ρ
  | [] => .ok record
  | (name, value) :: rest =>
      match format.ofText? name with
      | none => .error (Refusal.here (.unknownMember format.type name) |>.under (.member name))
      | some member => do
          readMembers (← Decoded.under (.member name) (format.read record member value)) rest

def readItems (total index : Nat) (record : ρ) (todo : List μ) : List Value → Decoded ρ
  | [] => if index = 0 then .error (.here (.emptyRecord format.type)) else .ok record
  | value :: rest =>
      match todo with
      | [] => .error (.here (.tooManyItems total))
      | member :: todo => do
          readItems total (index + 1)
            (← Decoded.under (.item index) (format.read record member value)) todo rest

/-- Reads all members of a record. -/
def recordOf : Value → Decoded ρ
  | .object members => format.readMembers format.empty members
  | .array items => format.readItems items.length 0 format.empty format.all items
  | other => mismatch other (.record format.type)

/-- Why a record is refused. -/
inductive Refused (format : Format μ ρ α) : Value → Refusal → Prop
  | shapeless {value : Value} :
      Refused format value (.here (.mismatch (found value) (.record format.type)))
  | empty : Refused format (.array []) (.here (.emptyRecord format.type))
  | tooMany {items : List Value} (many : format.type.members.length < items.length) :
      Refused format (.array items) (.here (.tooManyItems items.length))
  | unknown {members : List (String × Value)} {name : String}
      (given : name ∈ members.map (·.1)) (unknown : name ∉ format.type.members) :
      Refused format (.object members)
        ((Refusal.here (.unknownMember format.type name)).under (.member name))
  | member {value child : Value} {step : Step} {own : μ} {record : ρ} {refusal : Refusal}
      (slot : format.type.slot? step = some (format.text own))
      (found : value.child? step = some child)
      (refused : format.read record own child = .error refusal) :
      Refused format value (refusal.under step)
  | unfinished {value : Value} {record : ρ} {refusal : Refusal}
      (read : format.recordOf value = .ok record)
      (refused : format.finish record = .error refusal) : Refused format value refusal

theorem text_mem_members (own : μ) : format.text own ∈ format.type.members :=
  format.members ▸ List.mem_map_of_mem (format.complete own)

variable {format}

theorem exists_of_readMembers_error
    (refused : format.readMembers record members = .error refusal) :
    ∃ name value, (name, value) ∈ members ∧
      (name ∉ format.type.members ∧
          refusal = (Refusal.here (.unknownMember format.type name)).under (.member name) ∨
        ∃ before own inner, format.text own = name ∧ format.read before own value = .error inner ∧
          refusal = inner.under (.member name)) := by
  induction members generalizing record with
  | nil => cases refused
  | cons member rest ih =>
      obtain ⟨name, value⟩ := member
      rw [readMembers] at refused
      cases known : format.ofText? name with
      | none =>
          rw [known] at refused
          refine ⟨name, value, List.mem_cons_self, .inl ⟨fun listed => ?_, ?_⟩⟩
          · rw [← format.members] at listed
            obtain ⟨own, -, rfl⟩ := List.mem_map.mp listed
            simp [format.ofText?_text] at known
          · exact (Except.error.inj refused).symm
      | some own =>
          simp only [known, error_of_bind, Decoded.error_of_under] at refused
          rcases refused with ⟨inner, failed, rfl⟩ | ⟨next, -, later⟩
          · exact ⟨name, value, List.mem_cons_self,
              .inr ⟨record, own, inner, format.text_of_ofText? known, failed, rfl⟩⟩
          · obtain ⟨other, child, found, cause⟩ := ih later
            exact ⟨other, child, List.mem_cons_of_mem _ found, cause⟩

theorem exists_of_readItems_error
    (refused : format.readItems total index record todo items = .error refusal) :
    (items = [] ∧ index = 0 ∧ refusal = .here (.emptyRecord format.type)) ∨
    (todo.length < items.length ∧ refusal = .here (.tooManyItems total)) ∨
    ∃ i before own child inner, todo[i]? = some own ∧ items[i]? = some child ∧
      format.read before own child = .error inner ∧ refusal = inner.under (.item (index + i)) := by
  induction items generalizing index record todo with
  | nil =>
      rw [readItems] at refused
      split at refused
      · rename_i first
        exact .inl ⟨rfl, first, (Except.error.inj refused).symm⟩
      · cases refused
  | cons item rest ih =>
      cases todo with
      | nil => exact .inr (.inl ⟨Nat.zero_lt_succ _, (Except.error.inj refused).symm⟩)
      | cons own todo =>
          simp only [readItems, error_of_bind, Decoded.error_of_under] at refused
          rcases refused with ⟨inner, failed, rfl⟩ | ⟨next, -, later⟩
          · exact .inr (.inr ⟨0, record, own, item, inner, rfl, rfl, failed, rfl⟩)
          · rcases ih later with
              ⟨-, first, -⟩ | ⟨many, rfl⟩ | ⟨i, before, other, child, inner, rest⟩
            · cases first
            · exact .inr (.inl ⟨Nat.succ_lt_succ many, rfl⟩)
            · obtain ⟨own, found, failed, rfl⟩ := rest
              exact .inr (.inr ⟨i + 1, before, other, child, inner, own, found, failed,
                by rw [Nat.add_right_comm, Nat.add_assoc]⟩)

/-- A record that is refused is so for one of these reasons. -/
theorem refused_of_error (distinct : value.Distinct)
    (refused : format.recordOf value >>= format.finish = .error refusal) :
    format.Refused value refusal := by
  rcases error_of_bind.mp refused with unread | ⟨record, read, unfinished⟩
  · cases value with
    | object members =>
        obtain ⟨name, child, found, ⟨unknown, rfl⟩ | ⟨before, own, inner, rfl, failed, rfl⟩⟩ :=
          exists_of_readMembers_error unread
        · exact .unknown (List.mem_map_of_mem found) unknown
        · refine .member ?_ (distinct.child?_of_mem found) failed
          exact if_pos (format.text_mem_members own)
    | array items =>
        rcases exists_of_readItems_error unread with ⟨rfl, -, rfl⟩ | ⟨many, rfl⟩ |
          ⟨i, before, own, child, inner, position, found, failed, rfl⟩
        · exact .empty
        · refine .tooMany ?_
          rwa [← format.members, List.length_map]
        · rw [Nat.zero_add]
          refine .member ?_ found failed
          rw [RecordType.slot?, ← format.members, List.getElem?_map, position, Option.map_some]
    | _ => exact Except.error.inj unread ▸ .shapeless
  · exact .unfinished read unfinished

end Format

theorem membersOf_eq (record : ParameterRecord) (members : List (String × Value)) :
    membersOf record members = parameterFormat.readMembers record members := by
  induction members generalizing record with
  | nil => rfl
  | cons member rest ih =>
      obtain ⟨name, value⟩ := member
      have known : parameterFormat.ofText? name = Attribute.ofName? name := rfl
      rw [membersOf, Format.readMembers, known]
      cases Attribute.ofName? name with
      | none => rfl
      | some own => exact bind_congr fun _ => ih _

theorem itemsOf_eq (total index : Nat) (record : ParameterRecord) (todo : List Attribute)
    (items : List Value) :
    itemsOf total index record todo items =
      parameterFormat.readItems total index record todo items := by
  induction items generalizing index record todo with
  | nil => rw [itemsOf, Format.readItems]; rfl
  | cons item rest ih =>
      cases todo with
      | nil => rfl
      | cons own todo =>
          rw [itemsOf, Format.readItems]
          exact bind_congr fun _ => ih _ _ _

theorem parameter_eq (value : Value) :
    parameter value = parameterFormat.recordOf value >>= ParameterRecord.finish := by
  cases value with
  | object members => rw [parameter, membersOf_eq]; rfl
  | array items => rw [parameter, itemsOf_eq]; rfl
  | _ => rfl

theorem functionMembers_eq (record : FunctionRecord) (members : List (String × Value)) :
    functionMembers record members = functionFormat.readMembers record members := by
  induction members generalizing record with
  | nil => rfl
  | cons member rest ih =>
      obtain ⟨name, value⟩ := member
      have known : functionFormat.ofText? name = FunctionMember.ofText? name := rfl
      rw [functionMembers, Format.readMembers, known]
      cases FunctionMember.ofText? name with
      | none => rfl
      | some own => exact bind_congr fun _ => ih _

theorem functionItems_eq (total index : Nat) (record : FunctionRecord) (todo : List FunctionMember)
    (items : List Value) :
    functionItems total index record todo items =
      functionFormat.readItems total index record todo items := by
  induction items generalizing index record todo with
  | nil => rw [functionItems, Format.readItems]; rfl
  | cons item rest ih =>
      cases todo with
      | nil => rfl
      | cons own todo =>
          rw [functionItems, Format.readItems]
          exact bind_congr fun _ => ih _ _ _

theorem function_eq (value : Value) :
    function value = functionFormat.recordOf value >>= FunctionRecord.finish := by
  cases value with
  | object members => rw [function, functionMembers_eq]; rfl
  | array items => rw [function, functionItems_eq]; rfl
  | _ => rfl

end FromValue

end ToolGrammar.Schema
