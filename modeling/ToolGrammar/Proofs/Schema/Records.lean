import ToolGrammar.Proofs.Json.Values
import ToolGrammar.Proofs.Schema.Spelling
import ToolGrammar.Proofs.Schema.Success
import ToolGrammar.Schema.FromValue

/-!
Records read member by member. Each step decodes one member into its place in the record and leaves
the other places alone, so once all is read a place holds what the member of its name decodes to,
in whichever order the members came.
-/
namespace ToolGrammar.Schema

open Json (Value)

theorem Kind.ofName?_eq_some {name : String} {kind : Kind} :
    Kind.ofName? name = some kind ↔ kind.name = name := by
  constructor
  · exact fun found => by simpa using List.find?_some found
  · rintro rfl
    cases kind <;> decide

theorem Attribute.ofName?_eq_some {name : String} {property : Attribute} :
    Attribute.ofName? name = some property ↔ property.name = name := by
  constructor
  · exact fun found => by simpa using List.find?_some found
  · rintro rfl
    cases property <;> decide

theorem Attribute.name_inj {property other : Attribute} :
    other.name = property.name ↔ other = property := by
  rw [← Attribute.ofName?_eq_some, Attribute.ofName?_eq_some.mpr rfl, Option.some_inj, eq_comm]

theorem FunctionMember.ofText?_eq_some {text : String} {member : FunctionMember} :
    FunctionMember.ofText? text = some member ↔ member.text = text := by
  constructor
  · exact fun found => by simpa using List.find?_some found
  · rintro rfl
    cases member <;> decide

theorem FunctionMember.text_inj {member other : FunctionMember} :
    other.text = member.text ↔ other = member := by
  rw [← FunctionMember.ofText?_eq_some, FunctionMember.ofText?_eq_some.mpr rfl, Option.some_inj,
    eq_comm]

variable {ρ α : Type} {step : ρ → String × Value → ρ → Prop} {record last : ρ} {given : Given}

/-- Successful steps through the members one after another. -/
inductive Reads (step : ρ → String × Value → ρ → Prop) : ρ → Given → ρ → Prop
  | nil (record : ρ) : Reads step record [] record
  | cons {record next last : ρ} {member : String × Value} {rest : Given}
      (head : step record member next) (tail : Reads step next rest last) :
      Reads step record (member :: rest) last

theorem reads_nil : Reads step record [] last ↔ last = record :=
  ⟨fun reads => by cases reads; rfl, fun same => same ▸ .nil _⟩

theorem reads_cons {member : String × Value} {rest : Given} :
    Reads step record (member :: rest) last ↔
      ∃ next, step record member next ∧ Reads step next rest last :=
  ⟨fun reads => by cases reads with | cons head tail => exact ⟨_, head, tail⟩,
    fun ⟨_, head, tail⟩ => .cons head tail⟩

theorem exists_reads (each : ∀ member ∈ given, ∀ record, ∃ next, step record member next) :
    ∃ last, Reads step record given last := by
  induction given generalizing record with
  | nil => exact ⟨record, .nil record⟩
  | cons member rest ih =>
      obtain ⟨first, later⟩ := List.forall_mem_cons.mp each
      obtain ⟨next, head⟩ := first record
      obtain ⟨last, tail⟩ := ih later
      exact ⟨last, .cons head tail⟩

theorem Reads.forall_mem {holds : String × Value → Prop} (reads : Reads step record given last)
    (each : ∀ {record member next}, step record member next → holds member) :
    ∀ member ∈ given, holds member := by
  induction reads with
  | nil => simp
  | cons head _ ih => exact List.forall_mem_cons.mpr ⟨each head, ih⟩

theorem Reads.preserves {holds : ρ → Prop} (reads : Reads step record given last)
    (each : ∀ member ∈ given, ∀ {record next}, step record member next → holds record → holds next)
    (start : holds record) : holds last := by
  induction reads with
  | nil => exact start
  | cons head _ ih =>
      obtain ⟨first, later⟩ := List.forall_mem_cons.mp each
      exact ih later (first head start)

/-- A member goes to a place if it has the place's name, and else leaves it alone. -/
def Put (name : String) (decode : Value → Decoded α) (member : String × Value)
    (before after : Option α) : Prop :=
  (member.1 = name ∧ ∃ content, decode member.2 = .ok content ∧ after = some content) ∨
    member.1 ≠ name ∧ after = before

/-- A place holds what the member of its name decodes to, or if there is none what it held
before. -/
def Filled (given : Given) (name : String) (decode : Value → Decoded α) (before after : Option α) :
    Prop :=
  (∃ value content, (name, value) ∈ given ∧ decode value = .ok content ∧ after = some content) ∨
    (∀ value, (name, value) ∉ given) ∧ after = before

theorem Reads.filled {place : ρ → Option α} {name : String} {decode : Value → Decoded α}
    (reads : Reads step record given last) (names : (given.map (·.1)).Nodup)
    (puts : ∀ {record member next}, step record member next →
      Put name decode member (place record) (place next)) :
    Filled given name decode (place record) (place last) := by
  induction reads with
  | nil record => exact .inr ⟨by simp, rfl⟩
  | @cons record next last member rest head tail ih =>
      obtain ⟨fresh, names⟩ := List.nodup_cons.mp names
      rcases ih names with ⟨value, content, found, decoded, filled⟩ | ⟨absent, kept⟩
      · exact .inl ⟨value, content, List.mem_cons_of_mem _ found, decoded, filled⟩
      · obtain ⟨key, value⟩ := member
        rcases puts head with ⟨rfl, content, decoded, filled⟩ | ⟨other, same⟩
        · exact .inl ⟨value, content, List.mem_cons_self, decoded, kept.trans filled⟩
        · refine .inr ⟨fun content found => ?_, kept.trans same⟩
          rcases List.mem_cons.mp found with first | later
          · exact other (congrArg Prod.fst first).symm
          · exact absent content later

namespace FromValue

/-- One member of a parameter record is read. -/
def AttributeStep (record : ParameterRecord) (member : String × Value) (next : ParameterRecord) :
    Prop :=
  ∃ property, property.name = member.1 ∧
    withAttribute record property member.2 (fun _ => fields member.2)
      (fun _ => parameter member.2) = .ok next

/-- One member of a function record is read. -/
def MemberStep (record : FunctionRecord) (member : String × Value) (next : FunctionRecord) : Prop :=
  ∃ own, own.text = member.1 ∧ withMember record own member.2 = .ok next

theorem membersOf_eq_ok {record last : ParameterRecord} {members : Given} :
    membersOf record members = .ok last ↔ Reads AttributeStep record members last := by
  induction members generalizing record with
  | nil => simp [membersOf, reads_nil, eq_comm]
  | cons member rest ih =>
      obtain ⟨name, value⟩ := member
      rw [reads_cons]
      cases known : Attribute.ofName? name with
      | none =>
          have unknown : ∀ property : Attribute, property.name ≠ name := fun property same => by
            simp [Attribute.ofName?_eq_some.mpr same] at known
          simp [membersOf, known, AttributeStep, unknown]
      | some property =>
          obtain rfl := Attribute.ofName?_eq_some.mp known
          simp [membersOf, known, AttributeStep, Attribute.name_inj, ih]

theorem itemsOf_eq_ok {count index : Nat} {record last : ParameterRecord}
    {properties : List Attribute} {items : List Value} :
    itemsOf count index record properties items = .ok last ↔
      (items = [] → index ≠ 0) ∧ items.length ≤ properties.length ∧
        Reads AttributeStep record ((properties.map (·.name)).zip items) last := by
  induction items generalizing index record properties with
  | nil => by_cases first : index = 0 <;> simp [itemsOf, first, reads_nil, eq_comm]
  | cons value rest ih =>
      cases properties with
      | nil => simp [itemsOf]
      | cons property properties =>
          simp [itemsOf, reads_cons, AttributeStep, Attribute.name_inj, ih, and_left_comm]

theorem functionMembers_eq_ok {record last : FunctionRecord} {members : Given} :
    functionMembers record members = .ok last ↔ Reads MemberStep record members last := by
  induction members generalizing record with
  | nil => simp [functionMembers, reads_nil, eq_comm]
  | cons member rest ih =>
      obtain ⟨name, value⟩ := member
      rw [reads_cons]
      cases known : FunctionMember.ofText? name with
      | none =>
          have unknown : ∀ own : FunctionMember, own.text ≠ name := fun own same => by
            simp [FunctionMember.ofText?_eq_some.mpr same] at known
          simp [functionMembers, known, MemberStep, unknown]
      | some own =>
          obtain rfl := FunctionMember.ofText?_eq_some.mp known
          simp [functionMembers, known, MemberStep, FunctionMember.text_inj, ih]

theorem functionItems_eq_ok {count index : Nat} {record last : FunctionRecord}
    {members : List FunctionMember} {items : List Value} :
    functionItems count index record members items = .ok last ↔
      (items = [] → index ≠ 0) ∧ items.length ≤ members.length ∧
        Reads MemberStep record ((members.map (·.text)).zip items) last := by
  induction items generalizing index record members with
  | nil => by_cases first : index = 0 <;> simp [functionItems, first, reads_nil, eq_comm]
  | cons value rest ih =>
      cases members with
      | nil => simp [functionItems]
      | cons own members =>
          simp [functionItems, reads_cons, MemberStep, FunctionMember.text_inj, ih, and_left_comm]

/-- The member has the name of the field and decodes to its parameter. -/
def DecodesField (field : String × Parameter) (member : String × Value) : Prop :=
  field.1 = member.1 ∧ parameter member.2 = .ok field.2

theorem namedParameters_eq_ok {members : Given} {own : Fields} :
    namedParameters members = .ok own ↔ List.Forall₂ DecodesField own members := by
  induction members generalizing own with
  | nil => simp [namedParameters, @eq_comm _ []]
  | cons member rest ih =>
      obtain ⟨name, value⟩ := member
      simp only [namedParameters, ok_of_bind, Decoded.ok_of_under, ok_of_pure, ih,
        List.forall₂_cons_right_iff]
      constructor
      · rintro ⟨parameter, decoded, others, each, rfl⟩
        exact ⟨(name, parameter), others, ⟨rfl, decoded⟩, each, rfl⟩
      · rintro ⟨⟨key, parameter⟩, others, ⟨rfl, decoded⟩, each, rfl⟩
        exact ⟨parameter, decoded, others, each, rfl⟩

theorem string_eq_ok {value : Value} {text : String} :
    string value = .ok text ↔ value = .string text := by
  cases value <;> simp [string, mismatch]

theorem bool_eq_ok {value : Value} {truth : Bool} :
    bool value = .ok truth ↔ value = .bool truth := by
  cases value <;> simp [bool, mismatch]

theorem count_eq_ok {value : Value} {n : Nat} :
    count value = .ok n ↔ value = .number (.integer n) ∧ n < 2 ^ 32 := by
  cases value with
  | number number =>
      cases number with
      | integer z =>
          by_cases fits : 0 ≤ z ∧ z < 4294967296 <;> simp [count, countOf, fits] <;> omega
      | real x => simp [count, countOf]
  | _ => simp [count, mismatch]

theorem optional_eq_ok {α : Type} {decode : Value → Decoded α} {value : Value}
    {result : Option α} :
    optional decode value = .ok result ↔ value = .null ∧ result = none ∨
      value ≠ .null ∧ ∃ content, decode value = .ok content ∧ result = some content := by
  cases value <;> simp [optional, @eq_comm _ none, @eq_comm _ (some _)]

theorem stringItems_eq_ok {index : Nat} {items : List Value} {texts : List String} :
    stringItems index items = .ok texts ↔ items = texts.map .string := by
  induction items generalizing index texts with
  | nil => simp [stringItems, eq_comm]
  | cons item rest ih =>
      cases texts with
      | nil => simp [stringItems]
      | cons text texts =>
          simp only [stringItems, ok_of_bind, Decoded.ok_of_under, string_eq_ok, ih, ok_of_pure,
            List.cons.injEq, List.map_cons]
          constructor
          · rintro ⟨_, first, _, later, rfl, rfl⟩
            exact ⟨first, later⟩
          · rintro ⟨first, later⟩
            exact ⟨_, first, _, later, rfl, rfl⟩

theorem strings_eq_ok {value : Value} {texts : List String} :
    strings value = .ok texts ↔ value = .array (texts.map .string) := by
  cases value <;> simp [strings, mismatch, stringItems_eq_ok]

theorem kindOfName_eq_ok {name : String} {kind : Kind} :
    kindOfName name = .ok kind ↔ kind.name = name := by
  rw [← Kind.ofName?_eq_some, kindOfName]
  cases Kind.ofName? name <;> simp

theorem kind_eq_ok {value : Value} {own : Kind} :
    kind value = .ok own ↔ SpellsKind own value := by
  cases value with
  | string name => simp [kind, kindOfName_eq_ok, SpellsKind, @eq_comm _ name]
  | object members =>
      match members with
      | [] => simp [kind, SpellsKind]
      | [(name, value)] =>
          cases value <;> simp [kind, kindOfName_eq_ok, SpellsKind, mismatch, @eq_comm _ name]
      | _ :: _ :: _ => simp [kind, SpellsKind]
  | _ => simp [kind, mismatch, SpellsKind]

end FromValue

end ToolGrammar.Schema
