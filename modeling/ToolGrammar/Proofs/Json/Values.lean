import ToolGrammar.Json.Value

namespace ToolGrammar.Json

/-- The values right below a value. -/
def Value.parts : Value → List Value
  | .null | .bool _ | .number _ | .string _ => []
  | .array items => items
  | .object members => members.map (·.2)

/-- What holds of a value if it holds of its parts holds of all values. -/
theorem Value.induction {motive : Value → Prop}
    (step : ∀ value, (∀ part ∈ value.parts, motive part) → motive value) (value : Value) :
    motive value := by
  refine @Value.rec motive (fun items => ∀ item ∈ items, motive item)
    (fun members => ∀ part ∈ members.map (·.2), motive part) (fun member => motive member.2)
    ?null ?bool ?number ?string ?array ?object ?noItem ?item ?noMember ?member ?pair value
  case null => exact step .null (fun _ absent => absurd absent List.not_mem_nil)
  case bool | number | string =>
    exact fun _ => step _ (fun _ absent => absurd absent List.not_mem_nil)
  case array | object => exact fun _ each => step _ each
  case noItem | noMember => exact fun _ absent => absurd absent List.not_mem_nil
  case item | member => exact fun _ _ first later => List.forall_mem_cons.mpr ⟨first, later⟩
  case pair => exact fun _ _ holds => holds

mutual

/-- No object within the value repeats a name. -/
def Value.Distinct : Value → Prop
  | .null | .bool _ | .number _ | .string _ => True
  | .array items => ItemsDistinct items
  | .object members => (members.map (·.1)).Nodup ∧ MembersDistinct members
termination_by structural value => value

def ItemsDistinct : List Value → Prop
  | [] => True
  | item :: rest => item.Distinct ∧ ItemsDistinct rest
termination_by structural items => items

def MembersDistinct : List (String × Value) → Prop
  | [] => True
  | (_, value) :: rest => value.Distinct ∧ MembersDistinct rest
termination_by structural members => members

end

theorem itemsDistinct_iff {items : List Value} :
    ItemsDistinct items ↔ ∀ item ∈ items, item.Distinct := by
  induction items with
  | nil => simp [ItemsDistinct]
  | cons item rest ih => simp [ItemsDistinct, ih]

theorem membersDistinct_iff {members : List (String × Value)} :
    MembersDistinct members ↔ ∀ member ∈ members, member.2.Distinct := by
  induction members with
  | nil => simp [MembersDistinct]
  | cons member rest ih => simp [MembersDistinct, ih]

theorem Value.Distinct.part {value : Value} (distinct : value.Distinct) :
    ∀ part ∈ value.parts, part.Distinct := by
  cases value with
  | null | bool | number | string => simp [Value.parts]
  | array items => exact itemsDistinct_iff.mp distinct
  | object members =>
      intro part inside
      obtain ⟨member, found, rfl⟩ := List.mem_map.mp inside
      exact membersDistinct_iff.mp distinct.2 member found

end ToolGrammar.Json
