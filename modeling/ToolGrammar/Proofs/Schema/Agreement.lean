import ToolGrammar.Proofs.Schema.Routes

namespace ToolGrammar.Schema

open Json (Tree Items Members Value Position)

/-- The names differ, and none of them is taken. -/
def Unread (taken : String → Prop) (names : List String) : Prop :=
  names.Nodup ∧ ∀ name ∈ names, ¬ taken name

theorem unread_cons {taken later : String → Prop} {name : String} {names : List String}
    (step : ∀ other, later other ↔ taken other ∨ other = name) :
    Unread taken (name :: names) ↔ ¬ taken name ∧ Unread later names := by
  simp only [Unread, List.nodup_cons, List.forall_mem_cons, step, not_or]
  constructor
  · rintro ⟨⟨apart, distinct⟩, first, rest⟩
    exact ⟨first, distinct, fun other member =>
      ⟨rest other member, fun same => apart (same ▸ member)⟩⟩
  · rintro ⟨first, distinct, rest⟩
    exact ⟨⟨fun again => (rest name again).2 rfl, distinct⟩, first, fun other member =>
      (rest other member).1⟩

/-- A member of this name has been read. -/
def ParameterRecord.Took (record : ParameterRecord) (name : String) : Prop :=
  ∃ property : Attribute, property.name = name ∧ record.has property = true

def FunctionRecord.Took (record : FunctionRecord) (name : String) : Prop :=
  ∃ member : FunctionMember, member.text = name ∧ record.has member = true

theorem took_of_withAttribute {record next : ParameterRecord} {property : Attribute} {value : Value}
    {fields : Unit → Decoded Fields} {parameter : Unit → Decoded Parameter}
    (step : FromValue.withAttribute record property value fields parameter = .ok next)
    (other : String) : next.Took other ↔ record.Took other ∨ other = property.name := by
  have has : ∀ own, next.has own = true ↔ record.has own = true ∨ own = property := by
    cases property <;>
      simp only [FromValue.withAttribute, ok_of_bind, ok_of_pure] at step <;>
      obtain ⟨content, -, rfl⟩ := step <;>
      rintro ⟨⟩ <;>
      simp [ParameterRecord.has]
  simp only [ParameterRecord.Took, has, and_or_left, exists_or, exists_eq_right,
    @eq_comm _ _ other]

theorem took_of_withMember {record next : FunctionRecord} {member : FunctionMember} {value : Value}
    (step : FromValue.withMember record member value = .ok next) (other : String) :
    next.Took other ↔ record.Took other ∨ other = member.text := by
  have has : ∀ own, next.has own = true ↔ record.has own = true ∨ own = member := by
    cases member <;>
      simp only [FromValue.withMember, ok_of_bind, ok_of_pure] at step <;>
      obtain ⟨content, -, rfl⟩ := step <;>
      rintro ⟨⟩ <;>
      simp [FunctionRecord.has]
  simp only [FunctionRecord.Took, has, and_or_left, exists_or, exists_eq_right,
    @eq_comm _ _ other]

section

variable {ρ α : Type} {taken : String → Prop}

/-- A member of a record that is read before the others. -/
theorem Alike.member {name : String} {value : Tree} {rest : Members} {step step' : Decoded ρ}
    {later : ρ → String → Prop} {read : ρ → Decoded (ρ × Position)} {decode : ρ → Decoded ρ}
    (first : Alike value.Whole value.Distinct step step') (fresh : ¬ taken name)
    (took : ∀ next, step' = .ok next → ∀ other, later next other ↔ taken other ∨ other = name)
    (others : ∀ next, Alike (rest.Whole ∧ Unread (later next) rest.names) rest.Distinct
      ((read next).map (·.1)) (decode next)) :
    Alike ((value.Whole ∧ rest.Whole) ∧ Unread taken (name :: rest.names))
      (value.Distinct ∧ rest.Distinct) ((step >>= read).map (·.1)) (step' >>= decode) := by
  constructor
  · intro last success
    obtain ⟨both, whole, rfl⟩ := ok_of_map.mp success
    obtain ⟨next, head, tail⟩ := ok_of_bind.mp whole
    obtain ⟨whole, head⟩ := first.forth head
    obtain ⟨⟨wholeRest, unread⟩, tail⟩ := (others next).forth (ok_of_map.mpr ⟨both, tail, rfl⟩)
    exact ⟨⟨⟨whole, wholeRest⟩, (unread_cons (took next head)).mpr ⟨fresh, unread⟩⟩,
      ok_of_bind.mpr ⟨next, head, tail⟩⟩
  · rintro last ⟨⟨whole, wholeRest⟩, unread⟩ distinct success
    obtain ⟨next, head, tail⟩ := ok_of_bind.mp success
    have unread := ((unread_cons (took next head)).mp unread).2
    obtain ⟨both, tail, same⟩ :=
      ok_of_map.mp ((others next).back ⟨wholeRest, unread⟩ distinct.2 tail)
    have head := first.back whole distinct.1 head
    exact ok_of_map.mpr ⟨both, ok_of_bind.mpr ⟨next, head, tail⟩, same⟩

/-- A record that begins with no member taken: a text in which it can be read repeats no name, so
its value has all its members. -/
theorem Alike.record {members : Members} {read : Decoded (ρ × Position)}
    {decode : List (String × Value) → Decoded ρ} {finish : ρ → Decoded α}
    {finish' : ρ × Position → Decoded α}
    (alike : Alike (members.Whole ∧ Unread taken members.names) members.Distinct
      (read.map (·.1)) (decode members.values)) (untouched : ∀ name, ¬ taken name)
    (same : ∀ both result, finish' both = .ok result ↔ finish both.1 = .ok result) :
    Alike members.Whole (members.names.Nodup ∧ members.Distinct) (read >>= finish')
      (decode (Keyed.settle members.values) >>= finish) := by
  constructor
  · intro result success
    obtain ⟨both, head, tail⟩ := ok_of_bind.mp success
    obtain ⟨⟨whole, unread⟩, head⟩ := alike.forth (ok_of_map.mpr ⟨both, head, rfl⟩)
    rw [Keyed.settle_of_nodup unread.1]
    exact ⟨whole, ok_of_bind.mpr ⟨both.1, head, (same both result).mp tail⟩⟩
  · rintro result whole ⟨names, distinct⟩ success
    rw [Keyed.settle_of_nodup names] at success
    obtain ⟨record, decoded, tail⟩ := ok_of_bind.mp success
    have unread : Unread taken members.names := ⟨names, fun name _ => untouched name⟩
    obtain ⟨both, head, rfl⟩ := ok_of_map.mp (alike.back ⟨whole, unread⟩ distinct decoded)
    exact ok_of_bind.mpr ⟨both, head, (same both result).mpr tail⟩

end

section

variable {α β : Type} {fits : String × α → String × β → Prop}

theorem forall₂_put (names : ∀ {left right}, fits left right → left.1 = right.1)
    {lefts : List (String × α)} {rights : List (String × β)} (each : List.Forall₂ fits lefts rights)
    {left : String × α} {right : String × β} (pair : fits left right) :
    List.Forall₂ fits (Keyed.put left.1 left.2 lefts) (Keyed.put right.1 right.2 rights) := by
  induction each with
  | nil => exact .cons pair .nil
  | @cons first first' _ _ head tail ih =>
      obtain ⟨key, old⟩ := first
      obtain ⟨key', old'⟩ := first'
      obtain rfl : key = key' := names head
      rw [Keyed.put, Keyed.put, ← names pair]
      by_cases same : key = left.1
      · rw [if_pos same, if_pos same]
        refine .cons ?_ tail
        rwa [same, show (left.1, right.2) = right from Prod.ext (names pair) rfl]
      · rw [if_neg same, if_neg same]
        exact .cons head (names pair ▸ ih)

theorem forall₂_settle (names : ∀ {left right}, fits left right → left.1 = right.1)
    {lefts : List (String × α)} {rights : List (String × β)}
    (each : List.Forall₂ fits lefts rights) :
    List.Forall₂ fits (Keyed.settle lefts) (Keyed.settle rights) := by
  suffices ∀ {settled settled'}, List.Forall₂ fits settled settled' → List.Forall₂ fits
      (lefts.foldl (fun settled entry => Keyed.put entry.1 entry.2 settled) settled)
      (rights.foldl (fun settled entry => Keyed.put entry.1 entry.2 settled) settled') from
    this .nil
  induction each with
  | nil => exact id
  | cons head _ ih => exact fun settled => ih (forall₂_put names settled head)

end

/-- Fields are settled after their parameters have been read from a text, and before from a
value. -/
theorem settledFields_alike {start : Position} {members : Members}
    (alike : Alike members.Whole members.Distinct (FromText.namedParameters members)
      (FromValue.namedParameters members.values)) :
    Alike members.Whole (members.names.Nodup ∧ members.Distinct)
      (FromText.fields (.object start members))
      (FromValue.fields (Tree.object start members).value) := by
  constructor
  · intro own success
    obtain ⟨written, read, rfl⟩ := ok_of_map.mp success
    obtain ⟨whole, decoded⟩ := alike.forth read
    have each := forall₂_settle And.left (FromValue.namedParameters_eq_ok.mp decoded)
    exact ⟨whole, FromValue.namedParameters_eq_ok.mpr each⟩
  · rintro own whole ⟨names, distinct⟩ success
    rw [Tree.value, Keyed.settle_of_nodup names] at success
    have each := FromValue.namedParameters_eq_ok.mp success
    have same : own.map (·.1) = members.names := keys_eq_of_forall₂ And.left each
    have read := alike.back whole distinct success
    exact ok_of_map.mpr ⟨own, read, Keyed.settle_of_nodup (same ▸ names)⟩

mutual

theorem parameter_alike : (tree : Tree) →
    Alike tree.Whole tree.Distinct (FromText.parameter tree) (FromValue.parameter tree.value)
  | .scalar _ _ value => by cases value <;> exact .failed
  | .broken .. => .broken
  | .array _ items => (itemsOf_alike items 0 .empty Attribute.all).andThen fun _ _ => Iff.rfl
  | .object _ members => by
      refine (membersOf_alike members .empty).record (fun name => ?_) fun both result => ?_
      · rintro ⟨⟨⟩, -, taken⟩ <;> cases taken
      · exact ok_of_mapError

theorem membersOf_alike : (members : Members) → (record : ParameterRecord) →
    Alike (members.Whole ∧ Unread record.Took members.names) members.Distinct
      ((FromText.membersOf record members).map (·.1)) (FromValue.membersOf record members.values)
  | .close _, record => .of_iff fun _ => by
      simp [FromText.membersOf, FromValue.membersOf, Members.Whole, Members.names, Members.values,
        Unread, Except.map]
  | .bare _ name .., record => by
      refine ⟨fun success => ?_, fun whole => whole.1.elim⟩
      simp only [FromText.membersOf, ok_of_map] at success
      obtain ⟨both, success, -⟩ := success
      split at success
      · cases success
      · split at success <;> cases success
  | .broken .., record => ⟨nofun, fun whole => whole.1.elim⟩
  | .member before name keyStop colon value rest, record => by
      cases known : Attribute.ofName? name with
      | none =>
          simp only [FromText.membersOf, Members.values, FromValue.membersOf, known]
          exact .failed
      | some property =>
          obtain rfl := Attribute.ofName?_eq_some.mp known
          by_cases taken : record.has property = true
          · refine ⟨fun success => ?_, fun whole => ?_⟩
            · simp [FromText.membersOf, known, taken, Except.map] at success
            · exact absurd ⟨property, rfl, taken⟩ (whole.2.2 _ List.mem_cons_self)
          · simp only [FromText.membersOf, Members.values, FromValue.membersOf, known,
              if_neg taken]
            refine Alike.member (withAttribute_alike record property (fields_alike value)
              (parameter_alike value)).settle.under ?_
              (fun _ decoded => took_of_withAttribute (Decoded.ok_of_under.mp decoded))
              (membersOf_alike rest)
            rintro ⟨other, same, has⟩
            exact taken (Attribute.name_inj.mp same ▸ has)

theorem itemsOf_alike : (items : Items) → (index : Nat) → (record : ParameterRecord) →
    (properties : List Attribute) → {count : Nat} → Alike items.Whole items.Distinct
      (FromText.itemsOf index record properties items)
      (FromValue.itemsOf count index record properties items.values)
  | .close _, index, record, properties, count => by
      by_cases first : index = 0
      · simp only [FromText.itemsOf, Items.values, FromValue.itemsOf, if_pos first]
        exact .failed
      · simp only [FromText.itemsOf, Items.values, FromValue.itemsOf, if_neg first]
        exact .of_iff fun _ => by simp [Items.Whole]
  | .broken .., index, record, properties, count => by
      refine ⟨fun success => ?_, False.elim⟩
      simp only [FromText.itemsOf] at success
      split at success <;> cases success
  | .item value rest, index, record, [], count => .failed
  | .item value rest, index, record, property :: properties, count =>
      (withAttribute_alike record property (fields_alike value)
        (parameter_alike value)).settle.under.bind fun next _ =>
          itemsOf_alike rest (index + 1) next properties

theorem fields_alike : (tree : Tree) →
    Alike tree.Whole tree.Distinct (FromText.fields tree) (FromValue.fields tree.value)
  | .scalar _ _ value => by cases value <;> exact .failed
  | .broken .. => .broken
  | .array .. => .failed
  | .object _ members => settledFields_alike (namedParameters_alike members)

theorem namedParameters_alike : (members : Members) →
    Alike members.Whole members.Distinct (FromText.namedParameters members)
      (FromValue.namedParameters members.values)
  | .close _ => .of_iff fun _ => by
      simp [FromText.namedParameters, FromValue.namedParameters, Members.Whole, Members.values]
  | .bare .. => .broken
  | .broken .. => .broken
  | .member _ name _ _ value rest =>
      (parameter_alike value).settle.under.bind fun _ _ => (namedParameters_alike rest).map _

end

theorem functionMembers_alike : (members : Members) → (record : FunctionRecord) →
    Alike (members.Whole ∧ Unread record.Took members.names) members.Distinct
      ((FromText.functionMembers record members).map (·.1))
      (FromValue.functionMembers record members.values)
  | .close _, record => .of_iff fun _ => by
      simp [FromText.functionMembers, FromValue.functionMembers, Members.Whole, Members.names,
        Members.values, Unread, Except.map]
  | .bare .., record => by
      refine ⟨fun success => ?_, fun whole => whole.1.elim⟩
      simp only [FromText.functionMembers, ok_of_map] at success
      obtain ⟨both, success, -⟩ := success
      split at success
      · cases success
      · split at success <;> cases success
  | .broken .., record => ⟨nofun, fun whole => whole.1.elim⟩
  | .member before name keyStop colon value rest, record => by
      cases known : FunctionMember.ofText? name with
      | none =>
          simp only [FromText.functionMembers, Members.values, FromValue.functionMembers, known]
          exact .failed
      | some own =>
          obtain rfl := FunctionMember.ofText?_eq_some.mp known
          by_cases taken : record.has own = true
          · refine ⟨fun success => ?_, fun whole => ?_⟩
            · simp [FromText.functionMembers, known, taken, Except.map] at success
            · exact absurd ⟨own, rfl, taken⟩ (whole.2.2 _ List.mem_cons_self)
          · simp only [FromText.functionMembers, Members.values, FromValue.functionMembers, known,
              if_neg taken]
            refine Alike.member (withMember_alike record own (fields_alike value)).under ?_
              (fun _ decoded => took_of_withMember (Decoded.ok_of_under.mp decoded))
              (functionMembers_alike rest)
            rintro ⟨other, same, has⟩
            exact taken (FunctionMember.text_inj.mp same ▸ has)

theorem functionItems_alike : (items : Items) → (index : Nat) → (record : FunctionRecord) →
    (members : List FunctionMember) → {count : Nat} → Alike items.Whole items.Distinct
      (FromText.functionItems index record members items)
      (FromValue.functionItems count index record members items.values)
  | .close _, index, record, members, count => by
      by_cases first : index = 0
      · simp only [FromText.functionItems, Items.values, FromValue.functionItems, if_pos first]
        exact .failed
      · simp only [FromText.functionItems, Items.values, FromValue.functionItems, if_neg first]
        exact .of_iff fun _ => by simp [Items.Whole]
  | .broken .., index, record, members, count => by
      refine ⟨fun success => ?_, False.elim⟩
      simp only [FromText.functionItems] at success
      split at success <;> cases success
  | .item .., index, record, [], count => .failed
  | .item value rest, index, record, own :: members, count =>
      (withMember_alike record own (fields_alike value)).under.bind fun next _ =>
        functionItems_alike rest (index + 1) next members

theorem function_alike (tree : Tree) :
    Alike tree.Whole tree.Distinct (FromText.function tree) (FromValue.function tree.value) := by
  rcases tree with ⟨_, _, ⟨⟩⟩ | ⟨_, items⟩ | ⟨_, members⟩ | _
  case array =>
    exact (functionItems_alike items 0 .empty FunctionMember.all).andThen fun _ _ => Iff.rfl
  case object =>
    refine (functionMembers_alike members .empty).record (fun name => ?_) fun both result => ?_
    · rintro ⟨⟨⟩, -, taken⟩ <;> cases taken
    · exact ok_of_mapError
  case broken => exact .broken
  all_goals exact .failed

theorem functionList_alike (index : Nat) : (items : Items) → Alike items.Whole items.Distinct
    (FromText.functionList index items) (FromValue.functionList index items.values)
  | .close _ => .of_iff fun _ => by
      simp [FromText.functionList, FromValue.functionList, Items.Whole, Items.values]
  | .broken .. => .broken
  | .item value rest =>
      (function_alike value).settle.under.bind fun _ _ =>
        (functionList_alike (index + 1) rest).map _

theorem functions_alike (tree : Tree) :
    Alike tree.Whole tree.Distinct (FromText.functions tree) (FromValue.functions tree.value) := by
  rcases tree with ⟨_, _, ⟨⟩⟩ | ⟨_, items⟩ | _ | _
  case array => exact functionList_alike 0 items
  case broken => exact .broken
  all_goals exact .failed

/-- What is decoded from the text is decoded from its value, and what is decoded from its value is
decoded from the text unless some object of it repeats a name. -/
structure RoutesAgree {α : Type} (fromText : Tree → Decoded α) (fromValue : Value → Decoded α)
    (text : String) : Prop where
  toValue (result : α) : fromText (Tree.ofText text) = .ok result →
    ∃ value, Value.ofText text = .ok value ∧ fromValue value = .ok result
  toText (result : α) : (Tree.ofText text).Distinct →
    (∃ value, Value.ofText text = .ok value ∧ fromValue value = .ok result) →
      fromText (Tree.ofText text) = .ok result

theorem Alike.routes {α : Type} {fromText : Tree → Decoded α} {fromValue : Value → Decoded α}
    (alike : ∀ tree : Tree, Alike tree.Whole tree.Distinct (fromText tree) (fromValue tree.value))
    (text : String) : RoutesAgree fromText fromValue text where
  toValue _ read := by
    obtain ⟨whole, decoded⟩ := (alike (Tree.ofText text)).forth read
    exact ⟨_, Value.ofText_eq_ok.mpr ⟨whole, rfl⟩, decoded⟩
  toText _ distinct found := by
    obtain ⟨value, found, decoded⟩ := found
    obtain ⟨whole, rfl⟩ := Value.ofText_eq_ok.mp found
    exact (alike (Tree.ofText text)).back whole distinct decoded

/-- Parameters, functions and lists of functions are the same by both routes from a text. -/
theorem routes_agree (text : String) :
    RoutesAgree FromText.parameter FromValue.parameter text ∧
    RoutesAgree FromText.function FromValue.function text ∧
    RoutesAgree FromText.functions FromValue.functions text :=
  ⟨Alike.routes parameter_alike text, Alike.routes function_alike text,
    Alike.routes functions_alike text⟩

/-- A list of one function that gives its field twice, and what nobody reads. -/
def repeatingText : String :=
  "[\x7b\"parameters\":\x7b\"a\":[\"string\"],\"a\":[\"number\"]\x7d,\"name\":\"f\"\x7d] ]"

def repeatingFunctions : List FunctionSpec :=
  [⟨"f", "", [("a", .integer .plain .number)]⟩]

set_option maxRecDepth 20000 in
theorem routes_agree_repeating :
    FromText.functions (Tree.ofText repeatingText) = .ok repeatingFunctions ∧
      ∃ value, Value.ofText repeatingText = .ok value ∧
        FromValue.functions value = .ok repeatingFunctions := by
  have read : FromText.functions (Tree.ofText repeatingText) = .ok repeatingFunctions := by cbv
  exact ⟨read, (routes_agree repeatingText).2.2.toValue repeatingFunctions read⟩

end ToolGrammar.Schema
