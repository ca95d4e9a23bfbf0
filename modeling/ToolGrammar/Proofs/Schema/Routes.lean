import ToolGrammar.Proofs.Json.Trees
import ToolGrammar.Proofs.Schema.Records
import ToolGrammar.Schema.FromText

namespace ToolGrammar.Schema

open Json (Tree Items Members Value Scalar)

/-- The decoder of texts reads only what is whole, and then what the decoder of values makes of it;
what the decoder of values makes of a whole text is read where no name is repeated. -/
structure Alike {α : Type} (whole distinct : Prop) (read decoded : Decoded α) : Prop where
  forth {result : α} : read = .ok result → whole ∧ decoded = .ok result
  back {result : α} : whole → distinct → decoded = .ok result → read = .ok result

section

variable {α β : Type} {whole distinct whole' distinct' : Prop} {read decoded : Decoded α}

theorem Alike.of_iff (same : ∀ result, read = .ok result ↔ whole ∧ decoded = .ok result) :
    Alike whole distinct read decoded where
  forth {result} := (same result).mp
  back {result} whole _ decoded := (same result).mpr ⟨whole, decoded⟩

theorem Alike.failed {refusal refusal' : Refusal} :
    Alike whole distinct (.error refusal : Decoded α) (.error refusal') where
  forth := nofun
  back _ _ := nofun

/-- Of a text that is broken nothing is read. -/
theorem Alike.broken {refusal : Refusal} : Alike False distinct (.error refusal) decoded where
  forth := nofun
  back := False.elim

theorem Alike.under {step step' : Json.Step} (alike : Alike whole distinct read decoded) :
    Alike whole distinct (Decoded.under step read) (Decoded.under step' decoded) where
  forth success := by simpa using alike.forth (Decoded.ok_of_under.mp success)
  back whole distinct success := by
    simpa using alike.back whole distinct (Decoded.ok_of_under.mp success)

theorem Alike.settle {position : Json.Position} (alike : Alike whole distinct read decoded) :
    Alike whole distinct (Decoded.settle position read) decoded where
  forth success := alike.forth (Decoded.ok_of_settle.mp success)
  back whole distinct success := Decoded.ok_of_settle.mpr (alike.back whole distinct success)

/-- The rest need be alike only for what the first part gave. -/
theorem Alike.bind {next next' : α → Decoded β} (first : Alike whole distinct read decoded)
    (rest : ∀ value, decoded = .ok value → Alike whole' distinct' (next value) (next' value)) :
    Alike (whole ∧ whole') (distinct ∧ distinct') (read >>= next) (decoded >>= next') where
  forth success := by
    obtain ⟨value, head, tail⟩ := ok_of_bind.mp success
    obtain ⟨wholeFirst, head⟩ := first.forth head
    obtain ⟨wholeRest, tail⟩ := (rest value head).forth tail
    exact ⟨⟨wholeFirst, wholeRest⟩, ok_of_bind.mpr ⟨value, head, tail⟩⟩
  back whole distinct success := by
    obtain ⟨value, head, tail⟩ := ok_of_bind.mp success
    have rest := (rest value head).back whole.2 distinct.2 tail
    exact ok_of_bind.mpr ⟨value, first.back whole.1 distinct.1 head, rest⟩

/-- What follows the last part that is read makes no difference. -/
theorem Alike.andThen (first : Alike whole distinct read decoded) {next next' : α → Decoded β}
    (same : ∀ value result, next value = .ok result ↔ next' value = .ok result) :
    Alike whole distinct (read >>= next) (decoded >>= next') where
  forth success := by
    obtain ⟨value, head, tail⟩ := ok_of_bind.mp success
    obtain ⟨whole, head⟩ := first.forth head
    exact ⟨whole, ok_of_bind.mpr ⟨value, head, (same value _).mp tail⟩⟩
  back whole distinct success := by
    obtain ⟨value, head, tail⟩ := ok_of_bind.mp success
    exact ok_of_bind.mpr ⟨value, first.back whole distinct head, (same value _).mpr tail⟩

theorem Alike.map (first : Alike whole distinct read decoded) (use : α → β) :
    Alike whole distinct (read >>= fun value => pure (use value))
      (decoded >>= fun value => pure (use value)) :=
  first.andThen fun _ _ => Iff.rfl

end

theorem FromText.string_eq_ok {tree : Tree} {text : String} :
    FromText.string tree = .ok text ↔ tree.Whole ∧ FromValue.string tree.value = .ok text := by
  rw [FromValue.string_eq_ok]
  rcases tree with ⟨_, _, ⟨⟩⟩ | _ | _ | _ <;>
    simp [FromText.string, FromText.mismatch, Tree.Whole, Tree.value, Scalar.value]

theorem FromText.bool_eq_ok {tree : Tree} {truth : Bool} :
    FromText.bool tree = .ok truth ↔ tree.Whole ∧ FromValue.bool tree.value = .ok truth := by
  rw [FromValue.bool_eq_ok]
  rcases tree with ⟨_, _, ⟨⟩⟩ | _ | _ | _ <;>
    simp [FromText.bool, FromText.mismatch, Tree.Whole, Tree.value, Scalar.value]

theorem FromText.count_eq_ok {tree : Tree} {n : Nat} :
    FromText.count tree = .ok n ↔ tree.Whole ∧ FromValue.count tree.value = .ok n := by
  rcases tree with ⟨_, _, ⟨⟩⟩ | _ | _ | _ <;>
    simp [FromText.count, FromText.mismatch, FromValue.count, FromValue.mismatch, Tree.Whole,
      Tree.value, Scalar.value]

theorem stringItems_alike (index : Nat) (items : Items) : Alike items.Whole items.Distinct
    (FromText.stringItems index items) (FromValue.stringItems index items.values) := by
  cases items with
  | close =>
      exact .of_iff fun _ => by
        simp [FromText.stringItems, FromValue.stringItems, Items.Whole, Items.values]
  | item value rest =>
      exact (Alike.of_iff fun _ => FromText.string_eq_ok).under.bind fun _ _ =>
        (stringItems_alike (index + 1) rest).map _
  | broken => exact .broken

theorem strings_alike (tree : Tree) :
    Alike tree.Whole tree.Distinct (FromText.strings tree) (FromValue.strings tree.value) := by
  rcases tree with ⟨_, _, ⟨⟩⟩ | ⟨_, items⟩ | _ | _
  case array => exact stringItems_alike 0 items
  case broken => exact .broken
  all_goals exact .failed

theorem optional_alike {α : Type} {read : Tree → Decoded α} {decode : Value → Decoded α}
    {tree : Tree} (alike : Alike tree.Whole tree.Distinct (read tree) (decode tree.value)) :
    Alike tree.Whole tree.Distinct (FromText.optional read tree)
      (FromValue.optional decode tree.value) := by
  rcases tree with ⟨_, _, ⟨⟩⟩ | _ | _ | _
  case scalar.null => exact .of_iff fun _ => by simp [FromText.optional, FromValue.optional,
    Tree.value, Scalar.value, Tree.Whole]
  case broken =>
    refine ⟨fun success => ?_, False.elim⟩
    obtain ⟨value, success, -⟩ := ok_of_map.mp success
    exact (alike.forth success).1.elim
  all_goals exact alike.map some

theorem exists_null_of_value {tree : Tree} (whole : tree.Whole) (null : tree.value = .null) :
    ∃ start stop, tree = .scalar start stop .null := by
  rcases tree with ⟨start, stop, ⟨⟩⟩ | _ | _ | _ <;> simp [Tree.value, Scalar.value] at null
  · exact ⟨start, stop, rfl⟩
  · exact whole.elim

theorem exists_close_of_values {members : Members} (whole : members.Whole)
    (none : members.values = []) : ∃ stop, members = .close stop := by
  cases members with
  | close stop => exact ⟨stop, rfl⟩
  | member => simp [Members.values] at none
  | bare | broken => exact whole.elim

theorem FromText.kindOfName_eq_ok {name : String} {stop : Json.Position} {kind : Kind} :
    FromText.kindOfName name stop = .ok kind ↔ FromValue.kindOfName name = .ok kind := by
  rw [FromText.kindOfName, FromValue.kindOfName]
  cases Kind.ofName? name <;> simp

theorem kindMembers_alike (start : Json.Position) (members : Members) :
    Alike members.Whole (members.names.Nodup ∧ members.Distinct) (FromText.kindMembers members)
      (FromValue.kind (Tree.object start members).value) := by
  cases members with
  | close => exact .failed
  | broken => exact .broken
  | bare => exact ⟨fun success => by simp [FromText.kindMembers] at success, False.elim⟩
  | member before name keyStop colon value rest =>
      constructor
      · intro own success
        simp only [FromText.kindMembers, ok_of_bind, FromText.kindOfName_eq_ok] at success
        obtain ⟨kind, named, success⟩ := success
        rcases value with ⟨_, _, ⟨⟩⟩ | _ | _ | _
        case scalar.null =>
          cases rest with
          | close =>
              obtain rfl := Except.ok.inj success
              refine ⟨⟨trivial, trivial⟩, FromValue.kind_eq_ok.mpr (.inr ?_)⟩
              rw [FromValue.kindOfName_eq_ok.mp named]
              rfl
          | member | bare | broken => simp [FromText.kindEnd] at success
        all_goals simp [FromText.mismatch] at success
      · intro own whole distinct success
        rw [Tree.value, Keyed.settle_of_nodup distinct.1, Members.values] at success
        have spelled := FromValue.kind_eq_ok.mp success
        simp only [SpellsKind, reduceCtorEq, false_or, Value.object.injEq, List.cons.injEq,
          Prod.mk.injEq] at spelled
        obtain ⟨⟨rfl, null⟩, none⟩ := spelled
        obtain ⟨_, _, rfl⟩ := exists_null_of_value whole.1 null
        obtain ⟨_, rfl⟩ := exists_close_of_values whole.2 none
        simp [FromText.kindMembers, FromText.kindOfName_eq_ok, FromValue.kindOfName_eq_ok,
          FromText.kindEnd]

theorem kind_alike (tree : Tree) :
    Alike tree.Whole tree.Distinct (FromText.kind tree) (FromValue.kind tree.value) := by
  rcases tree with ⟨_, _, ⟨⟩⟩ | _ | ⟨start, members⟩ | _
  case scalar.string =>
    exact .of_iff fun _ => by
      simp [FromText.kind, FromText.kindOfName_eq_ok, FromValue.kind, Tree.value, Scalar.value,
        Tree.Whole]
  case object => exact kindMembers_alike start members
  case broken =>
    refine ⟨fun success => ?_, False.elim⟩
    simp only [FromText.kind] at success
    split at success <;> cases success
  all_goals exact .failed

theorem withAttribute_alike {tree : Tree} (record : ParameterRecord) (property : Attribute)
    (fields : Alike tree.Whole tree.Distinct (FromText.fields tree) (FromValue.fields tree.value))
    (parameter : Alike tree.Whole tree.Distinct (FromText.parameter tree)
      (FromValue.parameter tree.value)) :
    Alike tree.Whole tree.Distinct
      (FromText.withAttribute record property tree (fun _ => FromText.fields tree)
        (fun _ => FromText.parameter tree))
      (FromValue.withAttribute record property tree.value (fun _ => FromValue.fields tree.value)
        (fun _ => FromValue.parameter tree.value)) := by
  cases property with
  | kind => exact (kind_alike tree).map _
  | required => exact (Alike.of_iff fun _ => FromText.bool_eq_ok).map _
  | description => exact (optional_alike (.of_iff fun _ => FromText.string_eq_ok)).map _
  | precision => exact (optional_alike (.of_iff fun _ => FromText.count_eq_ok)).map _
  | fields =>
      exact (@optional_alike _ (fun _ => FromText.fields tree)
        (fun _ => FromValue.fields tree.value) tree fields).map _
  | element =>
      exact (@optional_alike _ (fun _ => FromText.parameter tree)
        (fun _ => FromValue.parameter tree.value) tree parameter).map _
  | values => exact (optional_alike (strings_alike tree)).map _

theorem withMember_alike {tree : Tree} (record : FunctionRecord) (member : FunctionMember)
    (fields : Alike tree.Whole tree.Distinct (FromText.fields tree) (FromValue.fields tree.value)) :
    Alike tree.Whole tree.Distinct (FromText.withMember record member tree)
      (FromValue.withMember record member tree.value) := by
  cases member with
  | name => exact (Alike.of_iff fun _ => FromText.string_eq_ok).map _
  | description => exact (Alike.of_iff fun _ => FromText.string_eq_ok).map _
  | parameters => exact fields.map _

end ToolGrammar.Schema
