import ToolGrammar.Json.Tree
import ToolGrammar.Proofs.Json.Values

namespace ToolGrammar.Json

/-- The names of the members as they are written, repeated ones included. -/
def Members.names (members : Members) : List String :=
  members.values.map (·.1)

mutual

/-- No fault hides a part of the tree. -/
def Tree.Whole : Tree → Prop
  | .scalar .. => True
  | .array _ items => items.Whole
  | .object _ members => members.Whole
  | .broken .. => False
termination_by structural tree => tree

def Items.Whole : Items → Prop
  | .close _ => True
  | .item value rest => value.Whole ∧ rest.Whole
  | .broken .. => False
termination_by structural items => items

def Members.Whole : Members → Prop
  | .close _ => True
  | .member _ _ _ _ value rest => value.Whole ∧ rest.Whole
  | .bare .. | .broken .. => False
termination_by structural members => members

end

mutual

/-- No object within the tree repeats a name. -/
def Tree.Distinct : Tree → Prop
  | .scalar .. | .broken .. => True
  | .array _ items => items.Distinct
  | .object _ members => members.names.Nodup ∧ members.Distinct
termination_by structural tree => tree

def Items.Distinct : Items → Prop
  | .close _ | .broken .. => True
  | .item value rest => value.Distinct ∧ rest.Distinct
termination_by structural items => items

def Members.Distinct : Members → Prop
  | .close _ | .bare .. | .broken .. => True
  | .member _ _ _ _ value rest => value.Distinct ∧ rest.Distinct
termination_by structural members => members

end

mutual

theorem Tree.fault?_eq_none : (tree : Tree) → (tree.fault? = none ↔ tree.Whole)
  | .scalar .. => by simp [Tree.fault?, Tree.Whole]
  | .array _ items => items.fault?_eq_none 0
  | .object _ members => members.fault?_eq_none
  | .broken .. => by simp [Tree.fault?, Tree.Whole]

theorem Items.fault?_eq_none : (items : Items) → (index : Nat) →
    (items.fault? index = none ↔ items.Whole)
  | .close _, _ => by simp [Items.fault?, Items.Whole]
  | .item value rest, index => by
      rw [Items.fault?, Items.Whole, ← value.fault?_eq_none, ← rest.fault?_eq_none (index + 1)]
      cases value.fault? <;> simp
  | .broken .., _ => by simp [Items.fault?, Items.Whole]

theorem Members.fault?_eq_none : (members : Members) → (members.fault? = none ↔ members.Whole)
  | .close _ => by simp [Members.fault?, Members.Whole]
  | .member _ _ _ _ value rest => by
      rw [Members.fault?, Members.Whole, ← value.fault?_eq_none, ← rest.fault?_eq_none]
      cases value.fault? <;> simp
  | .bare .. => by simp [Members.fault?, Members.Whole]
  | .broken .. => by simp [Members.fault?, Members.Whole]

end

theorem Value.ofText_eq_ok {text : String} {value : Value} :
    Value.ofText text = .ok value ↔
      (Tree.ofText text).Whole ∧ (Tree.ofText text).value = value := by
  rw [← Tree.fault?_eq_none, Value.ofText]
  cases (Tree.ofText text).fault? <;> simp

mutual

theorem Tree.value_distinct : (tree : Tree) → tree.value.Distinct
  | .scalar _ _ value => by cases value <;> exact trivial
  | .array _ items => items.values_distinct
  | .object _ members =>
      ⟨Keyed.nodup_keys_settle _, membersDistinct_iff.mpr fun member found =>
        membersDistinct_iff.mp members.values_distinct member
          (Keyed.mem_of_mem_settle member found)⟩
  | .broken .. => trivial

theorem Items.values_distinct : (items : Items) → ItemsDistinct items.values
  | .close _ => trivial
  | .item value rest => ⟨value.value_distinct, rest.values_distinct⟩
  | .broken .. => trivial

theorem Members.values_distinct : (members : Members) → MembersDistinct members.values
  | .close _ => trivial
  | .member _ _ _ _ value rest => ⟨value.value_distinct, rest.values_distinct⟩
  | .bare .. => trivial
  | .broken .. => trivial

end

/-- A value that was read from a text repeats no name. -/
theorem Value.distinct_of_ofText {text : String} {value : Value}
    (read : Value.ofText text = .ok value) : value.Distinct :=
  (Value.ofText_eq_ok.mp read).2 ▸ (Tree.ofText text).value_distinct

end ToolGrammar.Json
