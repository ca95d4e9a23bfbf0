import ToolGrammar.Json.Path
import ToolGrammar.Keyed
import ToolGrammar.Proofs.Json.Values

namespace ToolGrammar

theorem Keyed.lookup?_of_mem {κ α : Type} [DecidableEq κ] {entries : List (κ × α)} {name : κ}
    {value : α} (distinct : (entries.map (·.1)).Nodup) (member : (name, value) ∈ entries) :
    lookup? name entries = some value := by
  obtain ⟨before, after, rfl⟩ := List.append_of_mem member
  refine List.lookup_eq_some_iff.mpr ⟨before, after, rfl, fun entry earlier => ?_⟩
  rw [List.map_append, List.map_cons] at distinct
  have apart := (List.nodup_append.mp distinct).2.2 _ (List.mem_map_of_mem earlier) name
    List.mem_cons_self
  exact bne_iff_ne.mpr (Ne.symm apart)

theorem Keyed.exists_lookup? {κ α : Type} [DecidableEq κ] {entries : List (κ × α)} {name : κ}
    (listed : name ∈ entries.map (·.1)) : ∃ value, lookup? name entries = some value := by
  obtain ⟨entry, member, rfl⟩ := List.mem_map.mp listed
  exact Option.isSome_iff_exists.mp (List.lookup_isSome_iff.mpr ⟨entry, member, BEq.rfl⟩)

namespace Json

def Value.child? : Value → Step → Option Value
  | .array items, .item index => items[index]?
  | .object members, .member name => Keyed.lookup? name members
  | _, _ => none

/-- The node of a value at a path. -/
def Value.at? : Value → Path → Option Value
  | value, [] => some value
  | value, step :: rest => (value.child? step).bind (·.at? rest)

variable {value child node : Value} {step : Step}

@[simp]
theorem Value.at?_nil (value : Value) : value.at? [] = some value :=
  rfl

@[simp]
theorem Value.at?_cons (value : Value) (step : Step) (rest : Path) :
    value.at? (step :: rest) = (value.child? step).bind (·.at? rest) :=
  rfl

theorem Value.at?_append (value : Value) (path rest : Path) :
    value.at? (path ++ rest) = (value.at? path).bind (·.at? rest) := by
  induction path generalizing value with
  | nil => rfl
  | cons step path ih => simp only [List.cons_append, Value.at?_cons, ih, Option.bind_assoc]

theorem Value.child?_mem_parts (found : value.child? step = some child) : child ∈ value.parts := by
  cases value with
  | array items =>
      cases step with
      | item index => exact List.mem_of_getElem? found
      | _ => simp [Value.child?] at found
  | object members =>
      cases step with
      | member name => exact List.mem_map_of_mem (Keyed.mem_of_lookup? found)
      | _ => simp [Value.child?] at found
  | _ => simp [Value.child?] at found

theorem Value.Distinct.of_child? (distinct : value.Distinct)
    (found : value.child? step = some child) : child.Distinct :=
  distinct.part child (Value.child?_mem_parts found)

theorem Value.Distinct.child?_of_mem {members : List (String × Value)} {name : String}
    (distinct : (Value.object members).Distinct) (member : (name, child) ∈ members) :
    (Value.object members).child? (.member name) = some child :=
  Keyed.lookup?_of_mem distinct.1 member

end Json

end ToolGrammar
