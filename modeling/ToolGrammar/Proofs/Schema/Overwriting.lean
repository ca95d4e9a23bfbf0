import ToolGrammar.Proofs.Schema.Unnoticed

namespace ToolGrammar

namespace Keyed

variable {κ α β : Type} [DecidableEq κ]

theorem put_map (use : α → β) (name : κ) (value : α) (entries : List (κ × α)) :
    put name (use value) (entries.map (Prod.map id use)) =
      (put name value entries).map (Prod.map id use) := by
  induction entries with
  | nil => rfl
  | cons entry rest ih =>
      obtain ⟨key, old⟩ := entry
      by_cases same : key = name <;> simp [put, same, ih]

theorem settle_map (use : α → β) (entries : List (κ × α)) :
    settle (entries.map (Prod.map id use)) = (settle entries).map (Prod.map id use) := by
  suffices ∀ settled : List (κ × α),
      (entries.map (Prod.map id use)).foldl (fun settled entry => put entry.1 entry.2 settled)
        (settled.map (Prod.map id use)) =
      (entries.foldl (fun settled entry => put entry.1 entry.2 settled) settled).map
        (Prod.map id use) from this []
  induction entries with
  | nil => exact fun _ => rfl
  | cons entry rest ih =>
      intro settled
      rw [List.map_cons, List.foldl_cons, List.foldl_cons, ← ih, ← put_map]
      rfl

/-- Each name stands where it is written first. -/
theorem keys_settle (entries : List (κ × α)) :
    (settle entries).map (·.1) = (entries.map (·.1)).eraseDups := by
  suffices ∀ settled : List (κ × α),
      (entries.foldl (fun settled entry => put entry.1 entry.2 settled) settled).map (·.1) =
        settled.map (·.1) ++
          ((entries.map (·.1)).filter (· ∉ settled.map (·.1))).eraseDups by
    simpa [settle] using this []
  induction entries with
  | nil => simp
  | cons entry rest ih =>
      intro settled
      rw [List.foldl_cons, ih, keys_put, List.map_cons]
      by_cases known : entry.1 ∈ settled.map (·.1)
      · rw [if_pos known, List.filter_cons_of_neg (by simpa using known)]
      · have later : (rest.map (·.1)).filter (· ∉ settled.map (·.1) ++ [entry.1]) =
            ((rest.map (·.1)).filter (· ∉ settled.map (·.1))).filter (! · == entry.1) := by
          rw [List.filter_filter]
          refine List.filter_congr fun name _ => ?_
          rw [Bool.eq_iff_iff]
          simp [and_comm]
        rw [if_neg known, List.filter_cons_of_pos (by simpa using known), List.eraseDups_cons,
          later, List.append_assoc]
        rfl

/-- Each name has the value that is written last. -/
theorem lookup?_settle (entries : List (κ × α)) (name : κ) :
    lookup? name (settle entries) = lookup? name entries.reverse := by
  induction entries using List.reverseRecOn with
  | nil => rfl
  | append_singleton before entry ih =>
      obtain ⟨key, value⟩ := entry
      rw [settle, List.foldl_append, List.foldl_cons, List.foldl_nil, lookup?_put,
        List.reverse_append, List.reverse_singleton, List.singleton_append, lookup?_cons]
      rw [settle] at ih
      simp only [ih, eq_comm]

theorem length_settle_iff {entries : List (κ × α)} :
    (settle entries).length = entries.length ↔ (entries.map (·.1)).Nodup := by
  constructor
  · intro same
    have within : (settle entries).map (·.1) ⊆ entries.map (·.1) :=
      List.map_subset _ fun entry member => mem_of_mem_settle entry member
    have perm := (List.subperm_of_subset (nodup_keys_settle entries) within).perm_of_length_le
      (by simp [same])
    exact perm.nodup_iff.mp (nodup_keys_settle entries)
  · intro distinct
    rw [settle_of_nodup distinct]

end Keyed

namespace Json

def Items.trees : Items → List Tree
  | .close _ | .broken .. => []
  | .item value rest => value :: rest.trees

/-- All members as they are written, repeated names included. -/
def Members.written : Members → List (String × Tree)
  | .close _ | .bare .. | .broken .. => []
  | .member _ name _ _ value rest => (name, value) :: rest.written

/-- The members that the tree gives for a record of these names: by name, each as it is written
last, or by position. -/
def Tree.given (names : List String) : Tree → List (String × Tree)
  | .object _ members => Keyed.settle members.written
  | .array _ items => names.zip items.trees
  | .scalar .. | .broken .. => []

theorem Items.values_eq (items : Items) : items.values = items.trees.map (·.value) := by
  cases items with
  | close | broken => rfl
  | item value rest => rw [Items.values, Items.trees, List.map_cons, rest.values_eq]

theorem Members.values_eq (members : Members) :
    members.values = members.written.map (Prod.map id Tree.value) := by
  cases members with
  | close | bare | broken => rfl
  | member _ name _ _ value rest =>
      rw [Members.values, Members.written, List.map_cons, rest.values_eq]
      rfl

/-- Only an object has an object as its value. -/
theorem Tree.exists_of_value_eq_object {tree : Tree} {members : List (String × Value)}
    (same : tree.value = .object members) : ∃ start own, tree = .object start own ∧
      members = (Keyed.settle own.written).map (Prod.map id Tree.value) := by
  rcases tree with ⟨_, _, ⟨⟩⟩ | _ | ⟨start, own⟩ | _ <;> simp [Tree.value, Scalar.value] at same
  rw [← same, own.values_eq, Keyed.settle_map]
  exact ⟨start, own, rfl, rfl⟩

end Json

namespace Schema

open Json (Tree Items Members Value)

theorem Gives.eq_given {names : List String} {tree : Tree} {given : Given}
    (gives : Gives names tree.value given) :
    given = (tree.given names).map (Prod.map id Tree.value) := by
  generalize same : tree.value = value at gives
  cases gives with
  | byName =>
      obtain ⟨start, own, rfl, rfl⟩ := Tree.exists_of_value_eq_object same
      rfl
  | @byPosition items =>
      rcases tree with ⟨_, _, ⟨⟩⟩ | ⟨_, own⟩ | _ | _ <;>
        simp [Tree.value, Json.Scalar.value] at same
      rw [← same, own.values_eq, Tree.given, List.zip_map_right]

/-- The tree gives nothing under this name for a parameter, or `null`. -/
def LeavesOut (tree : Tree) (name : String) : Prop :=
  ∀ inner, (name, inner) ∈ tree.given parameterMembers → inner.value = .null

mutual

/-- At every depth the parameter has the fields that the tree declares: of fields that share a name
there is one, in the place of the first and with the parameter of the last. -/
def Parameter.TakenFrom : Parameter → Tree → Prop
  | .object _ fields => fun tree => LeavesOut tree "element_type" ∧
      ∃ start members, ("structure", .object start members) ∈ tree.given parameterMembers ∧
        FieldsTakenFrom fields (Keyed.settle members.written)
  | .array _ element => fun tree => LeavesOut tree "structure" ∧
      ∃ inner, ("element_type", inner) ∈ tree.given parameterMembers ∧ element.TakenFrom inner
  | .string _ | .boolean _ | .integer .. | .float .. | .enum .. => fun tree =>
      LeavesOut tree "structure" ∧ LeavesOut tree "element_type"
termination_by structural parameter => parameter

/-- The fields are the members in their order. -/
def FieldsTakenFrom : Fields → List (String × Tree) → Prop
  | [] => fun written => written = []
  | (name, parameter) :: rest => fun written =>
      ∃ tree others, written = (name, tree) :: others ∧ parameter.TakenFrom tree ∧
        FieldsTakenFrom rest others
termination_by structural fields => fields

end

def FunctionSpec.TakenFrom (function : FunctionSpec) (tree : Tree) : Prop :=
  (∃ start members, ("parameters", .object start members) ∈ tree.given functionMembers ∧
    FieldsTakenFrom function.parameters (Keyed.settle members.written)) ∨
  (∀ inner, ("parameters", inner) ∉ tree.given functionMembers) ∧ function.parameters = []

/-- A list gives one function in each of its items, and anything else is one function. -/
def FunctionsTakenFrom (functions : List FunctionSpec) : Tree → Prop
  | .array _ items => List.Forall₂ FunctionSpec.TakenFrom functions items.trees
  | tree => ∃ function, functions = [function] ∧ function.TakenFrom tree

/-- As many fields are there as members just if no two members share a name. -/
theorem fieldsTakenFrom_length {fields : Fields} {written : List (String × Tree)}
    (taken : FieldsTakenFrom fields (Keyed.settle written)) :
    fields.map (·.1) = (written.map (·.1)).eraseDups ∧
      (fields.length = written.length ↔ (written.map (·.1)).Nodup) := by
  have names : ∀ {fields : Fields} {written : List (String × Tree)},
      FieldsTakenFrom fields written → fields.map (·.1) = written.map (·.1) := by
    intro fields
    induction fields with
    | nil => rintro _ rfl; rfl
    | cons field rest ih =>
        rintro _ ⟨tree, others, rfl, -, later⟩
        rw [List.map_cons, List.map_cons, ih later]
  have same := names taken
  have count : fields.length = (Keyed.settle written).length := by
    simpa using congrArg List.length same
  exact ⟨same.trans (Keyed.keys_settle written), count ▸ Keyed.length_settle_iff⟩

namespace FromValue

/-- Where the places of the record come from when the value of a tree decodes to a parameter. -/
theorem exists_places {tree : Tree} {own : Parameter}
    (decoded : parameter tree.value = .ok own) : ∃ record,
      ParameterPlaces ((tree.given parameterMembers).map (Prod.map id Tree.value)) record ∧
      (((tree.given parameterMembers).map (Prod.map id Tree.value)).map (·.1)).Nodup ∧
      record.Tells own := by
  obtain ⟨given, record, gives, reads, finished⟩ := parameter_eq_ok.mp decoded
  have names := gives.nodup tree.value_distinct (by decide)
  have places := parameterPlaces reads names
  rw [gives.eq_given] at places names
  exact ⟨record, places, names, (ParameterRecord.finish_eq_ok.mp finished).2.2⟩

variable {tree : Tree}

theorem leavesOut_of_lacks {name : String}
    (lacks : Lacks ((tree.given parameterMembers).map (Prod.map id Tree.value)) name) :
    LeavesOut tree name :=
  fun inner member => lacks inner.value (List.mem_map_of_mem member)

theorem exists_given_of_mem {names : List String} {name : String} {value : Value}
    (member : (name, value) ∈ (tree.given names).map (Prod.map id Tree.value)) :
    ∃ inner, (name, inner) ∈ tree.given names ∧ inner.value = value := by
  obtain ⟨⟨key, inner⟩, found, same⟩ := List.mem_map.mp member
  obtain ⟨rfl, rfl⟩ := Prod.mk.inj same
  exact ⟨inner, found, rfl⟩

theorem exists_fields {own : Fields} (decoded : fields tree.value = .ok own) :
    ∃ start members, tree = .object start members ∧
      List.Forall₂ DecodesField own
        ((Keyed.settle members.written).map (Prod.map id Tree.value)) := by
  cases same : tree.value with
  | object members =>
      obtain ⟨start, own, rfl, rfl⟩ := Tree.exists_of_value_eq_object same
      rw [same] at decoded
      exact ⟨start, own, rfl, namedParameters_eq_ok.mp decoded⟩
  | _ =>
      rw [same] at decoded
      cases decoded

mutual

theorem takenFrom_of_parameter : (own : Parameter) → {tree : Tree} →
    parameter tree.value = .ok own → own.TakenFrom tree
  | .object note own, tree, decoded => by
      obtain ⟨record, places, names, -, given, none, -⟩ := exists_places decoded
      obtain ⟨value, member, -, decoded⟩ := (places.fields.join_eq_some_iff names).mp given
      obtain ⟨inner, found, rfl⟩ := exists_given_of_mem member
      obtain ⟨start, members, rfl, each⟩ := exists_fields decoded
      exact ⟨leavesOut_of_lacks ((places.element.join_eq_none_iff names).mp none), start, members,
        found, takenFrom_of_fields own each⟩
  | .array note element, tree, decoded => by
      obtain ⟨record, places, names, -, none, given, -⟩ := exists_places decoded
      obtain ⟨value, member, -, decoded⟩ := (places.element.join_eq_some_iff names).mp given
      obtain ⟨inner, found, rfl⟩ := exists_given_of_mem member
      exact ⟨leavesOut_of_lacks ((places.fields.join_eq_none_iff names).mp none), inner, found,
        takenFrom_of_parameter element decoded⟩
  | .string _, tree, decoded | .boolean _, tree, decoded | .integer .., tree, decoded
  | .float .., tree, decoded | .enum .., tree, decoded => by
      obtain ⟨record, places, names, -, fields, element, -⟩ := exists_places decoded
      exact ⟨leavesOut_of_lacks ((places.fields.join_eq_none_iff names).mp fields),
        leavesOut_of_lacks ((places.element.join_eq_none_iff names).mp element)⟩

theorem takenFrom_of_fields : (own : Fields) → {written : List (String × Tree)} →
    List.Forall₂ DecodesField own (written.map (Prod.map id Tree.value)) →
      FieldsTakenFrom own written
  | [], [], _ => rfl
  | [], _ :: _, each => by cases each
  | (name, own) :: rest, [], each => by cases each
  | (name, own) :: rest, (key, tree) :: others, each => by
      obtain ⟨⟨rfl, decoded⟩, later⟩ := List.forall₂_cons.mp each
      exact ⟨tree, others, rfl, takenFrom_of_parameter own decoded, takenFrom_of_fields rest later⟩

end

theorem takenFrom_of_function {own : FunctionSpec} (decoded : function tree.value = .ok own) :
    own.TakenFrom tree := by
  obtain ⟨given, record, gives, reads, finished⟩ := function_eq_ok.mp decoded
  have names := gives.nodup tree.value_distinct (by decide)
  have places := functionPlaces reads names
  rw [gives.eq_given] at places names
  obtain ⟨-, -, told, -⟩ := FunctionRecord.finish_eq_ok.mp finished
  cases held : record.parameters with
  | none =>
      have absent := places.parameters.eq_none_iff.mp held
      rw [held] at told
      exact .inr ⟨fun inner member => absent inner.value (List.mem_map_of_mem member), told.symm⟩
  | some parameters =>
      obtain ⟨value, member, decoded⟩ := (places.parameters.eq_some_iff names).mp held
      obtain ⟨inner, found, rfl⟩ := exists_given_of_mem member
      obtain ⟨start, members, rfl, each⟩ := exists_fields decoded
      obtain rfl : parameters = own.parameters := by rwa [held] at told
      exact .inl ⟨start, members, found, takenFrom_of_fields _ each⟩

theorem takenFrom_of_functionList {index : Nat} {trees : List Tree} {functions : List FunctionSpec}
    (decoded : functionList index (trees.map (·.value)) = .ok functions) :
    List.Forall₂ FunctionSpec.TakenFrom functions trees := by
  induction trees generalizing index functions with
  | nil =>
      obtain rfl := Except.ok.inj decoded
      exact .nil
  | cons tree rest ih =>
      simp only [List.map_cons, functionList, ok_of_bind, Decoded.ok_of_under, ok_of_pure]
        at decoded
      obtain ⟨first, head, others, tail, rfl⟩ := decoded
      exact .cons (takenFrom_of_function head) (ih tail)

theorem takenFrom_of_functions {functions : List FunctionSpec}
    (decoded : FromValue.functions tree.value = .ok functions) :
    FunctionsTakenFrom functions tree := by
  rcases tree with ⟨_, _, ⟨⟩⟩ | ⟨_, items⟩ | _ | _
  case array =>
    rw [Tree.value, items.values_eq] at decoded
    exact takenFrom_of_functionList decoded
  all_goals cases decoded

theorem takenFrom_of_document {functions : List FunctionSpec}
    (decoded : document tree.value = .ok functions) : FunctionsTakenFrom functions tree := by
  rcases tree with ⟨_, _, ⟨⟩⟩ | ⟨_, items⟩ | ⟨_, members⟩ | _
  case array =>
    rw [Tree.value, items.values_eq] at decoded
    exact takenFrom_of_functionList decoded
  case object =>
    simp only [Tree.value, document, ok_of_bind, ok_of_pure] at decoded
    obtain ⟨function, decoded, rfl⟩ := decoded
    exact ⟨function, rfl, takenFrom_of_function decoded⟩
  all_goals cases decoded

end FromValue

/-- What becomes of fields by every way of decoding a text. -/
structure Overwrites (text : String) : Prop where
  parameter (own : Parameter) : FromText.parameter (Tree.ofText text) = .ok own →
    own.TakenFrom (Tree.ofText text)
  function (own : FunctionSpec) : FromText.function (Tree.ofText text) = .ok own →
    own.TakenFrom (Tree.ofText text)
  functions (own : List FunctionSpec) : FromText.functions (Tree.ofText text) = .ok own →
    FunctionsTakenFrom own (Tree.ofText text)
  document (value : Value) (own : List FunctionSpec) : Value.ofText text = .ok value →
    FromValue.document value = .ok own → FunctionsTakenFrom own (Tree.ofText text)
  unnoticed : Unnoticed (FromText.parameter (Tree.ofText text)) ∧
    Unnoticed (FromText.function (Tree.ofText text)) ∧
    Unnoticed (FromText.functions (Tree.ofText text)) ∧
    ∀ value, Value.ofText text = .ok value → Unnoticed (FromValue.document value)

theorem overwrites (text : String) : Overwrites text where
  parameter own read :=
    FromValue.takenFrom_of_parameter own ((parameter_alike (Tree.ofText text)).forth read).2
  function own read :=
    FromValue.takenFrom_of_function ((function_alike (Tree.ofText text)).forth read).2
  functions own read :=
    FromValue.takenFrom_of_functions ((functions_alike (Tree.ofText text)).forth read).2
  document value own found decoded := by
    obtain ⟨-, rfl⟩ := Json.Value.ofText_eq_ok.mp found
    exact FromValue.takenFrom_of_document decoded
  unnoticed := ⟨FromText.unnoticed_parameter _, FromText.unnoticed_function _,
    FromText.unnoticed_functions _, fun value found =>
      FromValue.unnoticed_document (Json.Value.distinct_of_ofText found)⟩

/-- A field that is declared again is never refused: it keeps its first place and takes its last
parameter. So there are as many fields as members just where no name is declared again. -/
theorem later_fields_overwrite (text : String) : Overwrites text ∧
    ∀ (fields : Fields) (written : List (String × Tree)),
      FieldsTakenFrom fields (Keyed.settle written) →
        fields.map (·.1) = (written.map (·.1)).eraseDups ∧
        (∀ name, Keyed.lookup? name (Keyed.settle written) =
          Keyed.lookup? name written.reverse) ∧
        (fields.length = written.length ↔ (written.map (·.1)).Nodup) := by
  refine ⟨overwrites text, fun fields written taken => ?_⟩
  obtain ⟨names, count⟩ := fieldsTakenFrom_length taken
  exact ⟨names, Keyed.lookup?_settle written, count⟩

/-- A function that declares its parameter `berth` twice. -/
def mooringText : String :=
  "\x7b\"name\":\"moor\",\"parameters\":\x7b\"berth\":[\"string\"],\"berth\":[\"number\"]\x7d\x7d"

def mooring : FunctionSpec :=
  ⟨"moor", "", [("berth", .integer .plain .number)]⟩

set_option maxRecDepth 20000 in
theorem read_mooringText : FromText.function (Tree.ofText mooringText) = .ok mooring := by
  cbv

theorem later_fields_overwrite_mooring : FromText.function (Tree.ofText mooringText) = .ok mooring ∧
    mooring.TakenFrom (Tree.ofText mooringText) :=
  ⟨read_mooringText, (later_fields_overwrite mooringText).1.function mooring read_mooringText⟩

def mooringValue : Value :=
  .object [("name", .string "moor"), ("parameters", .object [("berth", .array [.string "number"])])]

/-- The names that an object declares, as they are written. -/
def declaredNames : Tree → List String
  | .object _ members => members.names
  | _ => []

set_option maxRecDepth 20000 in
/-- The earlier parameter is lost on either way, while no function can be made of both. -/
theorem repeated_parameter_lost :
    FromText.function (Tree.ofText mooringText) = .ok mooring ∧
      Value.ofText mooringText = .ok mooringValue ∧
      FromValue.document mooringValue = .ok [mooring] ∧
      ((Tree.ofText mooringText).given functionMembers).map
          (fun member => (member.1, declaredNames member.2)) =
        [("name", []), ("parameters", ["berth", "berth"])] ∧
      mooring.parameters.length = 1 ∧
      FunctionSpec.checked "moor" "" [("berth", .string .plain),
          ("berth", .integer .plain .number)] = .error (.duplicateField "berth") := by
  refine ⟨read_mooringText, by cbv, rfl, by cbv, rfl, rfl⟩

end Schema

end ToolGrammar
