import ToolGrammar.Proofs.Grammar.Outcome
import ToolGrammar.Proofs.Schema.Separate
import ToolGrammar.Text.Pieces

namespace ToolGrammar.Grammar

open Schema

def segments (id : RuleId) : List (List Char) :=
  id.text.toList.splitOn '-'

theorem segments_of_toList {id longer : RuleId} {rest : List Char}
    (text : longer.text.toList = id.text.toList ++ '-' :: rest) :
    segments longer = segments id ++ rest.splitOn '-' := by
  rw [segments, text, List.splitOn_append_cons_self]
  rfl

theorem segments_params (id : RuleId) : segments id.params = segments id ++ ["params".toList] := by
  have text : id.params.text.toList = id.text.toList ++ '-' :: "params".toList := by
    simp [RuleId.params]
  exact segments_of_toList text

theorem segments_element (id : RuleId) :
    segments id.element = segments id ++ ["element".toList] := by
  have text : id.element.text.toList = id.text.toList ++ '-' :: "element".toList := by
    simp [RuleId.element]
  exact segments_of_toList text

theorem segments_child (id : RuleId) (field : String) :
    segments (id.child field) = segments id ++ (normalize field).toList.splitOn '-' :=
  segments_of_toList (by simp [RuleId.child])

theorem normalize_eq_lowercase {name : String} (solid : Solid name) :
    normalize name = Text.lowercase name := by
  have same : name.map (fun c => if c = '_' then '-' else c) = name := by
    refine String.toList_inj.mp ?_
    rw [String.toList_map]
    refine (List.map_congr_left fun c member => ?_).trans (List.map_id _)
    have other : c ≠ '_' := fun underscore => solid.1 (underscore ▸ member)
    exact if_neg other
  rw [normalize, same]

theorem hyphen_not_mem_normalize {name : String} (valid : isFieldName name = true)
    (solid : Solid name) : '-' ∉ (normalize name).toList := by
  have inside := (isFieldName_iff.mp valid).2
  rw [normalize_toList inside]
  intro member
  obtain ⟨c, found, hyphen⟩ := List.mem_map.mp member
  have notUnderscore : c ≠ '_' := fun same => solid.1 (same ▸ found)
  have notHyphen : c ≠ '-' := fun same => solid.2 (same ▸ found)
  exact normalChar_ne_hyphen (inside c found) notUnderscore notHyphen hyphen

theorem segments_child_of_solid (id : RuleId) {field : String} (valid : isFieldName field = true)
    (solid : Solid field) :
    segments (id.child field) = segments id ++ [(Text.lowercase field).toList] := by
  rw [segments_child, List.splitOn_eq_singleton (hyphen_not_mem_normalize valid solid),
    normalize_eq_lowercase solid]

theorem Child.segments_prefix {node : Node} {id : RuleId} {shape : Shape}
    (child : Child node id shape) : segments node.id <+: segments id := by
  cases child with
  | element => exact ⟨_, (segments_element node.id).symm⟩
  | @field _ name => exact ⟨_, (segments_child node.id name).symm⟩

theorem segments_prefix_of_mem (id : RuleId) (shape : Shape) :
    ∀ node ∈ nodes id shape, segments id <+: segments node.id := by
  refine nodes_induction ?_ id shape ?_
  · exact fun node childId type front child => front.trans child.segments_prefix
  · exact fun type same => List.prefix_refl _

theorem segments_prefix_of_mem_fields (id : RuleId) (fields : List (String × Shape)) :
    ∀ node ∈ fieldNodes id fields, ∃ name ∈ fields.map (·.1),
      segments (id.child name) <+: segments node.id := by
  induction fields with
  | nil => simp [fieldNodes]
  | cons field rest ih =>
      obtain ⟨name, shape⟩ := field
      intro node member
      rw [fieldNodes, List.mem_append] at member
      rcases member with first | later
      · exact ⟨name, List.mem_cons_self, segments_prefix_of_mem (id.child name) shape node first⟩
      · obtain ⟨other, found, front⟩ := ih node later
        exact ⟨other, List.mem_cons_of_mem _ found, front⟩

theorem eq_of_prefix_append {α : Type} {front whole : List α} {left right : α}
    (leftPrefix : front ++ [left] <+: whole) (rightPrefix : front ++ [right] <+: whole) :
    left = right := by
  have lengths : (front ++ [left]).length = (front ++ [right]).length := by simp
  have same := (List.prefix_of_prefix_length_le leftPrefix rightPrefix lengths.le).eq_of_length
    lengths
  simpa using same

theorem id_not_mem {id : RuleId} {inner : List Node}
    (longer : ∀ node ∈ inner, (segments id).length < (segments node.id).length) :
    id ∉ inner.map (·.id) := by
  intro repeated
  obtain ⟨node, member, same⟩ := List.mem_map.mp repeated
  have below := longer node member
  rw [same] at below
  exact lt_irrefl _ below

theorem nodup_array {id : RuleId} {element : Shape}
    (inner : ((nodes id.element element).map (·.id)).Nodup) :
    ((nodes id (.array element)).map (·.id)).Nodup := by
  rw [nodes, List.map_cons]
  refine List.nodup_cons.mpr ⟨id_not_mem fun node member => ?_, inner⟩
  have within := (segments_prefix_of_mem id.element element node member).length_le
  rw [segments_element, List.length_append] at within
  exact Nat.lt_of_lt_of_le (Nat.lt_add_of_pos_right Nat.zero_lt_one) within

theorem nodup_object {id : RuleId} {fields : List (String × Shape)}
    (inner : ((fieldNodes id fields).map (·.id)).Nodup) :
    ((nodes id (.object fields)).map (·.id)).Nodup := by
  rw [nodes, List.map_cons]
  refine List.nodup_cons.mpr ⟨id_not_mem fun node member => ?_, inner⟩
  obtain ⟨name, _, front⟩ := segments_prefix_of_mem_fields id fields node member
  have within := front.length_le
  have more := List.length_pos_of_ne_nil (List.splitOn_ne_nil '-' (normalize name).toList)
  rw [segments_child, List.length_append] at within
  change (segments id).length < _
  omega

mutual

theorem nodup_nodes (id : RuleId) (parameter : Parameter) (valid : parameter.Valid)
    (separate : parameter.Separate) : ((nodes id parameter.shape).map (·.id)).Nodup := by
  cases parameter with
  | string | boolean | integer | enum => simp [Parameter.shape, nodes]
  | float note precision => cases precision <;> simp [Parameter.shape, nodes]
  | array note element => exact nodup_array (nodup_nodes id.element element valid separate)
  | object note fields =>
      rw [Parameter.Valid] at valid
      exact nodup_object (nodup_fieldNodes id fields valid.2 separate)
termination_by structural parameter

theorem nodup_fieldNodes (id : RuleId) (fields : Fields) (valid : FieldsValid fields)
    (separate : FieldsSeparate fields) :
    ((fieldNodes id (fieldShapes fields)).map (·.id)).Nodup := by
  match fields with
  | [] => exact List.nodup_nil
  | (name, parameter) :: rest =>
      obtain ⟨wellFormed, _, validFirst, validRest⟩ := valid
      obtain ⟨solid, apart, separateFirst, separateRest⟩ := separate
      have first := nodup_nodes (id.child name) parameter validFirst separateFirst
      have others := nodup_fieldNodes id rest validRest separateRest
      rw [fieldShapes, fieldNodes, List.map_append]
      refine List.nodup_append'.mpr ⟨first, others, fun shared own repeated => ?_⟩
      -- The name of a node goes on from that of the one field in which the node lies.
      obtain ⟨node, inside, rfl⟩ := List.mem_map.mp own
      obtain ⟨twin, elsewhere, same⟩ := List.mem_map.mp repeated
      have front := segments_prefix_of_mem (id.child name) parameter.shape node inside
      obtain ⟨other, found, back⟩ := segments_prefix_of_mem_fields id _ twin elsewhere
      rw [map_fst_fieldShapes] at found
      rw [segments_child_of_solid id wellFormed solid] at front
      rw [segments_child_of_solid id (isFieldName_of_mem validRest other found)
        (solid_of_mem separateRest other found), same] at back
      have texts := String.toList_inj.mp (eq_of_prefix_append front back)
      exact apart (texts ▸ List.mem_map_of_mem found)
termination_by structural fields

end

/-- The names of functions stay apart and are not reserved, and those of their fields stay apart. -/
structure Separate (functions : List FunctionSpec) : Prop where
  solid : ∀ function ∈ functions, Solid function.name
  distinct : (functions.map fun function => Text.lowercase function.name).Nodup
  unreserved : ∀ function ∈ functions,
    Text.lowercase function.name ∉ ["root", "string", "number", "boolean", "ws"]
  fields : ∀ function ∈ functions, FieldsSeparate function.parameters

theorem function_of_solid {name : String} (solid : Solid name) :
    RuleId.function name = ⟨Text.lowercase name⟩ := by
  rw [RuleId.function, RuleId.ofPath, List.map_singleton, normalize_eq_lowercase solid]
  rfl

theorem segments_function {function : FunctionSpec} (valid : function.Valid)
    (solid : Solid function.name) :
    segments (RuleId.function function.name) = [(Text.lowercase function.name).toList] := by
  have whole := hyphen_not_mem_normalize (isFieldName_of_isFunctionName valid.name) solid
  rw [normalize_eq_lowercase solid] at whole
  rw [function_of_solid solid]
  exact List.splitOn_eq_singleton whole

theorem segments_prefix_of_mem_functionNodes {function : FunctionSpec} (valid : function.Valid)
    (solid : Solid function.name) : ∀ node ∈ functionNodes function,
      [(Text.lowercase function.name).toList, "params".toList] <+: segments node.id := by
  have front := segments_params (RuleId.function function.name)
  rw [segments_function valid solid] at front
  intro node member
  have within := segments_prefix_of_mem (paramsId function) _ node member
  rwa [paramsId, front] at within

theorem tail_segments_function {function : FunctionSpec} (valid : function.Valid)
    (solid : Solid function.name) : (segments (callRule function).id).tail = [] := by
  rw [callRule, segments_function valid solid]
  rfl

theorem tail_segments_node {function : FunctionSpec} (valid : function.Valid)
    (solid : Solid function.name) : ∀ node ∈ functionNodes function,
      ∃ rest, (segments node.id).tail = "params".toList :: rest := by
  intro node member
  obtain ⟨rest, whole⟩ := segments_prefix_of_mem_functionNodes valid solid node member
  exact ⟨rest, by rw [← whole]; rfl⟩

theorem Registry.tail_segments {registry : Registry} {rule : Rule}
    (float : rule ∈ registry.rules) :
    ∃ second rest, (segments rule.id).tail = second :: rest ∧ second ≠ "params".toList := by
  rcases Registry.mem_rules.mp float with ⟨precision, _, rfl | rfl⟩ | ⟨_, rfl⟩
  · have digits : ∀ c ∈ (toString precision.digits).toList, c.isDigit = true :=
      fun c member => isDigit_of_mem_toString member
    have whole : '-' ∉ (toString precision.digits).toList :=
      fun member => absurd (digits '-' member) (by decide)
    have text : (floatId precision).text.toList =
        (RuleId.mk "float").text.toList ++ '-' :: (toString precision.digits).toList := by
      simp [floatId]
    refine ⟨(toString precision.digits).toList, [], ?_, fun same => ?_⟩
    · rw [segments_of_toList text, List.splitOn_eq_singleton whole]
      rfl
    · exact absurd (digits 'p' (same ▸ List.mem_cons_self)) (by decide)
  · have text : (fractionId precision).text.toList =
        (RuleId.mk "fractional-part").text.toList ++ '-' :: (toString precision.digits).toList := by
      simp [fractionId]
    refine ⟨"part".toList, (toString precision.digits).toList.splitOn '-', ?_, by decide⟩
    rw [segments_of_toList text]
    rfl
  · exact ⟨"part".toList, [], rfl, by decide⟩

section

variable {functions : List FunctionSpec}

theorem nodup_functionNodes (valid : ∀ function ∈ functions, function.Valid)
    (separate : Separate functions) :
    ((functions.flatMap functionNodes).map Node.id).Nodup := by
  have each : ∀ function ∈ functions, ((functionNodes function).map Node.id).Nodup := by
    intro function member
    exact nodup_object (nodup_fieldNodes (paramsId function) function.parameters
      (valid function member).parameters (separate.fields function member))
  have apart : functions.Pairwise fun left right =>
      List.Disjoint ((functionNodes left).map Node.id) ((functionNodes right).map Node.id) := by
    refine (List.pairwise_map.mp separate.distinct).imp_of_mem ?_
    intro left right leftMember rightMember different id leftNode rightNode
    obtain ⟨node, leftInside, rfl⟩ := List.mem_map.mp leftNode
    obtain ⟨twin, rightInside, same⟩ := List.mem_map.mp rightNode
    obtain ⟨leftRest, front⟩ := segments_prefix_of_mem_functionNodes (valid left leftMember)
      (separate.solid left leftMember) node leftInside
    obtain ⟨rightRest, back⟩ := segments_prefix_of_mem_functionNodes (valid right rightMember)
      (separate.solid right rightMember) twin rightInside
    rw [same, ← front] at back
    exact different (String.toList_inj.mp (List.cons.inj back).1.symm)
  rw [List.map_flatMap]
  exact List.nodup_flatMap.mpr ⟨each, apart⟩

theorem nodup_callRules (separate : Separate functions) :
    ((functions.map callRule).map Rule.id).Nodup := by
  rw [List.map_map]
  refine List.pairwise_map.mpr ((List.pairwise_map.mp separate.distinct).imp_of_mem ?_)
  intro left right leftMember rightMember different same
  refine different ?_
  simpa [callRule, function_of_solid (separate.solid left leftMember),
    function_of_solid (separate.solid right rightMember)] using same

theorem nodup_emittedRules (valid : ∀ function ∈ functions, function.Valid)
    (separate : Separate functions) : ((emittedRules functions).map Rule.id).Nodup := by
  have calls : ∀ id ∈ (functions.map callRule).map Rule.id, (segments id).tail = [] := by
    simp only [List.forall_mem_map]
    exact fun function member =>
      tail_segments_function (valid function member) (separate.solid function member)
  have inner : ∀ id ∈ ((functions.flatMap functionNodes).map Node.rule).map Rule.id,
      ∃ rest, (segments id).tail = "params".toList :: rest := by
    simp only [List.forall_mem_map, List.forall_mem_flatMap]
    exact fun function member =>
      tail_segments_node (valid function member) (separate.solid function member)
  have floats : ∀ id ∈ (floatRegistry functions).rules.map Rule.id,
      ∃ second rest, (segments id).tail = second :: rest ∧ second ≠ "params".toList := by
    simp only [List.forall_mem_map]
    exact fun rule => Registry.tail_segments
  have nodupInner : (((functions.flatMap functionNodes).map Node.rule).map Rule.id).Nodup := by
    rw [List.map_map]
    exact nodup_functionNodes valid separate
  rw [emittedRules_eq, List.map_append, List.map_append]
  refine List.nodup_append'.mpr ⟨List.nodup_append'.mpr ⟨nodup_callRules separate, nodupInner, ?_⟩,
    Registry.nodup_ids _, ?_⟩
  · intro id call node
    obtain ⟨rest, params⟩ := inner id node
    rw [calls id call] at params
    cases params
  · intro id schema float
    obtain ⟨second, rest, tail, different⟩ := floats id float
    rcases List.mem_append.mp schema with call | node
    · rw [calls id call] at tail
      cases tail
    · obtain ⟨others, params⟩ := inner id node
      rw [params] at tail
      exact different (List.cons.inj tail).1.symm

theorem unreserved_of_separate (valid : ∀ function ∈ functions, function.Valid)
    (separate : Separate functions) : ∀ rule ∈ emittedRules functions, rule.id ∉ reservedIds := by
  intro rule emitted reserved
  obtain ⟨function, member, rfl⟩ := callRule_of_reserved valid emitted reserved
  have names : ∀ id ∈ reservedIds, id.text ∈ ["root", "string", "number", "boolean", "ws"] := by
    decide
  have named := names _ reserved
  rw [callRule, function_of_solid (separate.solid function member)] at named
  exact separate.unreserved function member named

end

mutual

theorem length_nodes (id : RuleId) (parameter : Parameter) :
    (nodes id parameter.shape).length = parameter.composites := by
  cases parameter with
  | string | boolean | integer | enum => rfl
  | float note precision => cases precision <;> rfl
  | array note element =>
      rw [Parameter.shape, nodes, List.length_cons, length_nodes id.element element]
      rfl
  | object note fields =>
      rw [Parameter.shape, nodes, List.length_cons, length_fieldNodes id fields]
      rfl
termination_by structural parameter

theorem length_fieldNodes (id : RuleId) (fields : Fields) :
    (fieldNodes id (fieldShapes fields)).length = fieldComposites fields := by
  match fields with
  | [] => rfl
  | (name, parameter) :: rest =>
      rw [fieldShapes, fieldNodes, List.length_append, length_nodes (id.child name) parameter,
        length_fieldNodes id rest]
      rfl
termination_by structural fields

end

theorem length_functionNodes (function : FunctionSpec) :
    (functionNodes function).length = fieldComposites function.parameters + 1 :=
  length_nodes (paramsId function) (.object .plain function.parameters)

theorem length_flatMap_functionNodes (functions : List FunctionSpec) :
    (functions.flatMap functionNodes).length = functions.length +
      (functions.map fun function => fieldComposites function.parameters).sum := by
  induction functions with
  | nil => rfl
  | cons function rest ih =>
      rw [List.flatMap_cons, List.length_append, length_functionNodes, ih, List.length_cons,
        List.map_cons, List.sum_cons]
      omega

/-- The number of float rules for a number of precisions. -/
def floatRules (precisions : Nat) : Nat :=
  if precisions = 0 then 0 else 2 * precisions + 1

theorem Registry.length_rules (registry : Registry) :
    registry.rules.length = floatRules registry.precisions.length := by
  have pairs : (registry.precisions.flatMap precisionRules).length =
      2 * registry.precisions.length := by
    simp [precisionRules, Nat.mul_comm]
  unfold rules
  split
  · rename_i empty
    rw [isEmpty, List.isEmpty_iff] at empty
    simp [empty, floatRules]
  · rename_i some
    rw [isEmpty, List.isEmpty_iff] at some
    simp [some, floatRules, pairs]

def precisions (functions : List FunctionSpec) : List Precision :=
  functions.flatMap fun function => fieldPrecisions function.parameters

theorem length_floatRegistry (functions : List FunctionSpec) :
    (floatRegistry functions).precisions.length = (precisions functions).dedup.length := by
  refine ((List.perm_ext_iff_of_nodup (Registry.nodup_precisions _)
    (List.nodup_dedup _)).mpr fun precision => ?_).length_eq
  rw [mem_floatRegistry, List.mem_dedup, precisions, List.mem_flatMap]

/-- Where names stay apart every rule is kept: the root rule, a call and an object of parameters for
each function, a rule for each object, array and enumeration, and the rules of the floats. -/
theorem assemble_of_separate {functions : List FunctionSpec} (nonempty : functions ≠ [])
    (valid : ∀ function ∈ functions, function.Valid) (separate : Separate functions) :
    ∃ grammar, assemble functions = ⟨[], .ok grammar⟩ ∧
      grammar.rules = rootRule functions :: (functions.map callRule ++
        (functions.flatMap functionNodes).map Node.rule ++ (floatRegistry functions).rules) ∧
      (grammar.rules.map Rule.id).Nodup ∧
      (∀ function ∈ functions,
        (functionNodes function).length = fieldComposites function.parameters + 1) ∧
      (floatRegistry functions).rules.length = floatRules (precisions functions).dedup.length ∧
      grammar.rules.length = 1 + 2 * functions.length +
        (functions.map fun function => fieldComposites function.parameters).sum +
        floatRules (precisions functions).dedup.length := by
  have distinct := nodup_emittedRules valid separate
  have unreserved := unreserved_of_separate valid separate
  have names : (functions.map (·.name)).Nodup := by
    refine List.Nodup.of_map Text.lowercase ?_
    simpa [Function.comp_def] using separate.distinct
  have assembled := assembles_iff.mpr
    (.accepted nonempty names ⟨unreserved, Agree.of_nodup distinct⟩)
  obtain ⟨kept, dropped⟩ := firsts_of_nodup distinct fun rule _ => List.not_mem_nil
  rw [kept, dropped] at assembled
  have success : compile functions = .ok ⟨rootRule functions :: emittedRules functions⟩ := by
    rw [compile, assembled]
  have floats : (floatRegistry functions).rules.length =
      floatRules (precisions functions).dedup.length := by
    rw [Registry.length_rules, length_floatRegistry]
  refine ⟨_, assembled, ?_, (compiled_of_compile success).nodup_ids,
    fun function _ => length_functionNodes function, floats, ?_⟩
  · rw [emittedRules_eq]
  · rw [emittedRules_eq, List.length_cons, List.length_append, List.length_append, List.length_map,
      List.length_map, length_flatMap_functionNodes, floats]
    omega

/-- Functions and fields named like the segments that names of rules are made of. -/
def crowded : List FunctionSpec := [
  ⟨"element", "", [
    ("element", .array .plain (.object .plain [
      ("element", .array .plain (.float .plain (some ⟨7, by decide, by decide⟩)))])),
    ("params", .object .plain [("Element", .string .plain)])]⟩,
  ⟨"float", "", [("2", .enum .plain ⟨["part"], by decide, by decide⟩)]⟩,
  ⟨"integer", "", [("part", .array .plain (.boolean .plain))]⟩,
  ⟨"params", "", [("params", .float .plain (some ⟨9, by decide, by decide⟩))]⟩]

theorem crowded_valid : ∀ function ∈ crowded, function.Valid := by
  decide

theorem crowded_separate : Separate crowded :=
  ⟨by decide, by decide +kernel, by decide +kernel, by decide +kernel⟩

theorem assemble_of_separate_crowded :
    ∃ grammar, assemble crowded = ⟨[], .ok grammar⟩ ∧ grammar.rules.length = 20 := by
  have nonempty : crowded ≠ [] := by decide
  obtain ⟨grammar, assembled, _, _, _, _, length⟩ :=
    assemble_of_separate nonempty crowded_valid crowded_separate
  exact ⟨grammar, assembled, length.trans (by decide)⟩

end ToolGrammar.Grammar
