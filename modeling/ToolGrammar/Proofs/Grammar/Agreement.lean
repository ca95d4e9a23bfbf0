import ToolGrammar.Proofs.Grammar.Resolution

namespace ToolGrammar.Grammar

open Schema

/-- Nodes of one name have the same rule. -/
def Consistent (known : List Node) : Prop :=
  ∀ left ∈ known, ∀ right ∈ known, left.id = right.id → left.rule = right.rule

namespace Consistent

variable {known : List Node}

theorem body_eq (consistent : Consistent known) {id : RuleId} (left right : Composite)
    (leftKnown : nodes id left.shape ⊆ known) (rightKnown : nodes id right.shape ⊆ known) :
    (Node.rule ⟨id, left⟩).body = (Node.rule ⟨id, right⟩).body := by
  have same := consistent _ (leftKnown (mem_nodes_self ⟨id, left⟩)) _
    (rightKnown (mem_nodes_self ⟨id, right⟩)) rfl
  rw [same]

mutual

/-- Shapes at one path are equal if one reference stands for both. -/
theorem shape_eq (consistent : Consistent known) (id : RuleId) (left right : Shape)
    (leftKnown : nodes id left ⊆ known) (rightKnown : nodes id right ⊆ known)
    (same : reference id left = reference id right) : left = right := by
  cases left with
  | string | boolean | number | fixed =>
      cases right <;> cases same
      rfl
  | enum values =>
      cases right with
      | string | boolean | number | fixed => cases same
      | enum others =>
          have bodies := consistent.body_eq (.enum values) (.enum others) leftKnown rightKnown
          rw [Body.enum.inj bodies]
      | array other => cases consistent.body_eq (.enum values) (.array other) leftKnown rightKnown
      | object others =>
          cases consistent.body_eq (.enum values) (.object others) leftKnown rightKnown
  | array element =>
      cases right with
      | string | boolean | number | fixed => cases same
      | enum others => cases consistent.body_eq (.array element) (.enum others) leftKnown rightKnown
      | array other =>
          have bodies := consistent.body_eq (.array element) (.array other) leftKnown rightKnown
          rw [nodes, List.cons_subset] at leftKnown rightKnown
          rw [shape_eq consistent id.element element other leftKnown.2 rightKnown.2
            (Body.array.inj bodies)]
      | object others =>
          cases consistent.body_eq (.array element) (.object others) leftKnown rightKnown
  | object fields =>
      cases right with
      | string | boolean | number | fixed => cases same
      | enum others => cases consistent.body_eq (.object fields) (.enum others) leftKnown rightKnown
      | array other => cases consistent.body_eq (.object fields) (.array other) leftKnown rightKnown
      | object others =>
          have bodies := consistent.body_eq (.object fields) (.object others) leftKnown rightKnown
          rw [nodes, List.cons_subset] at leftKnown rightKnown
          rw [fields_eq consistent id fields others leftKnown.2 rightKnown.2
            (Body.object.inj bodies)]
termination_by structural left

theorem fields_eq (consistent : Consistent known) (id : RuleId)
    (left right : List (String × Shape)) (leftKnown : fieldNodes id left ⊆ known)
    (rightKnown : fieldNodes id right ⊆ known)
    (same : fieldReferences id left = fieldReferences id right) : left = right := by
  match left, right with
  | [], [] => rfl
  | [], _ :: _ | _ :: _, [] => simp [fieldReferences] at same
  | (name, shape) :: rest, (other, otherShape) :: others =>
      simp only [fieldReferences, List.map_cons, List.cons.injEq, Prod.mk.injEq] at same
      obtain ⟨⟨rfl, references⟩, tails⟩ := same
      simp only [fieldNodes, List.append_subset] at leftKnown rightKnown
      rw [shape_eq consistent (id.child name) shape otherShape leftKnown.1 rightKnown.1 references,
        fields_eq consistent id rest others leftKnown.2 rightKnown.2 tails]
termination_by structural left

end

theorem type_eq (consistent : Consistent known)
    (closed : ∀ node ∈ known, nodes node.id node.type.shape ⊆ known) {left right : Node}
    (leftMember : left ∈ known) (rightMember : right ∈ known) (same : left.id = right.id) :
    left.type = right.type := by
  refine Composite.shape_inj (consistent.shape_eq left.id _ _ (closed left leftMember) ?_ ?_)
  · rw [same]
    exact closed right rightMember
  · rw [reference_composite, reference_composite]

end Consistent

theorem functionNodes_closed (functions : List FunctionSpec) :
    ∀ node ∈ functions.flatMap functionNodes,
      nodes node.id node.type.shape ⊆ functions.flatMap functionNodes := by
  intro node member
  obtain ⟨function, found, inside⟩ := List.mem_flatMap.mp member
  exact List.Subset.trans (nodes_subset_of_mem _ _ node inside) (functionNodes_subset found)

theorem callRule_ne_node (function : FunctionSpec) (node : Node) :
    callRule function ≠ node.rule := by
  obtain ⟨id, type⟩ := node
  cases type <;> simp [callRule, Node.rule]

theorem callRule_ne_float (function : FunctionSpec) {registry : Registry} {rule : Rule}
    (float : rule ∈ registry.rules) : callRule function ≠ rule := by
  rcases Registry.mem_rules.mp float with ⟨precision, _, rfl | rfl⟩ | ⟨_, rfl⟩ <;> simp [callRule]

theorem node_ne_float (node : Node) {registry : Registry} {rule : Rule}
    (float : rule ∈ registry.rules) : node.rule ≠ rule := by
  obtain ⟨id, type⟩ := node
  rcases Registry.mem_rules.mp float with ⟨precision, _, rfl | rfl⟩ | ⟨_, rfl⟩ <;>
    cases type <;> simp [Node.rule]

theorem Registry.nodup_precisions (registry : Registry) : registry.precisions.Nodup :=
  registry.ascending.imp fun below same => absurd (same ▸ below) (lt_irrefl _)

theorem Registry.nodup_ids (registry : Registry) : (registry.rules.map Rule.id).Nodup := by
  unfold Registry.rules
  split
  · exact List.nodup_nil
  · rw [List.map_append, List.map_flatMap]
    refine List.nodup_append'.mpr ⟨List.nodup_flatMap.mpr ⟨fun precision _ => ?_, ?_⟩,
      List.nodup_singleton _, ?_⟩
    · simp [precisionRules, floatId_ne_fractionId]
    · refine registry.nodup_precisions.imp fun different id left right => different ?_
      simp only [precisionRules, List.map_cons, List.map_nil, List.mem_cons, List.not_mem_nil,
        or_false] at left right
      rcases left with rfl | rfl <;> rcases right with same | same
      · exact floatId_inj same
      · exact absurd same (floatId_ne_fractionId _ _)
      · exact absurd same.symm (floatId_ne_fractionId _ _)
      · exact fractionId_inj same
    · intro id own shared
      obtain ⟨precision, _, either⟩ := List.mem_flatMap.mp own
      have initial : id.text.toList.head? = some 'f' := by
        simp only [precisionRules, List.map_cons, List.map_nil, List.mem_cons, List.not_mem_nil,
          or_false] at either
        rcases either with rfl | rfl <;> simp [floatId, fractionId]
      rw [List.mem_singleton.mp shared] at initial
      exact absurd initial (by decide)

namespace Compiled

variable {functions : List FunctionSpec} {grammar : Grammar}

theorem consistent (compiled : Compiled functions grammar)
    (valid : ∀ function ∈ functions, function.Valid) :
    Consistent (functions.flatMap functionNodes) := by
  intro left leftMember right rightMember same
  exact compiled.eq_of_id_eq valid (node_emitted leftMember) (node_emitted rightMember) same

theorem nodup_calls (compiled : Compiled functions grammar)
    (valid : ∀ function ∈ functions, function.Valid) :
    ((functions.map callRule).map Rule.id).Nodup := by
  have names := List.pairwise_map.mp compiled.names
  rw [List.map_map]
  refine List.pairwise_map.mpr (names.imp_of_mem ?_)
  intro left right leftMember rightMember different same
  have calls := compiled.eq_of_id_eq valid (call_emitted leftMember) (call_emitted rightMember) same
  exact different (Body.call.inj (congrArg Rule.body calls)).1

/-- Only rules of nodes repeat others. -/
theorem firsts_emittedRules (compiled : Compiled functions grammar)
    (valid : ∀ function ∈ functions, function.Valid) :
    firsts Rule.id [] (emittedRules functions) =
        functions.map callRule ++
          (firsts Node.id [] (functions.flatMap functionNodes)).map Node.rule ++
          (floatRegistry functions).rules ∧
      repeats Rule.id [] (emittedRules functions) =
        (repeats Node.id [] (functions.flatMap functionNodes)).map Node.rule := by
  -- A call, a node and a float never have the same rule, so by `same` they share no name either.
  have same : ∀ left ∈ emittedRules functions, ∀ right ∈ emittedRules functions,
      left.id = right.id → left = right :=
    fun left leftMember right => compiled.eq_of_id_eq valid leftMember
  rw [emittedRules_eq] at same ⊢
  have ends : ∀ rule ∈ (functions.flatMap functionNodes).map Node.rule,
      ∀ float ∈ (floatRegistry functions).rules, rule.id ≠ float.id := by
    intro rule own float member named
    obtain ⟨node, _, rfl⟩ := List.mem_map.mp own
    exact node_ne_float node member (same _ (by simp [own]) _ (by simp [member]) named)
  have starts : ∀ call ∈ functions.map callRule,
      ∀ rule ∈ (functions.flatMap functionNodes).map Node.rule ++ (floatRegistry functions).rules,
        call.id ≠ rule.id := by
    intro call member rule later named
    have equal := same call (by simp [member]) rule
      (by rw [List.append_assoc]; exact List.mem_append_right _ later) named
    obtain ⟨function, _, rfl⟩ := List.mem_map.mp member
    rcases List.mem_append.mp later with own | float
    · obtain ⟨node, _, rfl⟩ := List.mem_map.mp own
      exact callRule_ne_node function node equal
    · exact callRule_ne_float function float equal
  obtain ⟨keptCalls, repeatedCalls⟩ :=
    firsts_append_of_fresh [] (compiled.nodup_calls valid) (by simp) starts
  obtain ⟨keptFloats, repeatedFloats⟩ :=
    firsts_append_fresh [] (Registry.nodup_ids _) (by simp) ends
  rw [List.append_assoc, List.append_assoc, keptCalls, repeatedCalls, keptFloats, repeatedFloats,
    firsts_map, repeats_map]
  exact ⟨rfl, rfl⟩

end Compiled

/-- Nodes of one name have the same type, so a rule that is dropped described the type of the rule
that is kept in its place. -/
theorem repeated_names_agree {functions : List FunctionSpec} {grammar : Grammar}
    (valid : ∀ function ∈ functions, function.Valid) (success : compile functions = .ok grammar) :
    (∀ left ∈ functions.flatMap functionNodes, ∀ right ∈ functions.flatMap functionNodes,
      left.id = right.id → left.type = right.type) ∧
    (assemble functions).dropped =
      (repeats Node.id [] (functions.flatMap functionNodes)).map Node.id ∧
    ∀ node ∈ repeats Node.id [] (functions.flatMap functionNodes),
      ∃ kept ∈ firsts Node.id [] (functions.flatMap functionNodes),
        kept.id = node.id ∧ kept.type = node.type ∧ kept.rule ∈ grammar.rules := by
  have compiled := compiled_of_compile success
  obtain ⟨keptRules, repeated⟩ := compiled.firsts_emittedRules valid
  have agree : ∀ left ∈ functions.flatMap functionNodes,
      ∀ right ∈ functions.flatMap functionNodes, left.id = right.id → left.type = right.type :=
    fun left leftMember right rightMember => (compiled.consistent valid).type_eq
      (functionNodes_closed functions) leftMember rightMember
  refine ⟨agree, ?_, fun node member => ?_⟩
  · rw [compiled.dropped, repeated, List.map_map]
    rfl
  · have own := mem_of_mem_repeats member
    have unseen : Node.id node ∉ [] := List.not_mem_nil
    obtain ⟨kept, first, named⟩ := exists_mem_firsts own unseen
    refine ⟨kept, first, named, agree kept (mem_of_mem_firsts first).1 node own named, ?_⟩
    rw [compiled.rules, keptRules]
    simp only [List.mem_cons, List.mem_append, List.mem_map]
    exact .inr (.inl (.inr ⟨kept, first, rfl⟩))

/-- Two fields on different paths share a name, and describe the same enumeration. -/
def sharing : FunctionSpec where
  name := "move"
  description := ""
  parameters := [
    ("a", .object .plain [("b_c", .enum .plain ⟨["x", "y"], by decide, by decide⟩)]),
    ("a_b", .object .plain [("c", .enum .plain ⟨["x", "y"], by decide, by decide⟩)])]

theorem sharing_valid : ∀ function ∈ [sharing], function.Valid := by
  decide

theorem compile_sharing : ∃ grammar, compile [sharing] = .ok grammar :=
  ⟨_, by cbv⟩

theorem repeated_names_agree_sharing :
    (assemble [sharing]).dropped = [⟨"move-params-a-b-c"⟩] ∧
      ∀ left ∈ functionNodes sharing, ∀ right ∈ functionNodes sharing,
        left.id = right.id → left.type = right.type := by
  obtain ⟨grammar, success⟩ := compile_sharing
  obtain ⟨agree, dropped, _⟩ := repeated_names_agree sharing_valid success
  have repeated : (repeats Node.id [] ([sharing].flatMap functionNodes)).map Node.id =
      [⟨"move-params-a-b-c"⟩] := by cbv
  exact ⟨dropped.trans repeated, by simpa using agree⟩

end ToolGrammar.Grammar
