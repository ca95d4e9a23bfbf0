import ToolGrammar.Proofs.Grammar.Outcome

namespace ToolGrammar.Gbnf

mutual

@[simp] def Item.references : Item → List String
  | .literal _ | .oneOf _ => []
  | .reference name => [name]
  | .group alternatives => alternativesReferences alternatives
  | .optional item | .star item | .plus item => item.references
termination_by structural item => item

@[simp] def sequenceReferences : List Item → List String
  | [] => []
  | item :: rest => item.references ++ sequenceReferences rest
termination_by structural items => items

@[simp] def alternativesReferences : List (List Item) → List String
  | [] => []
  | items :: rest => sequenceReferences items ++ alternativesReferences rest
termination_by structural alternatives => alternatives

end

theorem sequenceReferences_append (front back : List Item) :
    sequenceReferences (front ++ back) = sequenceReferences front ++ sequenceReferences back := by
  induction front with
  | nil => rfl
  | cons item rest ih => simp [ih]

theorem sequenceReferences_replicate (n : Nat) (item : Item) :
    sequenceReferences (List.replicate n item) = (List.replicate n item.references).flatten := by
  induction n with
  | zero => rfl
  | succ n ih => simp [List.replicate_succ, ih]

theorem alternativesReferences_map {α : Type} (item : α → Item) (members : List α) :
    alternativesReferences (members.map fun member => [item member]) =
      members.flatMap fun member => (item member).references := by
  induction members with
  | nil => rfl
  | cons member rest ih => simp [ih]

def Production.references (production : Production) : List String :=
  alternativesReferences production.alternatives

end ToolGrammar.Gbnf

namespace ToolGrammar.Grammar

open Schema Gbnf

/-- What a body refers to apart from white space. -/
def Body.mentions : Body → List Reference
  | .choice ids => ids.map .rule
  | .call _ params => [.rule params]
  | .object fields => fields.map (·.2)
  | .array item => [item]
  | .fixedPoint precision => [.rule integerPartId, .rule (fractionId precision)]
  | .enum _ | .fraction _ | .integerPart => []

theorem mem_fieldsItems_references {fields : List (String × Reference)} {name : String}
    (visible : name ≠ space) :
    name ∈ sequenceReferences (fieldsItems fields) ↔
      ∃ reference ∈ fields.map (·.2), reference.text = name := by
  induction fields with
  | nil => simp [fieldsItems]
  | cons field rest ih =>
      have own : name ∈ sequenceReferences (fieldItems field) ↔ field.2.text = name := by
        simp [fieldItems, spaceItem, Reference.item, visible, eq_comm]
      have comma : name ∉ sequenceReferences
          (if rest.isEmpty then [] else [.literal [','], spaceItem]) := by
        split <;> simp [spaceItem, visible]
      rw [fieldsItems_cons, sequenceReferences_append, sequenceReferences_append, List.mem_append,
        List.mem_append, own, ih, or_iff_left comma, List.map_cons, List.exists_mem_cons_iff]

theorem Rule.mem_references_iff {rule : Rule} {name : String} (visible : name ≠ space) :
    name ∈ rule.production.references ↔
      ∃ reference ∈ rule.body.mentions, reference.text = name := by
  obtain ⟨id, body⟩ := rule
  simp only [Rule.production, Production.references]
  cases body with
  | choice ids =>
      simp [Body.alternatives, alternativesReferences_map, Body.mentions, Reference.text, eq_comm]
  | enum values => simp [Body.alternatives, alternativesReferences_map, Body.mentions]
  | object fields =>
      have blank : name ∉ sequenceReferences (if fields.isEmpty then [] else [spaceItem]) := by
        split <;> simp [spaceItem, visible]
      simp only [Body.alternatives, alternativesReferences, sequenceReferences_append,
        List.mem_append, mem_fieldsItems_references visible, Body.mentions, blank]
      simp [spaceItem, visible]
  | call name params =>
      simp [Body.alternatives, Body.mentions, spaceItem, visible, Reference.text, eq_comm]
  | array item =>
      simp [Body.alternatives, Body.mentions, itemsItem, spaceItem, visible, Reference.item,
        eq_comm]
  | fixedPoint precision =>
      simp [Body.alternatives, Body.mentions, Reference.text, eq_comm]
  | fraction precision => simp [Body.alternatives, sequenceReferences_replicate, Body.mentions]
  | integerPart => simp [Body.alternatives, Body.mentions]

def Body.level : Body → Nat
  | .choice _ => 0
  | .call .. | .object _ | .array _ | .enum _ => 1
  | .fixedPoint _ => 2
  | .fraction _ | .integerPart => 3

def Rule.rank (rule : Rule) : Nat ×ₗ Nat :=
  toLex (rule.body.level, rule.id.text.length)

theorem Rule.rank_lt_of_level {rule other : Rule} (below : rule.body.level < other.body.level) :
    rule.rank < other.rank :=
  Prod.Lex.toLex_lt_toLex.mpr (.inl below)

theorem Rule.rank_lt_of_length {rule other : Rule} (same : rule.body.level = other.body.level)
    (shorter : rule.id.text.length < other.id.text.length) : rule.rank < other.rank :=
  Prod.Lex.toLex_lt_toLex.mpr (.inr ⟨same, shorter⟩)

theorem Node.level_rule (node : Node) : node.rule.body.level = 1 := by
  obtain ⟨id, type⟩ := node
  cases type <;> rfl

theorem Child.length_lt {node : Node} {id : RuleId} {shape : Shape}
    (child : Child node id shape) : node.id.text.length < id.text.length := by
  have suffix : 0 < "-element".length := by decide
  have hyphen : 0 < "-".length := by decide
  cases child with
  | element =>
      simp only [RuleId.element, String.length_append]
      omega
  | field =>
      simp only [RuleId.child, String.length_append]
      omega

theorem Child.precisions_subset {node : Node} {id : RuleId} {shape : Shape}
    (child : Child node id shape) : shape.precisions ⊆ node.type.shape.precisions := by
  cases child with
  | element type =>
      rw [type]
      exact List.Subset.refl _
  | @field fields name shape type member =>
      rw [type]
      change shape.precisions ⊆ shapePrecisions fields
      clear type
      induction fields with
      | nil => cases member
      | cons field rest ih =>
          rw [shapePrecisions]
          rcases List.mem_cons.mp member with rfl | later
          · exact List.subset_append_left _ _
          · exact List.subset_append_of_subset_right _ (ih later)

theorem precisions_subset_of_mem (id : RuleId) (shape : Shape) :
    ∀ node ∈ nodes id shape, node.type.shape.precisions ⊆ shape.precisions := by
  refine nodes_induction ?_ id shape ?_
  · exact fun node childId type within child => List.Subset.trans child.precisions_subset within
  · exact fun type same => same ▸ List.Subset.refl _

theorem mem_mentions_node {node : Node} {mention : Reference} :
    mention ∈ node.rule.body.mentions ↔
      ∃ id shape, Child node id shape ∧ mention = reference id shape := by
  obtain ⟨id, type⟩ := node
  constructor
  · intro member
    cases type with
    | enum values => cases member
    | array element => exact ⟨_, _, .element rfl, List.mem_singleton.mp member⟩
    | object fields =>
        simp only [Node.rule, Body.mentions, fieldReferences, List.map_map, List.mem_map] at member
        obtain ⟨⟨name, shape⟩, found, rfl⟩ := member
        exact ⟨_, _, .field rfl found, rfl⟩
  · rintro ⟨childId, shape, child, rfl⟩
    cases child with
    | element type => cases type; simp [Node.rule, Body.mentions]
    | field type member =>
        cases type
        simp only [Node.rule, Body.mentions, fieldReferences, List.map_map, List.mem_map]
        exact ⟨_, member, rfl⟩

section

variable {functions : List FunctionSpec}

/-- A mention is a token, or the name of an emitted rule that ranks after the rule. -/
def Resolves (functions : List FunctionSpec) (rule : Rule) (mention : Reference) : Prop :=
  mention.text ∈ primitiveTokens ∨
    ∃ target ∈ emittedRules functions, target.id.text = mention.text ∧ rule.rank < target.rank

theorem precisions_subset_floatRegistry {node : Node}
    (known : node ∈ functions.flatMap functionNodes) :
    node.type.shape.precisions ⊆ (floatRegistry functions).precisions := by
  obtain ⟨function, found, inside⟩ := List.mem_flatMap.mp known
  intro precision member
  have own := precisions_subset_of_mem _ _ node inside member
  exact mem_floatRegistry.mpr
    ⟨function, found, by rwa [← shapePrecisions_fieldShapes]⟩

theorem resolves_child {node : Node} (known : node ∈ functions.flatMap functionNodes)
    {id : RuleId} {shape : Shape} (child : Child node id shape) :
    Resolves functions node.rule (reference id shape) := by
  have composite (type : Composite) (same : shape = type.shape) :
      Resolves functions node.rule (.rule id) := by
    have inner : ⟨id, type⟩ ∈ functions.flatMap functionNodes :=
      functionNodes_closed functions node known
        (child.nodes_subset (same ▸ mem_nodes_self ⟨id, type⟩))
    refine .inr ⟨_, node_emitted inner, rfl, ?_⟩
    refine Rule.rank_lt_of_length ?_ child.length_lt
    rw [node.level_rule, Node.level_rule]
  cases shape with
  | string | boolean | number =>
      exact .inl (by simp [reference, Reference.text, primitiveTokens])
  | fixed precision =>
      have used : precision ∈ (floatRegistry functions).precisions :=
        precisions_subset_floatRegistry known (child.precisions_subset List.mem_cons_self)
      have float := Registry.mem_rules.mpr (.inl ⟨precision, used, .inl rfl⟩)
      refine .inr ⟨_, float_emitted float, rfl, ?_⟩
      refine Rule.rank_lt_of_level ?_
      rw [node.level_rule]
      exact Nat.lt_succ_self 1
  | enum values => exact composite (.enum values) rfl
  | array element => exact composite (.array element) rfl
  | object fields => exact composite (.object fields) rfl

theorem resolves_mention {rule : Rule}
    (member : rule = rootRule functions ∨ rule ∈ emittedRules functions) :
    ∀ mention ∈ rule.body.mentions, Resolves functions rule mention := by
  intro mention mentioned
  rcases member with rfl | emitted
  · obtain ⟨id, listed, rfl⟩ := List.mem_map.mp mentioned
    obtain ⟨function, found, rfl⟩ := List.mem_map.mp listed
    exact .inr ⟨callRule function, call_emitted found, rfl,
      Rule.rank_lt_of_level Nat.zero_lt_one⟩
  · rcases mem_emittedRules.mp emitted with ⟨function, found, rfl⟩ | ⟨node, known, rfl⟩ | float
    · obtain rfl := List.mem_singleton.mp mentioned
      have params : ⟨paramsId function, .object (fieldShapes function.parameters)⟩ ∈
          functions.flatMap functionNodes :=
        functionNodes_subset found List.mem_cons_self
      refine .inr ⟨_, node_emitted params, rfl, ?_⟩
      have suffix : 0 < "-params".length := by decide
      refine Rule.rank_lt_of_length rfl ?_
      simp only [callRule, Node.rule, paramsId, RuleId.params, String.length_append]
      omega
    · obtain ⟨id, shape, child, rfl⟩ := mem_mentions_node.mp mentioned
      exact resolves_child known child
    · rcases Registry.mem_rules.mp float with ⟨precision, used, rfl | rfl⟩ | ⟨_, rfl⟩
      · have whole := Registry.mem_rules.mpr (.inr ⟨List.ne_nil_of_mem used, rfl⟩)
        have fraction := Registry.mem_rules.mpr (.inl ⟨precision, used, .inr rfl⟩)
        have inner : 2 < 3 := by decide
        simp only [Body.mentions, List.mem_cons, List.not_mem_nil, or_false] at mentioned
        rcases mentioned with rfl | rfl
        · exact .inr ⟨_, float_emitted whole, rfl,
            Rule.rank_lt_of_level inner⟩
        · exact .inr ⟨_, float_emitted fraction, rfl,
            Rule.rank_lt_of_level inner⟩
      · cases mentioned
      · cases mentioned

end

end ToolGrammar.Grammar
