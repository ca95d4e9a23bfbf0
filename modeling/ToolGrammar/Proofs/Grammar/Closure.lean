import ToolGrammar.Proofs.Grammar.References

namespace ToolGrammar.Grammar

open Schema Gbnf

def Refers (grammar : Grammar) (rule other : Rule) : Prop :=
  rule ∈ grammar.rules ∧ other ∈ grammar.rules ∧ other.id.text ∈ rule.production.references

mutual

/-- A precision that occurs in a shape is all of it, or a node of it mentions the precision. -/
theorem mentions_float (id : RuleId) (shape : Shape) {precision : Precision}
    (used : precision ∈ shape.precisions) :
    shape = .fixed precision ∨
      ∃ node ∈ nodes id shape, .float precision ∈ node.rule.body.mentions := by
  cases shape with
  | string | boolean | number | enum => cases used
  | fixed other =>
      obtain rfl := List.mem_singleton.mp used
      exact .inl rfl
  | array element =>
      rcases mentions_float id.element element used with rfl | ⟨node, inside, mentioned⟩
      · exact .inr ⟨_, List.mem_cons_self, mem_mentions_node.mpr ⟨_, _, .element rfl, rfl⟩⟩
      · exact .inr ⟨node, List.mem_cons_of_mem _ inside, mentioned⟩
  | object fields =>
      rcases mentions_float_fields id fields used with ⟨name, member⟩ | ⟨node, inside, mentioned⟩
      · exact .inr ⟨_, List.mem_cons_self, mem_mentions_node.mpr ⟨_, _, .field rfl member, rfl⟩⟩
      · exact .inr ⟨node, List.mem_cons_of_mem _ inside, mentioned⟩
termination_by structural shape

theorem mentions_float_fields (id : RuleId) (fields : List (String × Shape))
    {precision : Precision} (used : precision ∈ shapePrecisions fields) :
    (∃ name, (name, .fixed precision) ∈ fields) ∨
      ∃ node ∈ fieldNodes id fields, .float precision ∈ node.rule.body.mentions := by
  match fields with
  | [] => cases used
  | (name, shape) :: rest =>
      rw [shapePrecisions, List.mem_append] at used
      rcases used with first | later
      · rcases mentions_float (id.child name) shape first with rfl | ⟨node, inside, mentioned⟩
        · exact .inl ⟨name, List.mem_cons_self⟩
        · exact .inr ⟨node, List.mem_append_left _ inside, mentioned⟩
      · rcases mentions_float_fields id rest later with ⟨other, member⟩ | ⟨node, inside, mentioned⟩
        · exact .inl ⟨other, List.mem_cons_of_mem _ member⟩
        · exact .inr ⟨node, List.mem_append_right _ inside, mentioned⟩
termination_by structural fields

end

namespace Compiled

variable {functions : List FunctionSpec} {grammar : Grammar} {rule other : Rule}

theorem text_not_mem_primitiveTokens (compiled : Compiled functions grammar)
    (member : rule ∈ grammar.rules) : rule.id.text ∉ primitiveTokens := by
  have defined : primitiveTokens ⊆ fragment.map (·.name) := by decide
  exact fun token => compiled.name_not_mem_fragment member (defined token)

theorem refers_of_mention (compiled : Compiled functions grammar) (member : rule ∈ grammar.rules)
    (otherMember : other ∈ grammar.rules) {mention : Reference}
    (mentioned : mention ∈ rule.body.mentions) (named : other.id.text = mention.text) :
    Refers grammar rule other := by
  have visible : other.id.text ≠ space := by
    intro blank
    refine compiled.text_not_mem_primitiveTokens otherMember ?_
    rw [blank]
    decide
  exact ⟨member, otherMember,
    (Rule.mem_references_iff visible).mpr ⟨mention, mentioned, named.symm⟩⟩

section

variable (compiled : Compiled functions grammar) (valid : ∀ function ∈ functions, function.Valid)

include compiled valid

theorem closed (member : rule ∈ grammar.rules) {name : String}
    (referred : name ∈ rule.production.references) :
    name ∈ primitiveTokens ∨ ∃ other ∈ grammar.rules, other.id.text = name := by
  by_cases blank : name = space
  · rw [blank]
    exact .inl (by decide)
  obtain ⟨mention, mentioned, rfl⟩ := (Rule.mem_references_iff blank).mp referred
  have resolves := resolves_mention ((compiled.mem_rules_iff valid).mp member) mention mentioned
  rcases resolves with token | ⟨target, emitted, named, _⟩
  · exact .inl token
  · exact .inr ⟨target, compiled.mem_of_emitted valid emitted, named⟩

theorem rank_lt_of_refers (refers : Refers grammar rule other) : rule.rank < other.rank := by
  obtain ⟨member, otherMember, referred⟩ := refers
  have unreserved := compiled.text_not_mem_primitiveTokens otherMember
  have visible : other.id.text ≠ space := by
    intro blank
    rw [blank] at unreserved
    exact unreserved (by decide)
  obtain ⟨mention, mentioned, text⟩ := (Rule.mem_references_iff visible).mp referred
  have resolves := resolves_mention ((compiled.mem_rules_iff valid).mp member) mention mentioned
  rcases resolves with token | ⟨target, emitted, named, below⟩
  · exact absurd (text ▸ token) unreserved
  · have same : target = other := List.inj_on_of_nodup_map compiled.nodup_ids
      (compiled.mem_of_emitted valid emitted) otherMember (RuleId.text_inj.mp (named.trans text))
    exact same ▸ below

theorem rank_lt_of_transGen (path : Relation.TransGen (Refers grammar) rule other) :
    rule.rank < other.rank := by
  induction path with
  | single refers => exact compiled.rank_lt_of_refers valid refers
  | tail _ refers ih => exact ih.trans (compiled.rank_lt_of_refers valid refers)

theorem acyclic (rule : Rule) : ¬ Relation.TransGen (Refers grammar) rule rule :=
  fun cycle => lt_irrefl _ (compiled.rank_lt_of_transGen valid cycle)

theorem root_mem : rootRule functions ∈ grammar.rules :=
  (compiled.mem_rules_iff valid).mpr (.inl rfl)

theorem reachable_call {function : FunctionSpec} (found : function ∈ functions) :
    Relation.ReflTransGen (Refers grammar) (rootRule functions) (callRule function) := by
  have call := compiled.mem_of_emitted valid (call_emitted found)
  have listed : .rule (callRule function).id ∈ (rootRule functions).body.mentions :=
    List.mem_map_of_mem (List.mem_map.mpr ⟨function, found, rfl⟩)
  exact .single (compiled.refers_of_mention (compiled.root_mem valid) call listed rfl)

theorem reachable_node {node : Node} (known : node ∈ functions.flatMap functionNodes) :
    Relation.ReflTransGen (Refers grammar) (rootRule functions) node.rule := by
  have kept {node : Node} (known : node ∈ functions.flatMap functionNodes) :
      node.rule ∈ grammar.rules :=
    compiled.mem_of_emitted valid (node_emitted known)
  obtain ⟨function, found, inside⟩ := List.mem_flatMap.mp known
  -- That the nodes are known is carried along, since only rules of the grammar refer to others.
  suffices ∀ node ∈ functionNodes function, node ∈ functions.flatMap functionNodes ∧
      Relation.ReflTransGen (Refers grammar) (rootRule functions) node.rule from
    (this node inside).2
  refine nodes_induction ?_ (paramsId function) (.object (fieldShapes function.parameters)) ?_
  · rintro parent id type ⟨parentKnown, reached⟩ child
    have childKnown : ⟨id, type⟩ ∈ functions.flatMap functionNodes :=
      functionNodes_closed functions parent parentKnown
        (child.nodes_subset (mem_nodes_self ⟨id, type⟩))
    have mentioned : .rule id ∈ parent.rule.body.mentions :=
      mem_mentions_node.mpr ⟨id, type.shape, child, (reference_composite id type).symm⟩
    exact ⟨childKnown, reached.tail
      (compiled.refers_of_mention (kept parentKnown) (kept childKnown) mentioned rfl)⟩
  · intro type same
    have own : ⟨paramsId function, type⟩ ∈ functions.flatMap functionNodes := by
      refine functionNodes_subset found ?_
      rw [functionNodes, same]
      exact mem_nodes_self ⟨paramsId function, type⟩
    have call := compiled.mem_of_emitted valid (call_emitted found)
    have mentioned : .rule (paramsId function) ∈ (callRule function).body.mentions :=
      List.mem_singleton_self _
    exact ⟨own, (compiled.reachable_call valid found).tail
      (compiled.refers_of_mention call (kept own) mentioned rfl)⟩

theorem reachable_float (float : rule ∈ (floatRegistry functions).rules) :
    Relation.ReflTransGen (Refers grammar) (rootRule functions) rule := by
  have kept {rule : Rule} (float : rule ∈ (floatRegistry functions).rules) :
      rule ∈ grammar.rules := compiled.mem_of_emitted valid (float_emitted float)
  have whole {precision : Precision} (used : precision ∈ (floatRegistry functions).precisions) :
      ⟨floatId precision, .fixedPoint precision⟩ ∈ (floatRegistry functions).rules :=
    Registry.mem_rules.mpr (.inl ⟨precision, used, .inl rfl⟩)
  have reached {precision : Precision} (used : precision ∈ (floatRegistry functions).precisions) :
      Relation.ReflTransGen (Refers grammar) (rootRule functions)
        ⟨floatId precision, .fixedPoint precision⟩ := by
    obtain ⟨function, found, member⟩ := mem_floatRegistry.mp used
    rw [← shapePrecisions_fieldShapes] at member
    obtain ⟨node, inside, mentioned⟩ := (mentions_float (paramsId function)
      (.object (fieldShapes function.parameters)) member).resolve_left (by simp)
    have known := functionNodes_subset found inside
    have own := compiled.mem_of_emitted valid (node_emitted known)
    exact (compiled.reachable_node valid known).tail
      (compiled.refers_of_mention own (kept (whole used)) mentioned rfl)
  rcases Registry.mem_rules.mp float with ⟨precision, used, rfl | rfl⟩ | ⟨some, rfl⟩
  · exact reached used
  · exact (reached used).tail (compiled.refers_of_mention (kept (whole used)) (kept float)
      (List.mem_cons_of_mem _ List.mem_cons_self) rfl)
  · obtain ⟨precision, used⟩ := List.exists_mem_of_ne_nil _ some
    exact (reached used).tail (compiled.refers_of_mention (kept (whole used)) (kept float)
      List.mem_cons_self rfl)

theorem reachable (member : rule ∈ grammar.rules) :
    Relation.ReflTransGen (Refers grammar) (rootRule functions) rule := by
  rcases (compiled.mem_rules_iff valid).mp member with rfl | emitted
  · exact .refl
  · rcases mem_emittedRules.mp emitted with ⟨function, found, rfl⟩ | ⟨node, known, rfl⟩ | float
    · exact compiled.reachable_call valid found
    · exact compiled.reachable_node valid known
    · exact compiled.reachable_float valid float

end

theorem fragment_references {production : Production} (member : production ∈ fragment) :
    production.references ⊆ primitiveTokens := by
  have each : ∀ production ∈ fragment, production.references ⊆ primitiveTokens := by decide
  exact each production member

/-- Every name that is used in the text of a grammar is defined there once. -/
theorem count_name (compiled : Compiled functions grammar)
    (valid : ∀ function ∈ functions, function.Valid) {production : Production}
    (member : production ∈ grammar.productions) {name : String}
    (referred : name ∈ production.references) :
    (grammar.productions.map (·.name)).count name = 1 := by
  have tokens : primitiveTokens ⊆ fragment.map (·.name) := by decide
  refine List.count_eq_one_of_mem compiled.nodup_names ?_
  rw [productions, List.map_append, List.mem_append]
  rcases List.mem_append.mp member with own | token
  · obtain ⟨rule, kept, rfl⟩ := List.mem_map.mp own
    rcases compiled.closed valid kept referred with token | ⟨other, otherKept, rfl⟩
    · exact .inr (tokens token)
    · exact .inl (List.mem_map.mpr ⟨other.production, List.mem_map_of_mem otherKept, rfl⟩)
  · exact .inr (tokens (fragment_references token referred))

end Compiled

theorem grammar_closed_and_acyclic {functions : List FunctionSpec} {grammar : Grammar}
    (valid : ∀ function ∈ functions, function.Valid) (success : compile functions = .ok grammar) :
    (grammar.rules.map (·.id)).Nodup ∧
    (∀ rule ∈ grammar.rules, rule.id.text ∉ primitiveTokens) ∧
    (∀ rule ∈ grammar.rules, ∀ name ∈ rule.production.references,
      name ∈ primitiveTokens ∨ ∃ other ∈ grammar.rules, other.id.text = name) ∧
    (∃ root ∈ grammar.rules, root.id = rootId ∧
      ∀ rule ∈ grammar.rules, Relation.ReflTransGen (Refers grammar) root rule) ∧
    (∀ rule, ¬ Relation.TransGen (Refers grammar) rule rule) ∧
    read? (grammar.renderWith primitiveGrammar).toList = some grammar.productions ∧
    ∀ production ∈ grammar.productions, ∀ name ∈ production.references,
      (grammar.productions.map (·.name)).count name = 1 := by
  have compiled := compiled_of_compile success
  refine ⟨compiled.nodup_ids, fun rule => compiled.text_not_mem_primitiveTokens,
    fun rule member name => compiled.closed valid member,
    ⟨rootRule functions, compiled.root_mem valid, rfl, fun rule => compiled.reachable valid⟩,
    compiled.acyclic valid, compiled.read?_renderWith valid,
    fun production member name => compiled.count_name valid member⟩

/-- Arrays on two paths share a rule, which refers to that of a float. -/
def sampling : FunctionSpec where
  name := "sample"
  description := ""
  parameters := [
    ("a", .object .plain [("b_c", .array .plain (.float .plain (some ⟨4, by decide, by decide⟩)))]),
    ("a_b", .object .plain [("c", .array .plain (.float .plain (some ⟨4, by decide, by decide⟩)))])]

theorem grammar_closed_and_acyclic_sampling :
    ∃ grammar, compile [sampling] = .ok grammar ∧
      (∃ root ∈ grammar.rules, root.id = rootId ∧
        ∀ rule ∈ grammar.rules, Relation.ReflTransGen (Refers grammar) root rule) ∧
      ∀ rule, ¬ Relation.TransGen (Refers grammar) rule rule := by
  have valid : ∀ function ∈ [sampling], function.Valid := by decide
  obtain ⟨grammar, success⟩ : ∃ grammar, compile [sampling] = .ok grammar := ⟨_, by cbv⟩
  obtain ⟨_, _, _, reachable, acyclic, _⟩ := grammar_closed_and_acyclic valid success
  exact ⟨grammar, success, reachable, acyclic⟩

end ToolGrammar.Grammar
