import ToolGrammar.Proofs.Grammar.Tokens

/-!
Adequacy of compiled grammars: what they derive is what the schemas of the functions say. Each
reference stands for the texts of the parameter that it was made for, by induction on the parameter,
and the root stands for the calls of all functions.
-/
namespace ToolGrammar.Grammar

open Computability Schema Gbnf Text

namespace Compiled

variable {functions : List FunctionSpec} {grammar : Grammar}

theorem language_node (compiled : Compiled functions grammar)
    (valid : ∀ function ∈ functions, function.Valid) {node : Node}
    (known : node ∈ functions.flatMap functionNodes) :
    language grammar.productions (Reference.rule node.id).item =
      language grammar.productions (.group node.rule.body.alternatives) :=
  compiled.language_rule valid (.inr (node_emitted known))

theorem language_itemsItem (compiled : Compiled functions grammar) (item : Item) :
    language grammar.productions (itemsItem item) =
      ⨆ n, joined commaTexts (List.replicate n (language grammar.productions item)) := by
  rw [iSup_joined_replicate, itemsItem]
  simp only [language_optional, language_group_singleton, sequenceLanguage_cons,
    sequenceLanguage_nil, language_star, language_literal, compiled.language_space, mul_one,
    commaTexts, mul_assoc]

theorem language_enum (values : List String) :
    language grammar.productions (.group (Body.enum values).alternatives) = enumTexts values := by
  induction values with
  | nil =>
      rw [Body.alternatives, List.map_nil, language_group_nil]
      ext text
      simp [mem_enumTexts, Language.notMem_zero]
  | cons value rest ih =>
      rw [Body.alternatives] at ih ⊢
      rw [List.map_cons, language_group_cons, ih, sequenceLanguage_cons, sequenceLanguage_nil,
        language_literal, mul_one]
      ext text
      rw [Language.mem_add, mem_enumTexts, mem_enumTexts, List.exists_mem_cons_iff]
      exact or_congr_left Set.mem_singleton_iff

theorem language_array (compiled : Compiled functions grammar) (item : Reference) :
    language grammar.productions (.group (Body.array item).alternatives) =
      arrayTexts (language grammar.productions item.item) := by
  simp only [Body.alternatives, language_group_singleton, sequenceLanguage_cons,
    sequenceLanguage_nil, language_literal, compiled.language_space, compiled.language_itemsItem,
    mul_one, arrayTexts, mul_assoc]

def referenceTexts (grammar : Grammar) (fields : List (String × Reference)) :
    List (Language Char) :=
  fields.map fun field => memberTexts field.1 (language grammar.productions field.2.item)

theorem language_fieldsItems (compiled : Compiled functions grammar)
    (fields : List (String × Reference)) :
    sequenceLanguage grammar.productions (fieldsItems fields) =
      joined commaTexts (referenceTexts grammar fields) := by
  have one (field : String × Reference) : sequenceLanguage grammar.productions (fieldItems field) =
      memberTexts field.1 (language grammar.productions field.2.item) := by
    simp only [fieldItems, sequenceLanguage_cons, sequenceLanguage_nil, language_literal,
      compiled.language_space, mul_one, memberTexts, mul_assoc]
  have comma : sequenceLanguage grammar.productions [.literal [','], spaceItem] = commaTexts := by
    simp only [sequenceLanguage_cons, sequenceLanguage_nil, language_literal,
      compiled.language_space, mul_one, commaTexts]
  induction fields with
  | nil => rfl
  | cons field rest ih =>
      cases rest with
      | nil => exact one field
      | cons next later =>
          rw [fieldsItems, sequenceLanguage_append, sequenceLanguage_append, one, comma, ih]
          · rfl
          · simp

theorem language_object (compiled : Compiled functions grammar)
    (fields : List (String × Reference)) :
    language grammar.productions (.group (Body.object fields).alternatives) =
      objectTexts (referenceTexts grammar fields) := by
  have empty : (referenceTexts grammar fields).isEmpty = fields.isEmpty := by
    simp [referenceTexts]
  rw [Body.alternatives, language_group_singleton, objectTexts, empty]
  simp only [sequenceLanguage_append, sequenceLanguage_cons, sequenceLanguage_nil, language_literal,
    compiled.language_space, compiled.language_fieldsItems, mul_one]
  cases fields.isEmpty with
  | true => rfl
  | false =>
      simp only [Bool.false_eq_true, if_false, sequenceLanguage_cons, sequenceLanguage_nil,
        compiled.language_space, mul_one]

mutual

/-- The reference to a parameter stands for its texts, where its nodes and precisions are known. -/
theorem language_parameter (compiled : Compiled functions grammar)
    (valid : ∀ function ∈ functions, function.Valid) (id : RuleId) (parameter : Parameter)
    (known : nodes id parameter.shape ⊆ functions.flatMap functionNodes)
    (used : parameter.precisions ⊆ (floatRegistry functions).precisions) :
    language grammar.productions (reference id parameter.shape).item =
      parameterTexts parameter := by
  cases parameter with
  | string note => exact compiled.language_string
  | boolean note => exact compiled.language_boolean
  | integer note name => exact compiled.language_number
  | float note places =>
      cases places with
      | none => exact compiled.language_number
      | some precision =>
          exact compiled.language_fixed valid (used (by simp [Parameter.precisions]))
  | enum note values =>
      have own := compiled.language_node valid (known (mem_nodes_self ⟨id, .enum values.values⟩))
      exact own.trans (language_enum values.values)
  | array note element =>
      have own := compiled.language_node valid (known (mem_nodes_self ⟨id, .array element.shape⟩))
      rw [Parameter.shape, nodes, List.cons_subset] at known
      have inner := language_parameter compiled valid id.element element known.2 used
      rw [parameterTexts, ← inner]
      exact own.trans (compiled.language_array _)
  | object note fields =>
      have own := compiled.language_node valid
        (known (mem_nodes_self ⟨id, .object (fieldShapes fields)⟩))
      rw [Parameter.shape, nodes, List.cons_subset] at known
      have inner := language_fields compiled valid id fields known.2 used
      rw [parameterTexts, ← inner]
      exact own.trans (compiled.language_object _)
termination_by structural parameter

theorem language_fields (compiled : Compiled functions grammar)
    (valid : ∀ function ∈ functions, function.Valid) (id : RuleId) (fields : Fields)
    (known : fieldNodes id (fieldShapes fields) ⊆ functions.flatMap functionNodes)
    (used : fieldPrecisions fields ⊆ (floatRegistry functions).precisions) :
    referenceTexts grammar (fieldReferences id (fieldShapes fields)) = fieldTexts fields := by
  match fields with
  | [] => rfl
  | (name, parameter) :: rest =>
      simp only [fieldShapes, fieldNodes, fieldPrecisions, List.append_subset] at known used
      have first := language_parameter compiled valid (id.child name) parameter known.1 used.1
      have others := language_fields compiled valid id rest known.2 used.2
      rw [fieldTexts, ← first, ← others]
      rfl
termination_by structural fields

end

theorem language_call (compiled : Compiled functions grammar)
    (valid : ∀ function ∈ functions, function.Valid) {function : FunctionSpec}
    (member : function ∈ functions) :
    language grammar.productions (.reference (RuleId.function function.name).text) =
      callTexts function := by
  have call := compiled.language_rule valid (.inr (call_emitted member))
  have known := functionNodes_subset member
  have used : fieldPrecisions function.parameters ⊆ (floatRegistry functions).precisions :=
    fun precision inside => (mem_emitFunctions_registry _ functions precision).mpr
      (.inr ⟨function, member, inside⟩)
  have params := compiled.language_parameter valid (paramsId function)
    (.object .plain function.parameters) known used
  refine call.trans ?_
  change language grammar.productions (.reference (paramsId function).text) = _ at params
  simp only [callRule, Body.alternatives, language_group_singleton, sequenceLanguage_cons,
    sequenceLanguage_nil, language_literal, compiled.language_space, mul_one, params,
    parameterTexts, callTexts, memberTexts, mul_assoc]

theorem language_root (compiled : Compiled functions grammar)
    (valid : ∀ function ∈ functions, function.Valid) :
    language grammar.productions (.reference rootId.text) =
      (functions.map callTexts).sum := by
  have root := compiled.language_rule valid (.inl rfl)
  refine root.trans ?_
  rw [rootRule, Body.alternatives, language_group, List.map_map, List.map_map]
  refine congrArg List.sum (List.map_congr_left fun function member => ?_)
  rw [Function.comp_apply, Function.comp_apply, sequenceLanguage_cons, sequenceLanguage_nil,
    mul_one, compiled.language_call valid member]

theorem derives_root (compiled : Compiled functions grammar)
    (valid : ∀ function ∈ functions, function.Valid) {text : List Char} :
    Derives grammar.productions (.reference "root") text ↔
      ∃ function ∈ functions, text ∈ callTexts function := by
  have root := compiled.language_root valid
  rw [← mem_language, show "root" = rootId.text from rfl, root]
  simp only [mem_sum, List.mem_map, exists_exists_and_eq_and]

end Compiled

/-- Read as a grammar, the text of a compiled grammar derives the calls of the functions and nothing
else. -/
theorem derives_root_iff {functions : List FunctionSpec} {grammar : Grammar}
    (valid : ∀ function ∈ functions, function.Valid) (success : compile functions = .ok grammar) :
    ∃ productions, read? (grammar.renderWith primitiveGrammar).toList = some productions ∧
      ∀ text, Derives productions (.reference "root") text ↔
        ∃ function ∈ functions, text ∈ callTexts function := by
  have compiled := compiled_of_compile success
  exact ⟨grammar.productions, compiled.read?_renderWith valid,
    fun text => compiled.derives_root valid⟩

/-- A function with a parameter of each kind. -/
def measuring : FunctionSpec where
  name := "measure"
  description := ""
  parameters := [("unit", .enum .plain ⟨["m", "\"ft\""], by decide, by decide⟩),
    ("place", .object .plain [("name", .string .plain), ("indoor", .boolean .plain)]),
    ("samples", .array .plain (.float .plain (some ⟨2, by decide, by decide⟩))),
    ("count", .integer .plain .integer), ("scale", .float .plain none)]

theorem measuring_valid : ∀ function ∈ [measuring], function.Valid := by
  decide

theorem compile_measuring : ∃ grammar, compile [measuring] = .ok grammar :=
  ⟨_, by cbv⟩

theorem derives_root_iff_measuring :
    ∃ grammar, compile [measuring] = .ok grammar ∧
      ∃ productions, read? (grammar.renderWith primitiveGrammar).toList = some productions ∧
        ∀ text, Derives productions (.reference "root") text ↔ text ∈ callTexts measuring := by
  obtain ⟨grammar, success⟩ := compile_measuring
  obtain ⟨productions, read, derives⟩ := derives_root_iff measuring_valid success
  exact ⟨grammar, success, productions, read, by simpa using derives⟩

end ToolGrammar.Grammar
