import ToolGrammar.Proofs.Grammar.Signatures
import ToolGrammar.Proofs.Schema.Construction

namespace ToolGrammar.Schema

theorem Parameter.Within.trans {node middle parameter : Parameter} (inner : node.Within middle)
    (outer : middle.Within parameter) : node.Within parameter := by
  induction inner with
  | self => exact outer
  | field _ member ih => exact .field (ih outer) member
  | element _ ih => exact .element (ih outer)

theorem mem_fieldPrecisions {fields : Fields} {precision : Precision} :
    precision ∈ fieldPrecisions fields ↔ ∃ field ∈ fields, precision ∈ field.2.precisions := by
  induction fields with
  | nil => simp [fieldPrecisions]
  | cons field rest ih => simp [fieldPrecisions, ih]

theorem Parameter.Within.precisions_subset {node parameter : Parameter}
    (within : node.Within parameter) : node.precisions ⊆ parameter.precisions := by
  induction within with
  | self => exact List.Subset.refl _
  | field _ member ih =>
      intro precision own
      exact ih (mem_fieldPrecisions.mpr ⟨_, member, own⟩)
  | element _ ih => exact ih

mutual

theorem Parameter.exists_float_within (parameter : Parameter) {precision : Precision}
    (used : precision ∈ parameter.precisions) :
    ∃ note, (Parameter.float note (some precision)).Within parameter := by
  cases parameter with
  | string | boolean | integer | enum => cases used
  | float note places =>
      cases places with
      | none => cases used
      | some places =>
          obtain rfl := List.mem_singleton.mp used
          exact ⟨note, .self _⟩
  | array note element =>
      obtain ⟨own, inside⟩ := element.exists_float_within used
      exact ⟨own, inside.trans (.element (.self (.array note element)))⟩
  | object note fields =>
      obtain ⟨field, member, own, inside⟩ := exists_float_within_field fields used
      exact ⟨own, inside.trans (.field (.self (.object note fields)) member)⟩
termination_by structural parameter

theorem exists_float_within_field (fields : Fields) {precision : Precision}
    (used : precision ∈ fieldPrecisions fields) :
    ∃ field ∈ fields, ∃ note, (Parameter.float note (some precision)).Within field.2 := by
  match fields with
  | [] => cases used
  | (name, parameter) :: rest =>
      rw [fieldPrecisions, List.mem_append] at used
      rcases used with first | later
      · obtain ⟨note, inside⟩ := parameter.exists_float_within first
        exact ⟨_, List.mem_cons_self, note, inside⟩
      · obtain ⟨field, member, note, inside⟩ := exists_float_within_field rest later
        exact ⟨field, List.mem_cons_of_mem _ member, note, inside⟩
termination_by structural fields

end

/-- The function has a float of the precision, at some depth of some parameter. -/
def FunctionSpec.HasFloat (function : FunctionSpec) (precision : Precision) : Prop :=
  ∃ field ∈ function.parameters,
    ∃ note, (Parameter.float note (some precision)).Within field.2

theorem FunctionSpec.hasFloat_iff {function : FunctionSpec} {precision : Precision} :
    function.HasFloat precision ↔ precision ∈ fieldPrecisions function.parameters := by
  constructor
  · intro float
    obtain ⟨field, member, note, inside⟩ := float
    have own : precision ∈ (Parameter.float note (some precision)).precisions :=
      List.mem_singleton_self precision
    exact mem_fieldPrecisions.mpr ⟨field, member, inside.precisions_subset own⟩
  · exact exists_float_within_field function.parameters

end ToolGrammar.Schema

namespace ToolGrammar.Grammar

open Schema

variable {functions : List FunctionSpec}

theorem mem_collect_iff_hasFloat {precision : Precision} :
    precision ∈ (Registry.collect functions).precisions ↔
      ∃ function ∈ functions, function.HasFloat precision := by
  simp only [mem_collect, FunctionSpec.hasFloat_iff]

/-- Emission from nothing notes what the pass before it collects. -/
theorem emitFunctions_empty (functions : List FunctionSpec) :
    (emitFunctions Registry.empty functions).2 = Registry.collect functions := by
  refine Registry.eq_of_mem_iff fun precision => ?_
  have none : precision ∉ Registry.empty.precisions := List.not_mem_nil
  rw [mem_emitFunctions_registry, mem_collect, or_iff_right none]

theorem emitFunction_collect {function : FunctionSpec} (member : function ∈ functions) :
    (emitFunction (Registry.collect functions) function).2 = Registry.collect functions := by
  refine Registry.eq_of_mem_iff fun precision => ?_
  have emitted := mem_emitFields_registry (paramsId function) (Registry.collect functions)
    function.parameters precision
  refine emitted.trans (or_iff_left_of_imp fun own => ?_)
  exact mem_collect.mpr ⟨function, member, own⟩

theorem floatRegistry_eq_collect (functions : List FunctionSpec) :
    floatRegistry functions = Registry.collect functions := by
  refine Registry.eq_of_mem_iff fun precision => ?_
  rw [mem_floatRegistry, mem_collect]

/-- Whether the body describes a float of fixed precision or a part of one. -/
def Body.isFloat : Body → Bool
  | .fixedPoint _ | .fraction _ | .integerPart => true
  | .choice _ | .call .. | .object _ | .array _ | .enum _ => false

/-- The lines for floats with these numbers of decimal places. -/
def floatLines (places : List Nat) : List String :=
  if places.isEmpty then []
  else
    places.flatMap (fun n => [
      "float-" ++ toString n ++ " ::= integer-part \".\" fractional-part-" ++ toString n,
      "fractional-part-" ++ toString n ++ " ::= " ++
        " ".intercalate (List.replicate n "[0-9]")]) ++
      ["integer-part ::= [0-9]+"]

theorem map_render_precisionRules (precision : Precision) :
    (Registry.precisionRules precision).map Rule.render = [
      "float-" ++ toString precision.digits ++ " ::= integer-part \".\" fractional-part-" ++
        toString precision.digits,
      "fractional-part-" ++ toString precision.digits ++ " ::= " ++
        " ".intercalate (List.replicate precision.digits "[0-9]")] := by
  have point : Literal.ofText "." = "\".\"" := by decide
  have whole : Rule.render ⟨floatId precision, .fixedPoint precision⟩ =
      "float-" ++ toString precision.digits ++ " ::= integer-part \".\" fractional-part-" ++
        toString precision.digits := by
    simp [← String.toList_inj, Rule.render, Body.render, Body.words, floatId, fractionId,
      integerPartId, point]
  rw [Registry.precisionRules, List.map_cons, whole]
  rfl

theorem Registry.map_render_rules (registry : Registry) :
    registry.rules.map Rule.render = floatLines (registry.precisions.map (·.digits)) := by
  by_cases empty : registry.precisions = []
  · simp [rules, isEmpty, floatLines, empty]
  · have some : registry.precisions.isEmpty = false := by simpa using empty
    simp only [rules, isEmpty, floatLines, List.isEmpty_map, some, Bool.false_eq_true, if_false]
    rw [List.map_append, List.map_flatMap, List.flatMap_map]
    simp only [map_render_precisionRules]
    rfl

theorem Registry.isFloat_of_mem {registry : Registry} {rule : Rule}
    (float : rule ∈ registry.rules) : rule.body.isFloat = true := by
  rcases Registry.mem_rules.mp float with ⟨precision, _, rfl | rfl⟩ | ⟨_, rfl⟩
  · rfl
  · rfl
  · rfl

theorem Node.isFloat_rule (node : Node) : node.rule.body.isFloat = false := by
  obtain ⟨id, type⟩ := node
  cases type <;> rfl

/-- The rules of floats stand at the end of a compiled grammar, after all others. -/
theorem Compiled.exists_front {grammar : Grammar} (compiled : Compiled functions grammar)
    (valid : ∀ function ∈ functions, function.Valid) :
    ∃ front, grammar.rules = front ++ (Registry.collect functions).rules ∧
      ∀ rule ∈ front, rule.body.isFloat = false := by
  have kept := (compiled.firsts_emittedRules valid).1
  rw [floatRegistry_eq_collect] at kept
  refine ⟨rootRule functions :: (functions.map callRule ++
    (firsts Node.id [] (functions.flatMap functionNodes)).map Node.rule), ?_, ?_⟩
  · rw [compiled.rules, kept, List.cons_append]
  · intro rule member
    rcases List.mem_cons.mp member with rfl | member
    · rfl
    · rcases List.mem_append.mp member with call | own
      · obtain ⟨function, _, rfl⟩ := List.mem_map.mp call
        rfl
      · obtain ⟨node, _, rfl⟩ := List.mem_map.mp own
        exact node.isFloat_rule

/-- The pass before emission collects the precisions of all float nodes and no others, emission
notes the same ones, and they are what the rules at the end of a grammar are made for. -/
theorem precision_passes_agree (functions : List FunctionSpec) :
    (∀ precision, precision ∈ (Registry.collect functions).precisions ↔
      ∃ function ∈ functions, function.HasFloat precision) ∧
    (emitFunctions Registry.empty functions).2 = Registry.collect functions ∧
    (∀ function ∈ functions,
      (emitFunction (Registry.collect functions) function).2 = Registry.collect functions) ∧
    (emitFunctions (Registry.collect functions) functions).2 = Registry.collect functions ∧
    ((Registry.collect functions).precisions.map (·.digits)).Pairwise (· < ·) ∧
    ∀ grammar, (∀ function ∈ functions, function.Valid) → compile functions = .ok grammar →
      ∃ floats, floats <:+ grammar.rules ∧
        (grammar.rules.filter fun rule => rule.body.isFloat) = floats ∧
        floats.map Rule.render =
          floatLines ((Registry.collect functions).precisions.map (·.digits)) := by
  refine ⟨fun precision => mem_collect_iff_hasFloat, emitFunctions_empty functions,
    fun function => emitFunction_collect, floatRegistry_eq_collect functions,
    List.pairwise_map.mpr (Registry.collect functions).ascending, ?_⟩
  intro grammar valid success
  obtain ⟨front, rules, others⟩ := (compiled_of_compile success).exists_front valid
  refine ⟨(Registry.collect functions).rules, ⟨front, rules.symm⟩, ?_, Registry.map_render_rules _⟩
  have none : (front.filter fun rule => rule.body.isFloat) = [] :=
    List.filter_eq_nil_iff.mpr fun rule member => by simp [others rule member]
  have all : ((Registry.collect functions).rules.filter fun rule => rule.body.isFloat) =
      (Registry.collect functions).rules :=
    List.filter_eq_self.mpr fun rule => Registry.isFloat_of_mem
  rw [rules, List.filter_append, none, all, List.nil_append]

/-- A float below an array and an object, another one of its precision elsewhere, and one of a
smaller precision after it. -/
def weighing : List FunctionSpec := [
  ⟨"weigh", "", [("loads", .array .plain (.object .plain [
    ("label", .string .plain), ("mass", .float .plain (some ⟨11, by decide, by decide⟩))]))]⟩,
  ⟨"rate", "", [("mass", .float .plain (some ⟨11, by decide, by decide⟩)),
    ("share", .float .plain (some ⟨8, by decide, by decide⟩))]⟩]

theorem precision_passes_agree_weighing :
    ∃ grammar, compile weighing = .ok grammar ∧
      (grammar.rules.filter fun rule => rule.body.isFloat).map Rule.render =
        floatLines [8, 11] := by
  have valid : ∀ function ∈ weighing, function.Valid := by decide
  have collected : (Registry.collect weighing).precisions.map (·.digits) = [8, 11] := by decide
  obtain ⟨grammar, success⟩ : ∃ grammar, compile weighing = .ok grammar := ⟨_, by cbv⟩
  obtain ⟨_, _, _, _, _, floats⟩ := precision_passes_agree weighing
  obtain ⟨rules, _, only, lines⟩ := floats grammar valid success
  refine ⟨grammar, success, ?_⟩
  rw [only, lines, collected]

end ToolGrammar.Grammar
