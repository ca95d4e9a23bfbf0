import ToolGrammar.Proofs.Grammar.Agreement

namespace ToolGrammar.Grammar

open Schema

/-- Lists that are alike in one respect are alike in any other that depends on it. -/
theorem map_eq_of_map_eq {α β γ : Type} {key : α → β} {value : α → γ} {left right : List α}
    (keys : left.map key = right.map key)
    (depends : ∀ item ∈ left, ∀ other ∈ right, key item = key other → value item = value other) :
    left.map value = right.map value := by
  induction left generalizing right with
  | nil =>
      cases right with
      | nil => rfl
      | cons => cases keys
  | cons item left ih =>
      cases right with
      | nil => cases keys
      | cons other right =>
          obtain ⟨head, tail⟩ := List.cons.inj keys
          have first := depends item List.mem_cons_self other List.mem_cons_self head
          have others := ih tail fun item member other found =>
            depends item (List.mem_cons_of_mem _ member) other (List.mem_cons_of_mem _ found)
          rw [List.map_cons, List.map_cons, first, others]

theorem Registry.eq_of_mem_iff {left right : Registry}
    (same : ∀ precision, precision ∈ left.precisions ↔ precision ∈ right.precisions) :
    left = right := by
  have perm := (List.perm_ext_iff_of_nodup left.nodup_precisions right.nodup_precisions).mpr same
  have precisions : left.precisions = right.precisions :=
    perm.eq_of_pairwise (fun first second _ _ below above => absurd below (lt_asymm above))
      left.ascending right.ascending
  cases left
  cases right
  cases precisions
  rfl

section

variable {functions others : List FunctionSpec}

theorem map_eq_of_signatures {α : Type} (make : FunctionSpec → α) (ofSignature : Signature → α)
    (made : ∀ function, make function = ofSignature function.signature)
    (same : functions.map FunctionSpec.signature = others.map FunctionSpec.signature) :
    functions.map make = others.map make := by
  refine map_eq_of_map_eq same fun function _ other _ signatures => ?_
  rw [made, made, signatures]

theorem floatRegistry_eq_of_signatures
    (same : functions.map FunctionSpec.signature = others.map FunctionSpec.signature) :
    floatRegistry functions = floatRegistry others := by
  have precisions := map_eq_of_signatures
    (fun function => fieldPrecisions function.parameters)
    (fun signature => shapePrecisions signature.parameters)
    (fun function => (shapePrecisions_fieldShapes function.parameters).symm) same
  refine Registry.eq_of_mem_iff fun precision => ?_
  rw [mem_floatRegistry, mem_floatRegistry, ← List.mem_flatMap, ← List.mem_flatMap,
    List.flatMap_def, List.flatMap_def, precisions]

theorem emittedRules_eq_of_signatures
    (same : functions.map FunctionSpec.signature = others.map FunctionSpec.signature) :
    emittedRules functions = emittedRules others := by
  have calls : functions.map callRule = others.map callRule :=
    map_eq_of_signatures callRule
      (fun signature => ⟨RuleId.function signature.name,
        .call signature.name (RuleId.function signature.name).params⟩) (fun _ => rfl) same
  have listed : functions.map functionNodes = others.map functionNodes :=
    map_eq_of_signatures functionNodes
      (fun signature => nodes (RuleId.function signature.name).params
        (.object signature.parameters)) (fun _ => rfl) same
  rw [emittedRules_eq, emittedRules_eq, calls, List.flatMap_def, List.flatMap_def, listed,
    floatRegistry_eq_of_signatures same]

/-- Functions of the same signatures are assembled alike, also where that fails. -/
theorem assemble_eq_of_signatures
    (same : functions.map FunctionSpec.signature = others.map FunctionSpec.signature) :
    assemble functions = assemble others := by
  have names : functions.map (·.name) = others.map (·.name) :=
    map_eq_of_signatures (·.name) (·.name) (fun _ => rfl) same
  have root : rootRule functions = rootRule others := by
    have ids := map_eq_of_signatures (fun function => RuleId.function function.name)
      (fun signature => RuleId.function signature.name) (fun _ => rfl) same
    rw [rootRule, rootRule, ids]
  have empty : functions.isEmpty = others.isEmpty := by
    simpa using congrArg List.isEmpty same
  rw [assemble, assemble, empty, names, root, emittedRules_eq_of_signatures same]

end

theorem Rule.production_inj {left right : Rule} (leftProper : left.Proper)
    (rightProper : right.Proper) (same : left.production = right.production) : left = right := by
  simp only [Rule.production, Gbnf.Production.mk.injEq] at same
  obtain ⟨ids, alternatives⟩ := same
  have bodies := Body.alternatives_inj leftProper.body rightProper.body alternatives
  cases left
  cases right
  cases bodies
  cases RuleId.text_inj.mp ids
  rfl

namespace Compiled

variable {functions others : List FunctionSpec} {grammar other : Grammar}

theorem eq_of_render_eq (compiled : Compiled functions grammar)
    (otherCompiled : Compiled others other) (valid : ∀ function ∈ functions, function.Valid)
    (otherValid : ∀ function ∈ others, function.Valid) (same : grammar.render = other.render) :
    grammar = other := by
  have texts : grammar.renderWith primitiveGrammar = other.renderWith primitiveGrammar := by
    rw [renderWith, renderWith, same]
  have read := compiled.read?_renderWith valid
  rw [texts, otherCompiled.read?_renderWith otherValid] at read
  have productions : grammar.rules.map Rule.production = other.rules.map Rule.production :=
    List.append_cancel_right (Option.some.inj read).symm
  have rules : grammar.rules.map id = other.rules.map id :=
    map_eq_of_map_eq productions fun left leftMember right rightMember =>
      Rule.production_inj (compiled.proper valid left leftMember)
        (otherCompiled.proper otherValid right rightMember)
  cases grammar
  cases other
  simpa using rules

variable (compiled : Compiled functions grammar) (otherCompiled : Compiled others grammar)
  (valid : ∀ function ∈ functions, function.Valid)
  (otherValid : ∀ function ∈ others, function.Valid)

include compiled otherCompiled valid otherValid

theorem consistent_append :
    Consistent (functions.flatMap functionNodes ++ others.flatMap functionNodes) := by
  have kept : ∀ node ∈ functions.flatMap functionNodes ++ others.flatMap functionNodes,
      node.rule ∈ grammar.rules := by
    intro node member
    rcases List.mem_append.mp member with own | own
    · exact compiled.mem_of_emitted valid (node_emitted own)
    · exact otherCompiled.mem_of_emitted otherValid (node_emitted own)
  intro left leftMember right rightMember same
  exact List.inj_on_of_nodup_map compiled.nodup_ids (kept left leftMember)
    (kept right rightMember) same

theorem signature_eq {function twin : FunctionSpec} (member : function ∈ functions)
    (found : twin ∈ others)
    (same : RuleId.function function.name = RuleId.function twin.name) :
    function.signature = twin.signature := by
  have call := compiled.mem_of_emitted valid (call_emitted member)
  have twinCall := otherCompiled.mem_of_emitted otherValid (call_emitted found)
  have calls := List.inj_on_of_nodup_map compiled.nodup_ids call twinCall same
  have names : function.name = twin.name := (Body.call.inj (congrArg Rule.body calls)).1
  have known : functionNodes function ⊆
      functions.flatMap functionNodes ++ others.flatMap functionNodes :=
    List.subset_append_of_subset_left _ (functionNodes_subset member)
  have twinKnown : functionNodes twin ⊆
      functions.flatMap functionNodes ++ others.flatMap functionNodes :=
    List.subset_append_of_subset_right _ (functionNodes_subset found)
  have params : paramsId function = paramsId twin := by
    rw [paramsId, paramsId, names]
  rw [functionNodes, params] at known
  have shapes := (compiled.consistent_append otherCompiled valid otherValid).shape_eq
    (paramsId twin) _ _ known twinKnown rfl
  rw [FunctionSpec.signature, FunctionSpec.signature, names, Shape.object.inj shapes]

theorem signatures_eq :
    functions.map FunctionSpec.signature = others.map FunctionSpec.signature := by
  have roots : rootRule functions = rootRule others := by
    have rules := compiled.rules
    rw [otherCompiled.rules] at rules
    exact (List.cons.inj rules).1.symm
  have ids := Body.choice.inj (congrArg Rule.body roots)
  exact map_eq_of_map_eq ids fun function member twin found same =>
    compiled.signature_eq otherCompiled valid otherValid member found same

end Compiled

/-- A grammar carries the signatures of its functions and nothing else. -/
theorem grammar_carries_signatures {functions others : List FunctionSpec}
    (valid : ∀ function ∈ functions, function.Valid)
    (otherValid : ∀ function ∈ others, function.Valid) :
    (functions.map FunctionSpec.signature = others.map FunctionSpec.signature →
      assemble functions = assemble others) ∧
    ∀ grammar other, compile functions = .ok grammar → compile others = .ok other →
      grammar.render = other.render →
        functions.map FunctionSpec.signature = others.map FunctionSpec.signature := by
  refine ⟨assemble_eq_of_signatures, fun grammar other success otherSuccess same => ?_⟩
  have compiled := compiled_of_compile success
  have otherCompiled := compiled_of_compile otherSuccess
  obtain rfl := compiled.eq_of_render_eq otherCompiled valid otherValid same
  exact compiled.signatures_eq otherCompiled valid otherValid

def scaling : FunctionSpec where
  name := "scale"
  description := ""
  parameters := [("factor", .float .plain none),
    ("modes", .array .plain (.enum .plain ⟨["fit", "fill"], by decide, by decide⟩))]

/-- The same but for what is said about the parameters and the name of a number's type. -/
def annotatedScaling : FunctionSpec where
  name := "scale"
  description := "Scales a picture."
  parameters := [("factor", .integer ⟨true, some "percent"⟩ .number),
    ("modes", .array ⟨false, none⟩
      (.enum ⟨true, some ""⟩ ⟨["fit", "fill"], by decide, by decide⟩))]

theorem grammar_carries_signatures_scaling :
    ∃ grammar, compile [scaling] = .ok grammar ∧ compile [annotatedScaling] = .ok grammar ∧
      scaling.signature = annotatedScaling.signature := by
  have valid : ∀ function ∈ [scaling], function.Valid := by decide
  have otherValid : ∀ function ∈ [annotatedScaling], function.Valid := by decide
  obtain ⟨forward, backward⟩ := grammar_carries_signatures valid otherValid
  obtain ⟨grammar, success⟩ : ∃ grammar, compile [scaling] = .ok grammar := ⟨_, by cbv⟩
  have otherSuccess : compile [annotatedScaling] = .ok grammar := by
    rw [compile, ← forward rfl]
    exact success
  have same := backward grammar grammar success otherSuccess rfl
  exact ⟨grammar, success, otherSuccess, by simpa using same⟩

end ToolGrammar.Grammar
