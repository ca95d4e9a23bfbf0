import ToolGrammar.Proofs.Grammar.Outcome

namespace ToolGrammar.Grammar

open Schema (FunctionSpec)

/-- The rules apart from the root. -/
def definitions (grammar : Grammar) : Set Rule :=
  {rule | rule ∈ grammar.rules ∧ rule.id ≠ rootId}

/-- The rules that the floats of one precision need; the last one is shared by all precisions. -/
def rulesOfPrecision (precision : Schema.Precision) : List Rule :=
  Registry.precisionRules precision ++ [⟨integerPartId, .integerPart⟩]

theorem Registry.mem_rules_iff_exists {registry : Registry} {rule : Rule} :
    rule ∈ registry.rules ↔
      ∃ precision ∈ registry.precisions, rule ∈ rulesOfPrecision precision := by
  have some : registry.precisions ≠ [] ↔ ∃ precision, precision ∈ registry.precisions :=
    ⟨List.exists_mem_of_ne_nil _, fun ⟨_, member⟩ => List.ne_nil_of_mem member⟩
  rw [Registry.mem_rules, some]
  constructor
  · rintro (⟨precision, used, own⟩ | ⟨⟨precision, used⟩, rfl⟩)
    · exact ⟨precision, used, by
        simpa [rulesOfPrecision, precisionRules, ← or_assoc] using .inl own⟩
    · exact ⟨precision, used, by simp [rulesOfPrecision]⟩
  · rintro ⟨precision, used, member⟩
    simp only [rulesOfPrecision, precisionRules, List.mem_append, List.mem_cons, List.not_mem_nil,
      or_false] at member
    rcases member with own | rfl
    · exact .inl ⟨precision, used, own⟩
    · exact .inr ⟨⟨precision, used⟩, rfl⟩

theorem mem_emittedRules_iff_exists {functions : List FunctionSpec} {rule : Rule} :
    rule ∈ emittedRules functions ↔ ∃ function ∈ functions, rule ∈ emittedRules [function] := by
  simp only [mem_emittedRules, Registry.mem_rules_iff_exists, mem_floatRegistry, List.mem_flatMap,
    List.mem_singleton, exists_eq_left]
  constructor
  · rintro (⟨function, found, rfl⟩ | ⟨node, ⟨function, found, inside⟩, rfl⟩ |
      ⟨precision, ⟨function, found, used⟩, member⟩)
    · exact ⟨function, found, .inl rfl⟩
    · exact ⟨function, found, .inr (.inl ⟨node, inside, rfl⟩)⟩
    · exact ⟨function, found, .inr (.inr ⟨precision, used, member⟩)⟩
  · rintro ⟨function, found, rfl | ⟨node, inside, rfl⟩ | ⟨precision, used, member⟩⟩
    · exact .inl ⟨function, found, rfl⟩
    · exact .inr (.inl ⟨node, ⟨function, found, inside⟩, rfl⟩)
    · exact .inr (.inr ⟨precision, ⟨function, found, used⟩, member⟩)

theorem emittedRules_subset {functions others : List FunctionSpec} (within : others ⊆ functions) :
    emittedRules others ⊆ emittedRules functions := by
  intro rule emitted
  obtain ⟨function, found, own⟩ := mem_emittedRules_iff_exists.mp emitted
  exact mem_emittedRules_iff_exists.mpr ⟨function, within found, own⟩

namespace Compiled

variable {functions others : List FunctionSpec} {grammar : Grammar}

/-- Whatever is chosen among compiled functions compiles as well, if no name is chosen twice. -/
theorem compile_of_subset (compiled : Compiled functions grammar) (nonempty : others ≠ [])
    (names : (others.map (·.name)).Nodup) (within : others ⊆ functions) :
    ∃ part, compile others = .ok part := by
  have emitted := emittedRules_subset within
  have sound : Sound (emittedRules others) :=
    ⟨fun rule member => compiled.unreserved rule (emitted member), compiled.agree.mono emitted⟩
  have assembled := assembles_iff.mpr (.accepted nonempty names sound)
  exact ⟨_, by rw [compile, assembled]⟩

theorem mem_definitions_iff (compiled : Compiled functions grammar)
    (valid : ∀ function ∈ functions, function.Valid) {rule : Rule} :
    rule ∈ grammar.definitions ↔ rule ∈ emittedRules functions := by
  have unnamed : rule ∈ emittedRules functions → rule.id ≠ rootId := by
    intro emitted root
    have reserved : rule.id ∈ reservedIds := root ▸ List.mem_cons_self
    exact compiled.unreserved rule emitted reserved
  change rule ∈ grammar.rules ∧ rule.id ≠ rootId ↔ _
  rw [compiled.mem_rules_iff valid]
  constructor
  · rintro ⟨rfl | emitted, other⟩
    · exact absurd rfl other
    · exact emitted
  · exact fun emitted => ⟨.inr emitted, unnamed emitted⟩

theorem definitions_eq_of_perm {reordered : Grammar} (compiled : Compiled functions grammar)
    (valid : ∀ function ∈ functions, function.Valid) (perm : others.Perm functions)
    (otherCompiled : Compiled others reordered) : reordered.definitions = grammar.definitions := by
  have otherValid : ∀ function ∈ others, function.Valid :=
    fun function found => valid function (perm.subset found)
  ext rule
  rw [otherCompiled.mem_definitions_iff otherValid, compiled.mem_definitions_iff valid]
  exact ⟨fun member => emittedRules_subset perm.subset member,
    fun member => emittedRules_subset perm.symm.subset member⟩

end Compiled

/-- Functions do not interfere: each compiles alone, their grammar is put together from those of the
single functions, and neither their order nor the presence of others matters. -/
theorem functions_independent {functions : List FunctionSpec} {grammar : Grammar}
    (valid : ∀ function ∈ functions, function.Valid) (success : compile functions = .ok grammar) :
    (∃ alone : FunctionSpec → Grammar,
      (∀ function ∈ functions, compile [function] = .ok (alone function)) ∧
      grammar.definitions = ⋃ function ∈ functions, (alone function).definitions) ∧
    (∀ others, others.Perm functions → ∃ reordered, compile others = .ok reordered ∧
      reordered.definitions = grammar.definitions) ∧
    ∀ others, others ≠ [] → others.Sublist functions → ∃ part, compile others = .ok part := by
  have compiled := compiled_of_compile success
  have single (function : FunctionSpec) :
      ∃ part, function ∈ functions → compile [function] = .ok part := by
    by_cases found : function ∈ functions
    · obtain ⟨part, alone⟩ := compiled.compile_of_subset (List.cons_ne_nil function [])
        (List.nodup_singleton _) (by simpa using found)
      exact ⟨part, fun _ => alone⟩
    · exact ⟨grammar, fun member => absurd member found⟩
  choose alone compiles using single
  refine ⟨⟨alone, compiles, ?_⟩, fun others perm => ?_, fun others nonempty sublist => ?_⟩
  · ext rule
    have own (function : FunctionSpec) (found : function ∈ functions) :
        rule ∈ (alone function).definitions ↔ rule ∈ emittedRules [function] :=
      (compiled_of_compile (compiles function found)).mem_definitions_iff
        (by simpa using valid function found)
    rw [compiled.mem_definitions_iff valid, mem_emittedRules_iff_exists, Set.mem_iUnion₂]
    refine exists_congr fun function => ?_
    rw [exists_prop]
    exact and_congr_right fun found => (own function found).symm
  · have nonempty : others ≠ [] := by
      rintro rfl
      exact compiled.nonempty perm.nil_eq.symm
    have names : (others.map (·.name)).Nodup := (perm.map _).nodup_iff.mpr compiled.names
    obtain ⟨reordered, compiles⟩ := compiled.compile_of_subset nonempty names perm.subset
    exact ⟨reordered, compiles,
      compiled.definitions_eq_of_perm valid perm (compiled_of_compile compiles)⟩
  · exact compiled.compile_of_subset nonempty (compiled.names.sublist (sublist.map _))
      sublist.subset

/-- Two functions share the rules of a float, and one has another float of its own. -/
def surveying : List FunctionSpec :=
  [⟨"locate", "", [("height", .float .plain (some ⟨3, by decide, by decide⟩))]⟩,
    ⟨"travel", "", [
      ("legs", .array .plain (.float .plain (some ⟨3, by decide, by decide⟩))),
      ("fare", .float .plain (some ⟨5, by decide, by decide⟩))]⟩]

theorem functions_independent_surveying :
    ∃ grammar, compile surveying = .ok grammar ∧
      (∃ alone : FunctionSpec → Grammar,
        (∀ function ∈ surveying, compile [function] = .ok (alone function)) ∧
        grammar.definitions = ⋃ function ∈ surveying, (alone function).definitions) ∧
      ∃ reordered, compile surveying.reverse = .ok reordered ∧
        reordered.definitions = grammar.definitions := by
  have valid : ∀ function ∈ surveying, function.Valid := by decide
  obtain ⟨grammar, success⟩ : ∃ grammar, compile surveying = .ok grammar := ⟨_, by cbv⟩
  obtain ⟨alone, reorder, _⟩ := functions_independent valid success
  exact ⟨grammar, success, alone, reorder _ (List.reverse_perm surveying)⟩

end ToolGrammar.Grammar
