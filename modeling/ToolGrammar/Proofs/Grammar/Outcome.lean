import ToolGrammar.Proofs.Grammar.Agreement

namespace ToolGrammar.Grammar

open Schema (FunctionSpec)

/-- How the assembly of functions ends: the names it reports as dropped, and its result. -/
inductive Assembles (functions : List FunctionSpec) : Acceptance Grammar → Prop where
  | noFunctions (none : functions = []) : Assembles functions ⟨[], .error .noFunctions⟩
  | duplicateFunction {before after : List FunctionSpec} {function : FunctionSpec}
      (split : functions = before ++ function :: after)
      (distinct : (before.map (·.name)).Nodup)
      (repeated : function.name ∈ before.map (·.name)) :
      Assembles functions ⟨[], .error (.duplicateFunction function.name)⟩
  | refused {before after : List Rule} {rule : Rule} {failure : CompileError}
      (nonempty : functions ≠ []) (names : (functions.map (·.name)).Nodup)
      (emitted : emittedRules functions = before ++ rule :: after) (sound : Sound before)
      (refuses : Refuses before rule failure) :
      Assembles functions ⟨(repeats Rule.id [] before).map (·.id), .error failure⟩
  | accepted (nonempty : functions ≠ []) (names : (functions.map (·.name)).Nodup)
      (sound : Sound (emittedRules functions)) :
      Assembles functions ⟨(repeats Rule.id [] (emittedRules functions)).map (·.id),
        .ok ⟨rootRule functions :: firsts Rule.id [] (emittedRules functions)⟩⟩

section

variable {functions : List FunctionSpec}

theorem assemble_of_names (nonempty : functions ≠ []) (names : (functions.map (·.name)).Nodup) :
    assemble functions =
      ⟨(acceptRules [] (emittedRules functions)).dropped,
        (acceptRules [] (emittedRules functions)).outcome.map fun rules =>
          ⟨rootRule functions :: rules⟩⟩ := by
  have some : functions.isEmpty = false := by simpa using nonempty
  simp [assemble, some, Schema.firstRepeat?_of_nodup names]

theorem assemble_eq_of_assembles {acceptance : Acceptance Grammar}
    (assembles : Assembles functions acceptance) : assemble functions = acceptance := by
  cases assembles with
  | noFunctions none => simp [assemble, none]
  | @duplicateFunction before after function split distinct repeated =>
      have some : functions.isEmpty = false := by simp [split]
      have found : Schema.firstRepeat? [] (functions.map (·.name)) = .some function.name := by
        rw [split, List.map_append, List.map_cons]
        exact Schema.firstRepeat?_of_repeated _ distinct repeated
      simp [assemble, some, found]
  | refused nonempty names emitted sound refuses =>
      rw [assemble_of_names nonempty names, emitted, acceptRules_of_refuses _ sound refuses]
      rfl
  | accepted nonempty names sound =>
      rw [assemble_of_names nonempty names, acceptRules_of_sound sound]
      rfl

theorem exists_assembles (functions : List FunctionSpec) :
    ∃ acceptance, Assembles functions acceptance := by
  by_cases none : functions = []
  · exact ⟨_, .noFunctions none⟩
  rcases Schema.nodup_or_repeated (functions.map (·.name)) with names |
    ⟨before, name, after, split, distinct, repeated⟩
  · rcases sound_or_refused (emittedRules functions) with sound |
      ⟨before, rule, after, failure, emitted, sound, refuses⟩
    · exact ⟨_, .accepted none names sound⟩
    · exact ⟨_, .refused none names emitted sound refuses⟩
  · obtain ⟨front, back, rfl, rfl, others⟩ := List.map_eq_append_iff.mp split
    obtain ⟨function, back, rfl, rfl, rfl⟩ := List.map_eq_cons_iff.mp others
    exact ⟨_, .duplicateFunction rfl distinct repeated⟩

theorem assembles_iff {acceptance : Acceptance Grammar} :
    assemble functions = acceptance ↔ Assembles functions acceptance := by
  constructor
  · rintro rfl
    obtain ⟨acceptance, assembles⟩ := exists_assembles functions
    rwa [assemble_eq_of_assembles assembles]
  · exact assemble_eq_of_assembles

end

theorem NodeName.unreserved {id : RuleId} (named : NodeName id) : id ∉ reservedIds := by
  have letters : ∀ id ∈ reservedIds, 'p' ∉ id.text.toList := by decide
  exact fun reserved => letters id reserved named.letter

theorem Registry.unreserved {registry : Registry} {rule : Rule} (float : rule ∈ registry.rules) :
    rule.id ∉ reservedIds := by
  have initials : ∀ id ∈ reservedIds,
      id.text.toList.head? ≠ some 'f' ∧ id.text.toList.head? ≠ some 'i' := by decide
  intro reserved
  obtain ⟨notF, notI⟩ := initials rule.id reserved
  rcases Registry.mem_rules.mp float with ⟨precision, _, rfl | rfl⟩ | ⟨_, rfl⟩
  · exact notF (by simp [floatId])
  · exact notF (by simp [fractionId])
  · exact notI (by decide)

theorem callRule_of_reserved {functions : List FunctionSpec}
    (valid : ∀ function ∈ functions, function.Valid) {rule : Rule}
    (emitted : rule ∈ emittedRules functions) (reserved : rule.id ∈ reservedIds) :
    ∃ function ∈ functions, rule = callRule function := by
  rcases mem_emittedRules.mp emitted with call | ⟨node, member, rfl⟩ | float
  · exact call
  · obtain ⟨function, found, inside⟩ := List.mem_flatMap.mp member
    have named := (proper_of_mem_functionNodes (valid function found) node inside).named
    exact absurd reserved named.unreserved
  · exact absurd reserved (Registry.unreserved float)

theorem Compiled.callRule_not_mem_repeats {functions : List FunctionSpec} {grammar : Grammar}
    (compiled : Compiled functions grammar) (valid : ∀ function ∈ functions, function.Valid)
    (function : FunctionSpec) :
    callRule function ∉ repeats Rule.id [] (emittedRules functions) := by
  rw [(compiled.firsts_emittedRules valid).2]
  intro repeated
  obtain ⟨node, _, same⟩ := List.mem_map.mp repeated
  exact callRule_ne_node function node same.symm

theorem assembly_outcome {functions : List FunctionSpec}
    (valid : ∀ function ∈ functions, function.Valid) :
    (∀ acceptance, assemble functions = acceptance ↔ Assembles functions acceptance) ∧
    (∀ rule ∈ emittedRules functions, rule.id ∈ reservedIds →
      ∃ function ∈ functions, rule = callRule function) ∧
    ∀ grammar, compile functions = .ok grammar →
      (∀ function ∈ functions,
        callRule function ∉ repeats Rule.id [] (emittedRules functions)) ∧
      ((functions.map callRule).map Rule.id).Nodup ∧
      ∃ others, grammar.rules = ⟨rootId, .choice ((functions.map callRule).map Rule.id)⟩ ::
        (functions.map callRule ++ others) := by
  refine ⟨fun acceptance => assembles_iff, fun rule => callRule_of_reserved valid, ?_⟩
  intro grammar success
  have compiled := compiled_of_compile success
  refine ⟨fun function _ => compiled.callRule_not_mem_repeats valid function,
    compiled.nodup_calls valid, ?_⟩
  have root : rootRule functions = ⟨rootId, .choice ((functions.map callRule).map Rule.id)⟩ := by
    simp [rootRule, callRule, Function.comp_def]
  rw [compiled.rules, (compiled.firsts_emittedRules valid).1, List.append_assoc, root]
  exact ⟨_, rfl⟩

/-- The parameters of the first function have the name of the second. -/
def conflicting : List FunctionSpec :=
  [⟨"a", "", [("x", .string .plain)]⟩, ⟨"a_params", "", [("y", .boolean .plain)]⟩]

theorem conflicting_valid : ∀ function ∈ conflicting, function.Valid := by
  decide

def conflictingCalls : List Rule :=
  [⟨⟨"a"⟩, .call "a" ⟨"a-params"⟩⟩, ⟨⟨"a-params"⟩, .call "a_params" ⟨"a-params-params"⟩⟩]

theorem assembly_outcome_conflicting :
    assemble conflicting = ⟨[], .error (.ruleCollision ⟨"a-params"⟩
      (.call "a_params" ⟨"a-params-params"⟩) (.object [("x", .string)]))⟩ := by
  have emitted : emittedRules conflicting = conflictingCalls ++
      ⟨⟨"a-params"⟩, .object [("x", .string)]⟩ ::
        [⟨⟨"a-params-params"⟩, .object [("y", .boolean)]⟩] := by cbv
  have sound : Sound conflictingCalls := ⟨by decide, Agree.of_nodup (by decide)⟩
  have differs : (Body.call "a_params" ⟨"a-params-params"⟩).render ≠
      (Body.object [("x", .string)]).render := by decide +kernel
  have refuses : Refuses conflictingCalls ⟨⟨"a-params"⟩, .object [("x", .string)]⟩ _ :=
    .collision (by decide) rfl differs
  exact ((assembly_outcome conflicting_valid).1 _).mpr
    (.refused (by decide) (by decide) emitted sound refuses)

end ToolGrammar.Grammar
