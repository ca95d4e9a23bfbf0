import ToolGrammar.Proofs.Grammar.Acceptance
import ToolGrammar.Proofs.Grammar.Bodies

namespace ToolGrammar.Grammar

open Schema Gbnf

/-- The productions of the rules and of the bundled fragment. -/
def productions (grammar : Grammar) : List Production :=
  grammar.rules.map Rule.production ++ fragment

namespace Compiled

variable {functions : List FunctionSpec} {grammar : Grammar}

/-- Emitted rules of one name are the same. -/
theorem eq_of_id_eq (compiled : Compiled functions grammar)
    (valid : ∀ function ∈ functions, function.Valid) {left right : Rule}
    (leftMember : left ∈ emittedRules functions) (rightMember : right ∈ emittedRules functions)
    (same : left.id = right.id) : left = right := by
  have bodies := Body.render_inj (proper_of_mem_emittedRules valid leftMember).body
    (proper_of_mem_emittedRules valid rightMember).body
    (compiled.agree left leftMember right rightMember same)
  cases left
  cases right
  cases same
  cases bodies
  rfl

theorem mem_rules_iff (compiled : Compiled functions grammar)
    (valid : ∀ function ∈ functions, function.Valid) {rule : Rule} :
    rule ∈ grammar.rules ↔ rule = rootRule functions ∨ rule ∈ emittedRules functions := by
  rw [compiled.rules, List.mem_cons]
  refine or_congr_right ⟨fun kept => (mem_of_mem_firsts kept).1, fun emitted => ?_⟩
  have unseen : Rule.id rule ∉ [] := List.not_mem_nil
  obtain ⟨kept, found, named⟩ := exists_mem_firsts emitted unseen
  rwa [← compiled.eq_of_id_eq valid (mem_of_mem_firsts found).1 emitted named]

theorem mem_of_emitted (compiled : Compiled functions grammar)
    (valid : ∀ function ∈ functions, function.Valid) {rule : Rule}
    (emitted : rule ∈ emittedRules functions) : rule ∈ grammar.rules :=
  (compiled.mem_rules_iff valid).mpr (.inr emitted)

theorem proper (compiled : Compiled functions grammar)
    (valid : ∀ function ∈ functions, function.Valid) : ∀ rule ∈ grammar.rules, rule.Proper := by
  intro rule member
  rcases (compiled.mem_rules_iff valid).mp member with rfl | emitted
  · exact proper_rootRule compiled.nonempty valid
  · exact proper_of_mem_emittedRules valid emitted

theorem read?_renderWith (compiled : Compiled functions grammar)
    (valid : ∀ function ∈ functions, function.Valid) :
    read? (grammar.renderWith primitiveGrammar).toList = some grammar.productions :=
  Grammar.read?_renderWith (compiled.proper valid) (by simp [compiled.rules])

/-- The names of the fragment are reserved, so no rule takes them. -/
theorem name_not_mem_fragment (compiled : Compiled functions grammar) {rule : Rule}
    (member : rule ∈ grammar.rules) : rule.id.text ∉ fragment.map (·.name) := by
  intro token
  have names : ∀ name ∈ fragment.map (·.name), ⟨name⟩ ∈ reservedIds ∧ name ≠ rootId.text := by
    decide
  obtain ⟨reserved, other⟩ := names _ token
  rw [compiled.rules] at member
  rcases List.mem_cons.mp member with rfl | kept
  · exact other rfl
  · exact compiled.unreserved rule (mem_of_mem_firsts kept).1 reserved

theorem nodup_ids (compiled : Compiled functions grammar) : (grammar.rules.map (·.id)).Nodup := by
  rw [compiled.rules]
  refine List.nodup_cons.mpr ⟨fun repeated => ?_, nodup_firsts [] _⟩
  obtain ⟨rule, kept, same⟩ := List.mem_map.mp repeated
  have reserved : rule.id ∈ reservedIds := same ▸ List.mem_cons_self
  exact compiled.unreserved rule (mem_of_mem_firsts kept).1 reserved

theorem nodup_names (compiled : Compiled functions grammar) :
    (grammar.productions.map (·.name)).Nodup := by
  have texts : ((grammar.rules.map Rule.production).map (·.name)).Nodup := by
    have same : (grammar.rules.map Rule.production).map (·.name) =
        (grammar.rules.map (·.id)).map (·.text) := by
      rw [List.map_map, List.map_map]
      rfl
    rw [same]
    exact compiled.nodup_ids.map fun _ _ => RuleId.text_inj.mp
  rw [productions, List.map_append]
  refine List.nodup_append'.mpr ⟨texts, by decide, fun name own token => ?_⟩
  obtain ⟨production, made, rfl⟩ := List.mem_map.mp own
  obtain ⟨rule, member, rfl⟩ := List.mem_map.mp made
  exact compiled.name_not_mem_fragment member token

/-- Every production of a compiled grammar is what its name refers to. -/
theorem language_of_mem (compiled : Compiled functions grammar) {production : Production}
    (member : production ∈ grammar.productions) :
    language grammar.productions (.reference production.name) =
      language grammar.productions (.group production.alternatives) :=
  language_reference member fun _ other same =>
    List.inj_on_of_nodup_map compiled.nodup_names other member same

theorem language_rule (compiled : Compiled functions grammar)
    (valid : ∀ function ∈ functions, function.Valid) {rule : Rule}
    (member : rule = rootRule functions ∨ rule ∈ emittedRules functions) :
    language grammar.productions (.reference rule.id.text) =
      language grammar.productions (.group rule.body.alternatives) := by
  have kept : rule.production ∈ grammar.productions :=
    List.mem_append_left _ (List.mem_map_of_mem ((compiled.mem_rules_iff valid).mpr member))
  exact compiled.language_of_mem kept

/-- The tokens of a compiled grammar are those of the fragment. -/
theorem language_token (compiled : Compiled functions grammar) (production : Production)
    (member : production ∈ fragment) :
    language grammar.productions (.reference production.name) =
      language grammar.productions (.group production.alternatives) :=
  compiled.language_of_mem (List.mem_append_right _ member)

end Compiled

end ToolGrammar.Grammar
