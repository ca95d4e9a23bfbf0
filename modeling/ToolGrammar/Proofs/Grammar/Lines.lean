import ToolGrammar.Proofs.Grammar.Resolution
import ToolGrammar.Proofs.Grammar.Words
import ToolGrammar.Proofs.Storage.Spelling

namespace ToolGrammar.Grammar

open Schema

/-- A small letter, a digit or a hyphen. -/
def RuleLetter (c : Char) : Prop :=
  ('a' ≤ c ∧ c ≤ 'z') ∨ ('0' ≤ c ∧ c ≤ '9') ∨ c = '-'

instance (c : Char) : Decidable (RuleLetter c) :=
  inferInstanceAs (Decidable (_ ∨ _))

/-- One letter of rules or more. -/
structure RuleWord (name : String) : Prop where
  nonempty : name.toList ≠ []
  letters : ∀ c ∈ name.toList, RuleLetter c

theorem RuleWord.not_mem {name : String} (word : RuleWord name) {c : Char}
    (other : ¬ RuleLetter c) : c ∉ name.toList :=
  fun member => other (word.letters c member)

theorem RuleWord.append {name rest : String} (word : RuleWord name)
    (letters : ∀ c ∈ rest.toList, RuleLetter c) : RuleWord (name ++ rest) := by
  refine ⟨by simp [word.nonempty], fun c member => ?_⟩
  rw [String.toList_append, List.mem_append] at member
  exact member.elim (word.letters c) (letters c)

theorem ruleWord_of_all {name : String} (nonempty : name.toList ≠ [])
    (letters : name.toList.all (fun c => decide (RuleLetter c)) = true) : RuleWord name :=
  ⟨nonempty, by simpa using letters⟩

theorem ruleWord_normalize {name : String} (valid : isFieldName name = true) :
    RuleWord (normalize name) := by
  obtain ⟨nonempty, inside⟩ := isFieldName_iff.mp valid
  have toList := normalize_toList inside
  refine ⟨by simpa [toList] using nonempty, fun c member => ?_⟩
  rw [toList] at member
  obtain ⟨original, found, rfl⟩ := List.mem_map.mp member
  refine of_isFieldChar (inside original found) ?_
  decide +kernel

theorem ruleWord_function {name : String} (valid : isFunctionName name = true) :
    RuleWord (RuleId.function name).text := by
  simpa [RuleId.function, RuleId.ofPath] using
    ruleWord_normalize (isFieldName_of_isFunctionName valid)

theorem RuleWord.params {id : RuleId} (word : RuleWord id.text) : RuleWord id.params.text :=
  word.append (by simpa using (by decide : "-params".toList.all fun c => decide (RuleLetter c)))

theorem RuleWord.element {id : RuleId} (word : RuleWord id.text) : RuleWord id.element.text :=
  word.append (by simpa using (by decide : "-element".toList.all fun c => decide (RuleLetter c)))

theorem RuleWord.child {id : RuleId} (word : RuleWord id.text) {field : String}
    (valid : isFieldName field = true) : RuleWord (id.child field).text :=
  (word.append (by simpa using (by decide : "-".toList.all fun c => decide (RuleLetter c)))).append
    (ruleWord_normalize valid).letters

theorem ruleLetter_of_isDigit {c : Char} (digit : c.isDigit = true) : RuleLetter c := by
  simp only [Char.isDigit, Bool.and_eq_true, decide_eq_true_eq] at digit
  exact .inr (.inl digit)

theorem ruleLetter_of_mem_toString {n : Nat} : ∀ c ∈ (toString n).toList, RuleLetter c :=
  fun _ member => ruleLetter_of_isDigit (isDigit_of_mem_toString member)

theorem ruleWord_of_mem_functionNodes {function : FunctionSpec} (valid : function.Valid) :
    ∀ node ∈ functionNodes function, RuleWord node.id.text := by
  have own : RuleWord (paramsId function).text := (ruleWord_function valid.name).params
  intro node member
  exact (valid_of_mem_nodes (motive := fun id => RuleWord id.text) (fun _ => RuleWord.element)
    (fun _ _ wellFormed word => word.child wellFormed) own (.object valid.parameters) node member).1

theorem ruleWord_of_mem_emittedRules {functions : List FunctionSpec}
    (valid : ∀ function ∈ functions, function.Valid) {rule : Rule}
    (emitted : rule ∈ emittedRules functions) : RuleWord rule.id.text := by
  rcases mem_emittedRules.mp emitted with ⟨function, member, rfl⟩ | ⟨node, member, rfl⟩ | float
  · exact ruleWord_function (valid function member).name
  · obtain ⟨function, found, inside⟩ := List.mem_flatMap.mp member
    exact ruleWord_of_mem_functionNodes (valid function found) node inside
  · rcases Registry.mem_rules.mp float with ⟨precision, _, rfl | rfl⟩ | ⟨_, rfl⟩
    · have start : RuleWord "float-" := ruleWord_of_all (by decide) (by decide)
      exact start.append ruleLetter_of_mem_toString
    · have start : RuleWord "fractional-part-" := ruleWord_of_all (by decide) (by decide)
      exact start.append ruleLetter_of_mem_toString
    · exact ruleWord_of_all (by decide) (by decide)

/-- The texts before and after the first place where the separator stands. -/
def cutAt? (separator : List Char) : List Char → Option (List Char × List Char)
  | [] => if separator = [] then some ([], []) else none
  | c :: rest =>
      if separator <+: c :: rest then some ([], (c :: rest).drop separator.length)
      else (cutAt? separator rest).map fun (before, after) => (c :: before, after)

/-- A line as the name and the body of a rule. -/
def definition? (line : String) : Option (String × String) :=
  (cutAt? " ::= ".toList line.toList).map fun (name, body) =>
    (String.ofList name, String.ofList body)

theorem cutAt?_append {first : Char} {separator before : List Char} (after : List Char)
    (absent : first ∉ before) :
    cutAt? (first :: separator) (before ++ first :: separator ++ after) = some (before, after) := by
  induction before with
  | nil =>
      have starts : first :: separator <+: first :: (separator ++ after) :=
        ⟨after, by simp⟩
      simp [cutAt?, starts]
  | cons c before ih =>
      obtain ⟨other, absent⟩ := not_or.mp (List.mem_cons.not.mp absent)
      have elsewhere : ¬ first :: separator <+: c :: (before ++ first :: separator ++ after) := by
        intro starts
        exact other (List.cons_prefix_cons.mp starts).1
      rw [List.cons_append, List.cons_append, cutAt?, if_neg elsewhere, ih absent]
      rfl

theorem definition?_render {rule : Rule} (word : RuleWord rule.id.text) :
    definition? rule.render = some (rule.id.text, rule.body.render) := by
  have blank : ' ' ∉ rule.id.text.toList := word.not_mem (by decide)
  have cut : cutAt? (' ' :: "::= ".toList) _ = _ := cutAt?_append rule.body.render.toList blank
  have line : rule.render.toList =
      rule.id.text.toList ++ ' ' :: "::= ".toList ++ rule.body.render.toList := by
    simp [Rule.render]
  rw [definition?, line]
  change (cutAt? (' ' :: "::= ".toList) _).map _ = _
  rw [cut]
  simp

theorem lineFeed_not_mem_render {rule : Rule} (word : RuleWord rule.id.text)
    (proper : rule.body.Proper) : '\n' ∉ rule.render.toList := by
  have name : '\n' ∉ rule.id.text.toList := word.not_mem (by decide)
  have body := (Body.splits proper).lineFeed_not_mem
  simp [Rule.render, name, body]

namespace Compiled

variable {functions : List FunctionSpec} {grammar : Grammar}

theorem ruleWord (compiled : Compiled functions grammar)
    (valid : ∀ function ∈ functions, function.Valid) :
    ∀ rule ∈ grammar.rules, RuleWord rule.id.text := by
  intro rule member
  have root : RuleWord rootId.text := ruleWord_of_all (by decide) (by decide)
  rcases (compiled.mem_rules_iff valid).mp member with rfl | emitted
  · exact root
  · exact ruleWord_of_mem_emittedRules valid emitted

theorem definitions_of_render (compiled : Compiled functions grammar)
    (valid : ∀ function ∈ functions, function.Valid) :
    (Text.pieces '\n' grammar.render).map definition? =
      grammar.rules.map fun rule => some (rule.id.text, rule.body.render) := by
  have words := compiled.ruleWord valid
  have nonempty : grammar.rules.map Rule.render ≠ [] := by
    simp [compiled.rules]
  have solid : ∀ line ∈ grammar.rules.map Rule.render, '\n' ∉ line.toList := by
    intro line member
    obtain ⟨rule, found, rfl⟩ := List.mem_map.mp member
    exact lineFeed_not_mem_render (words rule found) (compiled.proper valid rule found).body
  have lines : Text.pieces '\n' grammar.render = grammar.rules.map Rule.render :=
    Text.pieces_ofList_intercalate nonempty solid
  rw [lines, List.map_map]
  exact List.map_congr_left fun rule found => definition?_render (words rule found)

end Compiled

/-- The text of a compiled grammar can be taken apart into the rules that it was made of, and their
bodies into their words, whatever values its enumerations have. -/
theorem grammar_text_decodable {functions : List FunctionSpec} {grammar : Grammar}
    (valid : ∀ function ∈ functions, function.Valid) (success : compile functions = .ok grammar) :
    (∀ rule ∈ grammar.rules, RuleWord rule.id.text ∧ '\n' ∉ rule.id.text.toList ∧
      '\n' ∉ rule.body.render.toList) ∧
    (Text.pieces '\n' grammar.render).map definition? =
      grammar.rules.map (fun rule => some (rule.id.text, rule.body.render)) ∧
    (∀ rule ∈ grammar.rules,
      rule.body.words.map String.toList = rule.body.pieces.map Word.chars ∧
      words? rule.body.render.toList = some rule.body.pieces ∧
      ∀ words, Splits rule.body.render.toList words ↔ words = rule.body.pieces) ∧
    (∀ text rest, Literal.decode? (Literal.encode text ++ rest) = some (text, rest)) ∧
    grammar.renderWith "" = grammar.render ∧
    ∀ primitives, primitives ≠ "" →
      grammar.renderWith primitives = grammar.render ++ "\n" ++ primitives := by
  have compiled := compiled_of_compile success
  have words := compiled.ruleWord valid
  have splits (rule : Rule) (member : rule ∈ grammar.rules) :
      Splits rule.body.render.toList rule.body.pieces :=
    Body.splits (compiled.proper valid rule member).body
  refine ⟨fun rule member => ?_, compiled.definitions_of_render valid, fun rule member => ?_,
    decode?_encode, by simp [renderWith], fun primitives some => by simp [renderWith, some]⟩
  · exact ⟨words rule member, (words rule member).not_mem (by decide),
      (splits rule member).lineFeed_not_mem⟩
  · refine ⟨rule.body.words_toList, (splits rule member).words?_eq, fun others => ?_⟩
    constructor
    · exact fun otherSplits => otherSplits.unique (splits rule member)
    · rintro rfl
      exact splits rule member

/-- The values hold line feeds, quotes, backslashes and what looks like the start of a rule. -/
def labelling : FunctionSpec where
  name := "label"
  description := ""
  parameters := [
    ("mark", .enum .plain ⟨["a\nroot ::= b", "\" | ws \"", "\\"], by decide, by decide⟩)]

theorem grammar_text_decodable_labelling :
    ∃ grammar, compile [labelling] = .ok grammar ∧
      (Text.pieces '\n' grammar.render).map definition? =
        grammar.rules.map (fun rule => some (rule.id.text, rule.body.render)) ∧
      ∀ rule ∈ grammar.rules, words? rule.body.render.toList = some rule.body.pieces := by
  have valid : ∀ function ∈ [labelling], function.Valid := by decide
  obtain ⟨grammar, success⟩ : ∃ grammar, compile [labelling] = .ok grammar := ⟨_, by cbv⟩
  obtain ⟨_, lines, bodies, _⟩ := grammar_text_decodable valid success
  exact ⟨grammar, success, lines, fun rule member => (bodies rule member).2.1⟩

end ToolGrammar.Grammar
