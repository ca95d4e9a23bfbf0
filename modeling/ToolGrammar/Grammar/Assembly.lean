import ToolGrammar.Grammar.Emission

/-!
Whole grammars: the root rule, the rule of every function, the parameters of each function, and the
float rules. A rule that repeats an earlier one is dropped; one that contradicts an earlier one, or
takes a reserved name, makes the assembly fail.
-/
namespace ToolGrammar

/-- The rules of a grammar, the root rule first. -/
structure Grammar where
  rules : List Grammar.Rule
  deriving DecidableEq, Repr

namespace Grammar

open Schema (FunctionSpec)

inductive CompileError where
  | noFunctions
  | duplicateFunction (name : String)
  | reservedRule (id : RuleId)
  | ruleCollision (id : RuleId) (first second : Body)
  deriving DecidableEq, Repr

def CompileError.message : CompileError → String
  | .noFunctions => "cannot build a grammar without any functions"
  | .duplicateFunction name => "function `" ++ name ++ "` is declared more than once"
  | .reservedRule id =>
      "rule `" ++ id.text ++ "` is reserved for the root rule or the primitive grammar"
  | .ruleCollision id first second =>
      "rule `" ++ id.text ++ "` is defined twice with conflicting bodies: `" ++ first.render ++
        "` vs `" ++ second.render ++ "`"

def rootId : RuleId :=
  ⟨"root"⟩

/-- Names that the root rule and the primitive fragment own. -/
def reservedIds : List RuleId :=
  rootId :: primitiveTokens.map RuleId.mk

/-- The outcome of accepting rules one by one: the names of those dropped as repetitions before the
end or the first failure, and the rules kept. -/
structure Acceptance (α : Type) where
  dropped : List RuleId
  outcome : Except CompileError α

/-- Accepts rules in order after the rules `known`, which have distinct names. Two rules of one name
repeat each other when their bodies read alike. -/
def acceptRules (known : List Rule) : List Rule → Acceptance (List Rule)
  | [] => ⟨[], .ok []⟩
  | rule :: rest =>
      if rule.id ∈ reservedIds then ⟨[], .error (.reservedRule rule.id)⟩
      else
        match known.find? (·.id == rule.id) with
        | none =>
            let others := acceptRules (rule :: known) rest
            ⟨others.dropped, others.outcome.map (rule :: ·)⟩
        | some first =>
            if first.body.render = rule.body.render then
              let others := acceptRules known rest
              ⟨rule.id :: others.dropped, others.outcome⟩
            else ⟨[], .error (.ruleCollision rule.id first.body rule.body)⟩

/-- All rules but the root one, in the order of their definition. -/
def emittedRules (functions : List FunctionSpec) : List Rule :=
  let (compiled, registry) := emitFunctions (Registry.collect functions) functions
  compiled.map (·.call) ++ compiled.flatMap (·.params) ++ registry.rules

def rootRule (functions : List FunctionSpec) : Rule :=
  ⟨rootId, .choice (functions.map fun function => RuleId.function function.name)⟩

def assemble (functions : List FunctionSpec) : Acceptance Grammar :=
  if functions.isEmpty then ⟨[], .error .noFunctions⟩
  else
    match Schema.firstRepeat? [] (functions.map (·.name)) with
    | some name => ⟨[], .error (.duplicateFunction name)⟩
    | none =>
        let acceptance := acceptRules [] (emittedRules functions)
        ⟨acceptance.dropped, acceptance.outcome.map fun rules => ⟨rootRule functions :: rules⟩⟩

def compile (functions : List FunctionSpec) : Except CompileError Grammar :=
  (assemble functions).outcome

def rule? (grammar : Grammar) (id : RuleId) : Option Rule :=
  grammar.rules.find? (·.id == id)

/-- One rule a line, no line feed at the end. -/
def render (grammar : Grammar) : String :=
  "\n".intercalate (grammar.rules.map Rule.render)

/-- The rules and then a primitive fragment, unless that is empty. -/
def renderWith (grammar : Grammar) (primitives : String) : String :=
  if primitives.isEmpty then grammar.render else grammar.render ++ "\n" ++ primitives

end Grammar

end ToolGrammar
