import ToolGrammar.Grammar.Registry

/-!
Rules of schemas. Each object, array and enumeration has a rule of its own, named after its path and
followed at once by the rules of what it contains; every other parameter is a token. A float of
fixed precision is only referred to here and noted in the registry.
-/
namespace ToolGrammar.Grammar

open Schema (Parameter Fields FunctionSpec)

/-- What a parameter becomes: the reference that stands for it, its rules, and the registry once
its precisions have been noted. -/
structure Emission where
  reference : Reference
  rules : List Rule
  registry : Registry

/-- What fields become: a key with a reference for each, and the rules of all. -/
structure FieldsEmission where
  fields : List (String × Reference)
  rules : List Rule
  registry : Registry

mutual

/-- The emission of a parameter at the path that `id` names. -/
def emit (id : RuleId) (registry : Registry) : Parameter → Emission
  | .string _ => ⟨.string, [], registry⟩
  | .boolean _ => ⟨.boolean, [], registry⟩
  | .integer .. | .float _ none => ⟨.number, [], registry⟩
  | .float _ (some precision) => ⟨.float precision, [], registry.insert precision⟩
  | .enum _ values => ⟨.rule id, [⟨id, .enum values.values⟩], registry⟩
  | .object _ fields =>
      let inner := emitFields id registry fields
      ⟨.rule id, ⟨id, .object inner.fields⟩ :: inner.rules, inner.registry⟩
  | .array _ element =>
      let inner := emit id.element registry element
      ⟨.rule id, ⟨id, .array inner.reference⟩ :: inner.rules, inner.registry⟩
termination_by structural parameter => parameter

def emitFields (id : RuleId) (registry : Registry) : Fields → FieldsEmission
  | [] => ⟨[], [], registry⟩
  | (name, parameter) :: rest =>
      let first := emit (id.child name) registry parameter
      let others := emitFields id first.registry rest
      ⟨(name, first.reference) :: others.fields, first.rules ++ others.rules, others.registry⟩
termination_by structural fields => fields

end

structure FunctionRules where
  call : Rule
  params : List Rule
  deriving Repr

def emitFunction (registry : Registry) (function : FunctionSpec) : FunctionRules × Registry :=
  let id := RuleId.function function.name
  let inner := emitFields id.params registry function.parameters
  (⟨⟨id, .call function.name id.params⟩, ⟨id.params, .object inner.fields⟩ :: inner.rules⟩,
    inner.registry)

/-- The rules of all functions in their order, the registry passed on from one to the next. -/
def emitFunctions (registry : Registry) : List FunctionSpec → List FunctionRules × Registry
  | [] => ([], registry)
  | function :: rest =>
      let (first, registry) := emitFunction registry function
      let (others, registry) := emitFunctions registry rest
      (first :: others, registry)

end ToolGrammar.Grammar
