import ToolGrammar.Proofs.Grammar.Closure

namespace ToolGrammar.Schema

mutual

/-- The names of fields in a shape, each before those within it. An array is a step of its own. -/
def shapeOutline (depth : Nat) : Shape → List (Nat × String)
  | .array element => shapeOutline (depth + 1) element
  | .object fields => fieldsOutline depth fields
  | .string | .boolean | .number | .fixed _ | .enum _ => []
termination_by structural shape => shape

def fieldsOutline (depth : Nat) : List (String × Shape) → List (Nat × String)
  | [] => []
  | (name, shape) :: rest =>
      (depth, name) :: (shapeOutline (depth + 1) shape ++ fieldsOutline depth rest)
termination_by structural fields => fields

end

end ToolGrammar.Schema

namespace ToolGrammar.Grammar

open Schema

/-- A body of values without fields or elements. -/
def Body.IsScalar : Body → Prop
  | .enum _ | .fixedPoint _ | .fraction _ | .integerPart => True
  | .choice _ | .call .. | .object _ | .array _ => False

mutual

/-- What is met when a name is followed: its rule is looked up, an object has its keys in order and
each of them is followed in turn, and an array goes on with its elements. -/
inductive Outlines (grammar : Grammar) : Nat → String → List (Nat × String) → Prop where
  | token {depth : Nat} {name : String} (token : name ∈ primitiveTokens) :
      Outlines grammar depth name []
  | scalar {depth : Nat} {name : String} {body : Body}
      (found : grammar.rule? ⟨name⟩ = some ⟨⟨name⟩, body⟩) (scalar : body.IsScalar) :
      Outlines grammar depth name []
  | array {depth : Nat} {name : String} {item : Reference} {outline : List (Nat × String)}
      (found : grammar.rule? ⟨name⟩ = some ⟨⟨name⟩, .array item⟩)
      (inner : Outlines grammar (depth + 1) item.text outline) :
      Outlines grammar depth name outline
  | object {depth : Nat} {name : String} {fields : List (String × Reference)}
      {outline : List (Nat × String)}
      (found : grammar.rule? ⟨name⟩ = some ⟨⟨name⟩, .object fields⟩)
      (inner : OutlinesFields grammar depth fields outline) :
      Outlines grammar depth name outline

inductive OutlinesFields (grammar : Grammar) :
    Nat → List (String × Reference) → List (Nat × String) → Prop where
  | nil {depth : Nat} : OutlinesFields grammar depth [] []
  | cons {depth : Nat} {name : String} {reference : Reference}
      {rest : List (String × Reference)} {first others : List (Nat × String)}
      (inner : Outlines grammar (depth + 1) reference.text first)
      (later : OutlinesFields grammar depth rest others) :
      OutlinesFields grammar depth ((name, reference) :: rest) ((depth, name) :: (first ++ others))

end

section

variable {grammar : Grammar} {depth : Nat} {name : String} {outline : List (Nat × String)}

theorem outlinesFields_nil : OutlinesFields grammar depth [] outline ↔ outline = [] := by
  constructor
  · rintro ⟨⟩
    rfl
  · rintro rfl
    exact .nil

theorem outlinesFields_cons {reference : Reference} {rest : List (String × Reference)} :
    OutlinesFields grammar depth ((name, reference) :: rest) outline ↔
      ∃ first others, Outlines grammar (depth + 1) reference.text first ∧
        OutlinesFields grammar depth rest others ∧
          outline = (depth, name) :: (first ++ others) := by
  constructor
  · rintro ⟨⟩
    exact ⟨_, _, ‹_›, ‹_›, rfl⟩
  · rintro ⟨first, others, inner, later, rfl⟩
    exact .cons inner later

theorem outlines_token (absent : grammar.rule? ⟨name⟩ = none) (token : name ∈ primitiveTokens) :
    Outlines grammar depth name outline ↔ outline = [] := by
  constructor
  · intro outlines
    cases outlines with
    | token => rfl
    | scalar found | array found | object found => simp [absent] at found
  · rintro rfl
    exact .token token

theorem outlines_scalar {body : Body} (found : grammar.rule? ⟨name⟩ = some ⟨⟨name⟩, body⟩)
    (scalar : body.IsScalar) :
    Outlines grammar depth name outline ↔ outline = [] := by
  constructor
  · intro outlines
    cases outlines with
    | token | scalar => rfl
    | array foundOther | object foundOther =>
        cases found.symm.trans foundOther
        exact scalar.elim
  · rintro rfl
    exact .scalar found scalar

theorem outlines_array {item : Reference} (other : name ∉ primitiveTokens)
    (found : grammar.rule? ⟨name⟩ = some ⟨⟨name⟩, .array item⟩) :
    Outlines grammar depth name outline ↔ Outlines grammar (depth + 1) item.text outline := by
  refine ⟨fun outlines => ?_, .array found⟩
  cases outlines with
  | token token => exact absurd token other
  | scalar foundOther scalar =>
      cases found.symm.trans foundOther
      exact scalar.elim
  | array foundOther inner =>
      cases found.symm.trans foundOther
      exact inner
  | object foundOther => cases found.symm.trans foundOther

theorem outlines_object {fields : List (String × Reference)} (other : name ∉ primitiveTokens)
    (found : grammar.rule? ⟨name⟩ = some ⟨⟨name⟩, .object fields⟩) :
    Outlines grammar depth name outline ↔ OutlinesFields grammar depth fields outline := by
  refine ⟨fun outlines => ?_, .object found⟩
  cases outlines with
  | token token => exact absurd token other
  | scalar foundOther scalar =>
      cases found.symm.trans foundOther
      exact scalar.elim
  | array foundOther => cases found.symm.trans foundOther
  | object foundOther inner =>
      cases found.symm.trans foundOther
      exact inner

end

namespace Compiled

variable {functions : List FunctionSpec} {grammar : Grammar}

theorem rule?_of_mem (compiled : Compiled functions grammar) {rule : Rule}
    (member : rule ∈ grammar.rules) : grammar.rule? rule.id = some rule :=
  find?_of_nodup compiled.nodup_ids member rfl

/-- No rule has the name of a token. -/
theorem outlines_primitive (compiled : Compiled functions grammar) {depth : Nat} {name : String}
    {outline : List (Nat × String)} (token : name ∈ primitiveTokens) :
    Outlines grammar depth name outline ↔ outline = [] := by
  refine outlines_token (List.find?_eq_none.mpr fun rule member named => ?_) token
  have same : rule.id = ⟨name⟩ := by simpa using named
  refine compiled.text_not_mem_primitiveTokens member ?_
  rwa [same]

/-- The name and the rule of a known node. -/
theorem node_found (compiled : Compiled functions grammar)
    (valid : ∀ function ∈ functions, function.Valid) {node : Node}
    (known : node ∈ functions.flatMap functionNodes) :
    node.id.text ∉ primitiveTokens ∧ grammar.rule? node.id = some node.rule := by
  have member := compiled.mem_of_emitted valid (node_emitted known)
  exact ⟨compiled.text_not_mem_primitiveTokens member, compiled.rule?_of_mem member⟩

mutual

theorem outlines_reference (compiled : Compiled functions grammar)
    (valid : ∀ function ∈ functions, function.Valid) {depth : Nat} {id : RuleId}
    {outline : List (Nat × String)} (shape : Shape)
    (known : nodes id shape ⊆ functions.flatMap functionNodes)
    (used : shape.precisions ⊆ (floatRegistry functions).precisions) :
    Outlines grammar depth (reference id shape).text outline ↔
      outline = shapeOutline depth shape := by
  cases shape with
  | string | boolean | number =>
      exact compiled.outlines_primitive (by simp [reference, Reference.text, primitiveTokens])
  | fixed precision =>
      have float := Registry.mem_rules.mpr (.inl ⟨precision, used List.mem_cons_self, .inl rfl⟩)
      have member := compiled.mem_of_emitted valid (float_emitted float)
      exact outlines_scalar (compiled.rule?_of_mem member) trivial
  | enum values =>
      exact outlines_scalar (compiled.node_found valid (known List.mem_cons_self)).2 trivial
  | array element =>
      obtain ⟨own, inner⟩ := List.cons_subset.mp known
      obtain ⟨other, found⟩ := compiled.node_found valid own
      exact (outlines_array other found).trans
        (compiled.outlines_reference valid element inner used)
  | object fields =>
      obtain ⟨own, inner⟩ := List.cons_subset.mp known
      obtain ⟨other, found⟩ := compiled.node_found valid own
      exact (outlines_object other found).trans
        (compiled.outlines_fieldReferences valid fields inner used)
termination_by structural shape

theorem outlines_fieldReferences (compiled : Compiled functions grammar)
    (valid : ∀ function ∈ functions, function.Valid) {depth : Nat} {id : RuleId}
    {outline : List (Nat × String)} (fields : List (String × Shape))
    (known : fieldNodes id fields ⊆ functions.flatMap functionNodes)
    (used : shapePrecisions fields ⊆ (floatRegistry functions).precisions) :
    OutlinesFields grammar depth (fieldReferences id fields) outline ↔
      outline = fieldsOutline depth fields := by
  match fields with
  | [] => exact outlinesFields_nil
  | (name, shape) :: rest =>
      obtain ⟨first, later⟩ := List.append_subset.mp known
      obtain ⟨own, others⟩ := List.append_subset.mp used
      change OutlinesFields grammar depth
        ((name, reference (id.child name) shape) :: fieldReferences id rest) outline ↔ _
      simp only [outlinesFields_cons, compiled.outlines_reference valid shape first own,
        compiled.outlines_fieldReferences valid rest later others, fieldsOutline,
        exists_and_left, exists_eq_left]
termination_by structural fields

end

/-- The rule of the parameters of a function leads to all of its fields. -/
theorem outlines_params (compiled : Compiled functions grammar)
    (valid : ∀ function ∈ functions, function.Valid) {function : FunctionSpec}
    (found : function ∈ functions) {depth : Nat} {outline : List (Nat × String)} :
    Outlines grammar depth (paramsId function).text outline ↔
      outline = fieldsOutline depth (fieldShapes function.parameters) := by
  have used : shapePrecisions (fieldShapes function.parameters) ⊆
      (floatRegistry functions).precisions := by
    rw [shapePrecisions_fieldShapes]
    exact fun precision member => mem_floatRegistry.mpr ⟨function, found, member⟩
  exact compiled.outlines_reference valid (.object (fieldShapes function.parameters))
    (functionNodes_subset found) used

end Compiled

end ToolGrammar.Grammar
