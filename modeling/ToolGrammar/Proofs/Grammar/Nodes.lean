import ToolGrammar.Grammar.Assembly
import ToolGrammar.Proofs.Schema.Shape

/-!
The composite parts of schemas, each with the name of its rule. Emission lists the rules of these
nodes in their order and nothing else, and notes just the precisions that occur.
-/
namespace ToolGrammar.Grammar

open Schema

/-- A type that has a rule of its own. -/
inductive Composite where
  | enum (values : List String)
  | array (element : Shape)
  | object (fields : List (String × Shape))

def Composite.shape : Composite → Shape
  | .enum values => .enum values
  | .array element => .array element
  | .object fields => .object fields

theorem Composite.shape_inj {left right : Composite} (same : left.shape = right.shape) :
    left = right := by
  cases left <;> cases right <;> cases same <;> rfl

structure Node where
  id : RuleId
  type : Composite

mutual

/-- The nodes of a shape at the path that `id` names, each before those within it. -/
def nodes (id : RuleId) : Shape → List Node
  | .enum values => [⟨id, .enum values⟩]
  | .array element => ⟨id, .array element⟩ :: nodes id.element element
  | .object fields => ⟨id, .object fields⟩ :: fieldNodes id fields
  | .string | .boolean | .number | .fixed _ => []
termination_by structural shape => shape

def fieldNodes (id : RuleId) : List (String × Shape) → List Node
  | [] => []
  | (name, shape) :: rest => nodes (id.child name) shape ++ fieldNodes id rest
termination_by structural fields => fields

end

def paramsId (function : FunctionSpec) : RuleId :=
  (RuleId.function function.name).params

/-- The nodes of a function; its parameters as a whole are an object. -/
def functionNodes (function : FunctionSpec) : List Node :=
  nodes (paramsId function) (.object (fieldShapes function.parameters))

theorem functionNodes_subset {functions : List FunctionSpec} {function : FunctionSpec}
    (found : function ∈ functions) : functionNodes function ⊆ functions.flatMap functionNodes :=
  fun _ inside => List.mem_flatMap.mpr ⟨function, found, inside⟩

/-- What stands for a value of the shape at the path that `id` names. -/
def reference (id : RuleId) : Shape → Reference
  | .string => .string
  | .boolean => .boolean
  | .number => .number
  | .fixed precision => .float precision
  | .enum _ | .array _ | .object _ => .rule id

theorem reference_composite (id : RuleId) (type : Composite) :
    reference id type.shape = .rule id := by
  cases type <;> rfl

theorem mem_nodes_self (node : Node) : node ∈ nodes node.id node.type.shape := by
  obtain ⟨id, type⟩ := node
  cases type <;> simp [Composite.shape, nodes]

/-- The shape at the path that `id` names is that of the node's element or of one of its fields. -/
inductive Child (node : Node) : RuleId → Shape → Prop where
  | element {element : Shape} (type : node.type = .array element) :
      Child node node.id.element element
  | field {fields : List (String × Shape)} {name : String} {shape : Shape}
      (type : node.type = .object fields) (member : (name, shape) ∈ fields) :
      Child node (node.id.child name) shape

mutual

/-- What holds of the node at a path, and of every node whose parent it holds of, holds of all nodes
of the shape there. -/
theorem nodes_induction {motive : Node → Prop}
    (step : ∀ node id type, motive node → Child node id type.shape → motive ⟨id, type⟩)
    (id : RuleId) (shape : Shape) (head : ∀ type, shape = type.shape → motive ⟨id, type⟩) :
    ∀ node ∈ nodes id shape, motive node := by
  cases shape with
  | string | boolean | number | fixed => simp [nodes]
  | enum values => simpa [nodes] using head (.enum values) rfl
  | array element =>
      have own := head (.array element) rfl
      have inner := nodes_induction step id.element element fun type same =>
        step _ _ type own (same ▸ .element rfl)
      simpa [nodes, own] using inner
  | object fields =>
      have own := head (.object fields) rfl
      simpa [nodes, own] using fieldNodes_induction step id fields own fields (List.Subset.refl _)
termination_by structural shape

theorem fieldNodes_induction {motive : Node → Prop}
    (step : ∀ node id type, motive node → Child node id type.shape → motive ⟨id, type⟩)
    (id : RuleId) (all : List (String × Shape)) (own : motive ⟨id, .object all⟩)
    (fields : List (String × Shape)) (within : fields ⊆ all) :
    ∀ node ∈ fieldNodes id fields, motive node := by
  match fields with
  | [] => simp [fieldNodes]
  | (name, shape) :: rest =>
      obtain ⟨member, others⟩ := List.cons_subset.mp within
      have first := nodes_induction step (id.child name) shape fun type same =>
        step _ _ type own (same ▸ .field rfl member)
      have later := fieldNodes_induction step id all own rest others
      intro node found
      rw [fieldNodes, List.mem_append] at found
      exact found.elim (first node) (later node)
termination_by structural fields

end

theorem fieldNodes_subset {id : RuleId} {fields : List (String × Shape)} {name : String}
    {shape : Shape} (member : (name, shape) ∈ fields) :
    nodes (id.child name) shape ⊆ fieldNodes id fields := by
  induction fields with
  | nil => cases member
  | cons field rest ih =>
      rw [fieldNodes]
      rcases List.mem_cons.mp member with rfl | later
      · exact List.subset_append_left _ _
      · exact List.subset_append_of_subset_right _ (ih later)

theorem Child.nodes_subset {node : Node} {id : RuleId} {shape : Shape}
    (child : Child node id shape) : nodes id shape ⊆ nodes node.id node.type.shape := by
  cases child with
  | element type =>
      rw [type, Composite.shape, nodes]
      exact List.subset_cons_self _ _
  | field type member =>
      rw [type, Composite.shape, nodes]
      exact List.subset_cons_of_subset _ (fieldNodes_subset member)

theorem nodes_subset_of_mem (id : RuleId) (shape : Shape) :
    ∀ node ∈ nodes id shape, nodes node.id node.type.shape ⊆ nodes id shape := by
  refine nodes_induction ?_ id shape ?_
  · exact fun node childId type within child => List.Subset.trans child.nodes_subset within
  · exact fun type same => same ▸ List.Subset.refl _

def fieldReferences (id : RuleId) (fields : List (String × Shape)) : List (String × Reference) :=
  fields.map fun field => (field.1, reference (id.child field.1) field.2)

def Node.rule (node : Node) : Rule where
  id := node.id
  body :=
    match node.type with
    | .enum values => .enum values
    | .array element => .array (reference node.id.element element)
    | .object fields => .object (fieldReferences node.id fields)

def callRule (function : FunctionSpec) : Rule :=
  ⟨RuleId.function function.name, .call function.name (paramsId function)⟩

mutual

theorem emit_eq (id : RuleId) (registry : Registry) (parameter : Parameter) :
    (emit id registry parameter).reference = reference id parameter.shape ∧
      (emit id registry parameter).rules = (nodes id parameter.shape).map Node.rule := by
  cases parameter with
  | string | boolean | integer | enum => exact ⟨rfl, rfl⟩
  | float note precision => cases precision <;> exact ⟨rfl, rfl⟩
  | array note element =>
      obtain ⟨referred, listed⟩ := emit_eq id.element registry element
      simp [emit, nodes, Parameter.shape, reference, Node.rule, referred, listed]
  | object note fields =>
      obtain ⟨referred, listed⟩ := emitFields_eq id registry fields
      simp [emit, nodes, Parameter.shape, reference, Node.rule, referred, listed]
termination_by structural parameter

theorem emitFields_eq (id : RuleId) (registry : Registry) (fields : Fields) :
    (emitFields id registry fields).fields = fieldReferences id (fieldShapes fields) ∧
      (emitFields id registry fields).rules =
        (fieldNodes id (fieldShapes fields)).map Node.rule := by
  match fields with
  | [] => exact ⟨rfl, rfl⟩
  | (name, parameter) :: rest =>
      obtain ⟨referred, listed⟩ := emit_eq (id.child name) registry parameter
      obtain ⟨others, later⟩ :=
        emitFields_eq id (emit (id.child name) registry parameter).registry rest
      simp [emitFields, fieldNodes, fieldShapes, fieldReferences, referred, listed, others, later]
termination_by structural fields

end

mutual

theorem mem_emit_registry (id : RuleId) (registry : Registry) (parameter : Parameter)
    (precision : Precision) :
    precision ∈ (emit id registry parameter).registry.precisions ↔
      precision ∈ registry.precisions ∨ precision ∈ parameter.precisions := by
  cases parameter with
  | string | boolean | integer | enum => simp [emit, Parameter.precisions]
  | float note places =>
      cases places with
      | none => simp [emit, Parameter.precisions]
      | some places => simp [emit, Parameter.precisions, Registry.mem_insert, or_comm]
  | array note element => exact mem_emit_registry id.element registry element precision
  | object note fields => exact mem_emitFields_registry id registry fields precision
termination_by structural parameter

theorem mem_emitFields_registry (id : RuleId) (registry : Registry) (fields : Fields)
    (precision : Precision) :
    precision ∈ (emitFields id registry fields).registry.precisions ↔
      precision ∈ registry.precisions ∨ precision ∈ fieldPrecisions fields := by
  match fields with
  | [] => simp [emitFields, fieldPrecisions]
  | (name, parameter) :: rest =>
      have first := mem_emit_registry (id.child name) registry parameter precision
      have others := mem_emitFields_registry id (emit (id.child name) registry parameter).registry
        rest precision
      simp only [emitFields, fieldPrecisions, List.mem_append]
      rw [others, first, or_assoc]
termination_by structural fields

end

mutual

theorem mem_collectFrom (registry : Registry) (parameter : Parameter) (precision : Precision) :
    precision ∈ (registry.collectFrom parameter).precisions ↔
      precision ∈ registry.precisions ∨ precision ∈ parameter.precisions := by
  cases parameter with
  | string | boolean | integer | enum => simp [Registry.collectFrom, Parameter.precisions]
  | float note places =>
      cases places with
      | none => simp [Registry.collectFrom, Parameter.precisions]
      | some places =>
          simp [Registry.collectFrom, Parameter.precisions, Registry.mem_insert, or_comm]
  | array note element => exact mem_collectFrom registry element precision
  | object note fields => exact mem_collectFields registry fields precision
termination_by structural parameter

theorem mem_collectFields (registry : Registry) (fields : Fields) (precision : Precision) :
    precision ∈ (registry.collectFields fields).precisions ↔
      precision ∈ registry.precisions ∨ precision ∈ fieldPrecisions fields := by
  match fields with
  | [] => simp [Registry.collectFields, fieldPrecisions]
  | (name, parameter) :: rest =>
      have first := mem_collectFrom registry parameter precision
      have others := mem_collectFields (registry.collectFrom parameter) rest precision
      simp only [Registry.collectFields, fieldPrecisions, List.mem_append]
      rw [others, first, or_assoc]
termination_by structural fields

end

theorem emitFunctions_calls (registry : Registry) (functions : List FunctionSpec) :
    (emitFunctions registry functions).1.map (·.call) = functions.map callRule := by
  induction functions generalizing registry with
  | nil => rfl
  | cons function rest ih =>
      simp only [emitFunctions, List.map_cons, ih]
      rfl

theorem emitFunctions_params (registry : Registry) (functions : List FunctionSpec) :
    (emitFunctions registry functions).1.flatMap (·.params) =
      (functions.flatMap functionNodes).map Node.rule := by
  induction functions generalizing registry with
  | nil => rfl
  | cons function rest ih =>
      obtain ⟨fields, listed⟩ := emitFields_eq (paramsId function) registry function.parameters
      have first : (emitFunction registry function).1.params =
          (functionNodes function).map Node.rule := by
        simp only [emitFunction, functionNodes, nodes, List.map_cons, Node.rule]
        change _ :: (emitFields (paramsId function) registry function.parameters).rules = _
        rw [listed, ← fields]
        rfl
      simp only [emitFunctions, List.flatMap_cons, List.map_append, ih, first]

theorem mem_emitFunctions_registry (registry : Registry) (functions : List FunctionSpec)
    (precision : Precision) :
    precision ∈ (emitFunctions registry functions).2.precisions ↔
      precision ∈ registry.precisions ∨
        ∃ function ∈ functions, precision ∈ fieldPrecisions function.parameters := by
  induction functions generalizing registry with
  | nil => simp [emitFunctions]
  | cons function rest ih =>
      have first := mem_emitFields_registry (paramsId function) registry function.parameters
        precision
      simp only [emitFunctions, ih, List.mem_cons, exists_eq_or_imp]
      rw [← or_assoc]
      exact or_congr_left first

/-- The registry from which the float rules of a grammar are made. -/
def floatRegistry (functions : List FunctionSpec) : Registry :=
  (emitFunctions (Registry.collect functions) functions).2

theorem mem_collect {functions : List FunctionSpec} {precision : Precision} :
    precision ∈ (Registry.collect functions).precisions ↔
      ∃ function ∈ functions, precision ∈ fieldPrecisions function.parameters := by
  have fold (registry : Registry) :
      precision ∈ (functions.foldl (fun registry function =>
          registry.collectFields function.parameters) registry).precisions ↔
        precision ∈ registry.precisions ∨
          ∃ function ∈ functions, precision ∈ fieldPrecisions function.parameters := by
    induction functions generalizing registry with
    | nil => simp
    | cons function rest ih =>
        have first := mem_collectFields registry function.parameters precision
        simp only [List.foldl_cons, ih, List.mem_cons, exists_eq_or_imp]
        rw [first, or_assoc]
  have none : precision ∉ Registry.empty.precisions := List.not_mem_nil
  rw [Registry.collect, fold, or_iff_right none]

theorem mem_floatRegistry {functions : List FunctionSpec} {precision : Precision} :
    precision ∈ (floatRegistry functions).precisions ↔
      ∃ function ∈ functions, precision ∈ fieldPrecisions function.parameters := by
  rw [floatRegistry, mem_emitFunctions_registry, mem_collect, or_self]

/-- All rules but the root one: calls, then nodes, then floats. -/
theorem emittedRules_eq (functions : List FunctionSpec) :
    emittedRules functions =
      functions.map callRule ++ (functions.flatMap functionNodes).map Node.rule ++
        (floatRegistry functions).rules := by
  simp only [emittedRules, emitFunctions_calls, emitFunctions_params, floatRegistry]

theorem Registry.mem_rules {registry : Registry} {rule : Rule} :
    rule ∈ registry.rules ↔
      (∃ precision ∈ registry.precisions, rule = ⟨floatId precision, .fixedPoint precision⟩ ∨
        rule = ⟨fractionId precision, .fraction precision⟩) ∨
      registry.precisions ≠ [] ∧ rule = ⟨integerPartId, .integerPart⟩ := by
  simp only [Registry.rules, Registry.isEmpty, List.isEmpty_iff]
  split
  · rename_i empty
    simp [empty]
  · rename_i some
    simp [some, Registry.precisionRules]

theorem mem_emittedRules {functions : List FunctionSpec} {rule : Rule} :
    rule ∈ emittedRules functions ↔
      (∃ function ∈ functions, rule = callRule function) ∨
      (∃ node ∈ functions.flatMap functionNodes, rule = node.rule) ∨
      rule ∈ (floatRegistry functions).rules := by
  rw [emittedRules_eq, List.mem_append, List.mem_append, List.mem_map, List.mem_map, or_assoc]
  simp only [eq_comm]

theorem call_emitted {functions : List FunctionSpec} {function : FunctionSpec}
    (found : function ∈ functions) : callRule function ∈ emittedRules functions :=
  mem_emittedRules.mpr (.inl ⟨function, found, rfl⟩)

theorem node_emitted {functions : List FunctionSpec} {node : Node}
    (known : node ∈ functions.flatMap functionNodes) : node.rule ∈ emittedRules functions :=
  mem_emittedRules.mpr (.inr (.inl ⟨node, known, rfl⟩))

theorem float_emitted {functions : List FunctionSpec} {rule : Rule}
    (float : rule ∈ (floatRegistry functions).rules) : rule ∈ emittedRules functions :=
  mem_emittedRules.mpr (.inr (.inr float))

end ToolGrammar.Grammar
