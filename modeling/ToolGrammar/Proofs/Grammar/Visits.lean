import ToolGrammar.Proofs.Grammar.Nodes

/-!
Nodes by the routes to them. A route says at each step into which part of a node it goes, so the
routes of a shape are ordered like its parts: a node before what is within it, and one part before
the next. In this order the nodes are listed.
-/
namespace ToolGrammar.Grammar

open Schema

/-- The parts right below a node, each with the name of the path to it. -/
def Node.children (node : Node) : List (RuleId × Shape) :=
  match node.type with
  | .enum _ => []
  | .array element => [(node.id.element, element)]
  | .object fields => fields.map fun field => (node.id.child field.1, field.2)

theorem Node.mem_children_iff {node : Node} {id : RuleId} {shape : Shape} :
    (id, shape) ∈ node.children ↔ Child node id shape := by
  obtain ⟨own, type⟩ := node
  constructor
  · intro member
    cases type with
    | enum values => cases member
    | array element =>
        cases List.mem_singleton.mp member
        exact .element rfl
    | object fields =>
        obtain ⟨field, found, same⟩ := List.mem_map.mp member
        cases same
        exact .field rfl found
  · intro child
    cases child with
    | element type =>
        cases type
        exact List.mem_singleton.mpr rfl
    | field type member =>
        cases type
        exact List.mem_map.mpr ⟨_, member, rfl⟩

/-- The node of the shape itself, if it has a rule of its own. -/
def node? (id : RuleId) : Shape → Option Node
  | .enum values => some ⟨id, .enum values⟩
  | .array element => some ⟨id, .array element⟩
  | .object fields => some ⟨id, .object fields⟩
  | .string | .boolean | .number | .fixed _ => none

theorem node?_eq_some {id : RuleId} {shape : Shape} {node : Node} :
    node? id shape = some node ↔ node.id = id ∧ shape = node.type.shape := by
  obtain ⟨own, type⟩ := node
  cases shape <;> cases type <;> simp [node?, Composite.shape, eq_comm]

@[simp] theorem node?_shape (node : Node) : node? node.id node.type.shape = some node :=
  node?_eq_some.mpr ⟨rfl, rfl⟩

/-- The node at the end of a route that starts at the shape. -/
def nodeAt? (id : RuleId) (shape : Shape) : List Nat → Option Node
  | [] => node? id shape
  | position :: route => do
      let node ← node? id shape
      let (childId, child) ← node.children[position]?
      nodeAt? childId child route

theorem nodeAt?_of_token {id : RuleId} {shape : Shape} (token : node? id shape = none)
    (route : List Nat) : nodeAt? id shape route = none := by
  cases route <;> simp [nodeAt?, token]

theorem nodeAt?_cons {id : RuleId} {shape : Shape} {position : Nat} {route : List Nat}
    {node : Node} :
    nodeAt? id shape (position :: route) = some node ↔
      ∃ top, node? id shape = some top ∧ ∃ child, top.children[position]? = some child ∧
        nodeAt? child.1 child.2 route = some node := by
  simp [nodeAt?, Option.bind_eq_some_iff]

/-- A route to a node goes through the parent of the node. -/
theorem nodeAt?_snoc {id : RuleId} {shape : Shape} {route : List Nat} {position : Nat}
    {node : Node} :
    nodeAt? id shape (route ++ [position]) = some node ↔
      ∃ parent, nodeAt? id shape route = some parent ∧
        parent.children[position]? = some (node.id, node.type.shape) := by
  induction route generalizing id shape with
  | nil =>
      rw [List.nil_append, nodeAt?_cons]
      refine exists_congr fun parent => and_congr_right fun _ => ?_
      constructor
      · intro within
        obtain ⟨⟨childId, child⟩, found, own⟩ := within
        obtain ⟨rfl, rfl⟩ := node?_eq_some.mp own
        exact found
      · exact fun found => ⟨_, found, node?_shape node⟩
  | cons first route ih =>
      rw [List.cons_append, nodeAt?_cons]
      simp only [nodeAt?_cons, ih]
      constructor
      · intro within
        obtain ⟨top, own, child, found, parent, reached, last⟩ := within
        exact ⟨parent, ⟨top, own, child, found, reached⟩, last⟩
      · intro within
        obtain ⟨parent, ⟨top, own, child, found, reached⟩, last⟩ := within
        exact ⟨top, own, child, found, parent, reached, last⟩

mutual

/-- What holds of tokens, and of a node whenever it holds of its children, holds of all shapes. -/
@[elab_as_elim]
theorem shape_induction {motive : RuleId → Shape → Prop} (id : RuleId) (shape : Shape)
    (token : ∀ id shape, node? id shape = none → motive id shape)
    (step : ∀ node : Node, (∀ child ∈ node.children, motive child.1 child.2) →
      motive node.id node.type.shape) : motive id shape := by
  cases shape with
  | string | boolean | number | fixed => exact token _ _ rfl
  | enum values => exact step ⟨id, .enum values⟩ (List.forall_mem_nil _)
  | array element =>
      have inner := shape_induction id.element element token step
      exact step ⟨id, .array element⟩ (List.forall_mem_singleton.mpr inner)
  | object fields =>
      have inner := fields_induction id fields token step
      exact step ⟨id, .object fields⟩ (List.forall_mem_map.mpr inner)
termination_by structural shape

theorem fields_induction {motive : RuleId → Shape → Prop} (id : RuleId)
    (fields : List (String × Shape))
    (token : ∀ id shape, node? id shape = none → motive id shape)
    (step : ∀ node : Node, (∀ child ∈ node.children, motive child.1 child.2) →
      motive node.id node.type.shape) :
    ∀ field ∈ fields, motive (id.child field.1) field.2 := by
  match fields with
  | [] => exact List.forall_mem_nil _
  | (name, shape) :: rest =>
      have first := shape_induction (id.child name) shape token step
      have later := fields_induction id rest token step
      exact List.forall_mem_cons.mpr ⟨first, later⟩
termination_by structural fields

end

/-- A route before those that continue it, and one part before the next. -/
def Precedes (route other : List Nat) : Prop :=
  List.Lex (· < ·) route other

theorem precedes_cons_cons {position other : Nat} {route more : List Nat} :
    Precedes (position :: route) (other :: more) ↔
      position < other ∨ position = other ∧ Precedes route more :=
  List.cons_lt_cons_iff

theorem precedes_append {route : List Nat} {position : Nat} {more : List Nat} :
    Precedes route (route ++ position :: more) := by
  induction route with
  | nil => exact .nil
  | cons first route ih => exact precedes_cons_cons.mpr (.inr ⟨rfl, ih⟩)

/-- What stands between a route and a continuation of it continues the route too. -/
theorem isPrefix_of_between {route other more : List Nat} (after : Precedes route other)
    (before : Precedes other (route ++ more)) : route <+: other := by
  induction route generalizing other with
  | nil => exact List.nil_prefix
  | cons first route ih =>
      cases other with
      | nil => cases after
      | cons second other =>
          have lower := precedes_cons_cons.mp after
          have upper := precedes_cons_cons.mp before
          have same : first = second := by omega
          have later : Precedes route other := lower.resolve_left (by omega) |>.2
          have sooner : Precedes other (route ++ more) := upper.resolve_left (by omega) |>.2
          exact List.cons_prefix_cons.mpr ⟨same, ih later sooner⟩

theorem Precedes.asymm {route other : List Nat} (before : Precedes route other) :
    ¬ Precedes other route :=
  List.lt_asymm before

theorem not_isPrefix_of_precedes {route other : List Nat} (before : Precedes other route) :
    ¬ route <+: other := by
  intro continued
  obtain ⟨more, rfl⟩ := continued
  cases more with
  | nil =>
      rw [List.append_nil] at before
      exact before.asymm before
  | cons position more => exact before.asymm precedes_append

/-- A node, and the route to it. -/
abbrev Visit := List Nat × Node

/-- The visits of parts that are numbered from the position on. -/
def numbered (position : Nat) : List (List Visit) → List Visit
  | [] => []
  | visits :: rest =>
      visits.map (fun visit => (position :: visit.1, visit.2)) ++ numbered (position + 1) rest

theorem mem_numbered {position : Nat} {blocks : List (List Visit)} {visit : Visit} :
    visit ∈ numbered position blocks ↔
      ∃ index block route, blocks[index]? = some block ∧ (route, visit.2) ∈ block ∧
        visit.1 = (position + index) :: route := by
  induction blocks generalizing position with
  | nil => simp [numbered]
  | cons first rest ih =>
      rw [numbered, List.mem_append, ih, List.mem_map]
      constructor
      · intro either
        rcases either with ⟨own, found, rfl⟩ | ⟨index, block, route, listed, found, same⟩
        · exact ⟨0, first, own.1, rfl, found, rfl⟩
        · exact ⟨index + 1, block, route, listed, found, by rw [same]; congr 1; omega⟩
      · intro within
        obtain ⟨index, block, route, listed, found, same⟩ := within
        cases index with
        | zero =>
            cases listed
            exact .inl ⟨_, found, Prod.ext same.symm rfl⟩
        | succ index =>
            exact .inr ⟨index, block, route, listed, found, by rw [same]; congr 1; omega⟩

theorem map_snd_numbered (position : Nat) (blocks : List (List Visit)) :
    (numbered position blocks).map (·.2) = blocks.flatMap (·.map (·.2)) := by
  induction blocks generalizing position with
  | nil => rfl
  | cons first rest ih =>
      simp only [numbered, List.map_append, List.map_map, List.flatMap_cons, ih]
      rfl

/-- Routes in their order, none twice. -/
def Ascending (visits : List Visit) : Prop :=
  visits.Pairwise fun visit other => Precedes visit.1 other.1

theorem ascending_numbered {position : Nat} {blocks : List (List Visit)}
    (each : ∀ block ∈ blocks, Ascending block) : Ascending (numbered position blocks) := by
  induction blocks generalizing position with
  | nil => exact .nil
  | cons first rest ih =>
      obtain ⟨own, others⟩ := List.forall_mem_cons.mp each
      refine List.pairwise_append.mpr ⟨?_, ih others, fun visit found other later => ?_⟩
      · exact List.pairwise_map.mpr
          (own.imp fun less => precedes_cons_cons.mpr (.inr ⟨rfl, less⟩))
      · obtain ⟨inner, _, rfl⟩ := List.mem_map.mp found
        obtain ⟨index, _, route, _, _, same⟩ := mem_numbered.mp later
        rw [same]
        exact precedes_cons_cons.mpr (.inl (by omega))

mutual

/-- The nodes of a shape in depth-first order, each with its route. -/
def visits (id : RuleId) : Shape → List Visit
  | .enum values => [([], ⟨id, .enum values⟩)]
  | .array element => ([], ⟨id, .array element⟩) :: numbered 0 [visits id.element element]
  | .object fields => ([], ⟨id, .object fields⟩) :: numbered 0 (fieldVisits id fields)
  | .string | .boolean | .number | .fixed _ => []
termination_by structural shape => shape

def fieldVisits (id : RuleId) : List (String × Shape) → List (List Visit)
  | [] => []
  | (name, shape) :: rest => visits (id.child name) shape :: fieldVisits id rest
termination_by structural fields => fields

end

theorem visits_of_token {id : RuleId} {shape : Shape} (token : node? id shape = none) :
    visits id shape = [] := by
  cases shape with
  | string | boolean | number | fixed => rfl
  | enum | array | object => cases token

theorem fieldVisits_eq (id : RuleId) (fields : List (String × Shape)) :
    fieldVisits id fields = fields.map fun field => visits (id.child field.1) field.2 := by
  induction fields with
  | nil => rfl
  | cons field rest ih => rw [fieldVisits, ih, List.map_cons]

/-- A node comes first, then its children in their order, each with all that is within it. -/
theorem visits_node (node : Node) :
    visits node.id node.type.shape =
      ([], node) :: numbered 0 (node.children.map fun child => visits child.1 child.2) := by
  obtain ⟨id, type⟩ := node
  cases type with
  | enum | array => rfl
  | object fields =>
      simp only [Composite.shape, visits, fieldVisits_eq, Node.children, List.map_map]
      rfl

theorem fieldNodes_eq (id : RuleId) (fields : List (String × Shape)) :
    fieldNodes id fields = fields.flatMap fun field => nodes (id.child field.1) field.2 := by
  induction fields with
  | nil => rfl
  | cons field rest ih => rw [fieldNodes, ih, List.flatMap_cons]

theorem nodes_node (node : Node) :
    nodes node.id node.type.shape =
      node :: node.children.flatMap fun child => nodes child.1 child.2 := by
  obtain ⟨id, type⟩ := node
  cases type with
  | enum => rfl
  | array => simp [Composite.shape, nodes, Node.children]
  | object fields =>
      simp [Composite.shape, nodes, fieldNodes_eq, Node.children, List.flatMap_map]

/-- The visits go through the nodes in the order in which their rules are emitted. -/
theorem map_snd_visits (id : RuleId) (shape : Shape) :
    (visits id shape).map (·.2) = nodes id shape := by
  induction id, shape using shape_induction with
  | token id shape token =>
      rw [visits_of_token token]
      cases shape with
      | string | boolean | number | fixed => rfl
      | enum | array | object => cases token
  | step node ih =>
      rw [visits_node, nodes_node, List.map_cons, map_snd_numbered, List.flatMap_map,
        List.flatMap_def, List.flatMap_def, List.map_congr_left ih]

/-- Each route that ends at a node is visited, and no other. -/
theorem mem_visits {id : RuleId} {shape : Shape} {visit : Visit} :
    visit ∈ visits id shape ↔ nodeAt? id shape visit.1 = some visit.2 := by
  induction id, shape using shape_induction generalizing visit with
  | token id shape token => simp [visits_of_token token, nodeAt?_of_token token]
  | step node ih =>
      obtain ⟨route, other⟩ := visit
      rw [visits_node, List.mem_cons, mem_numbered]
      cases route with
      | nil => simp [nodeAt?, eq_comm]
      | cons position route =>
          simp only [nodeAt?_cons, node?_shape, Option.some.injEq, exists_eq_left', Prod.mk.injEq,
            reduceCtorEq, false_and, false_or, List.getElem?_map, Option.map_eq_some_iff,
            List.cons.injEq, Nat.zero_add]
          constructor
          · intro within
            obtain ⟨index, _, inner, ⟨child, listed, rfl⟩, found, rfl, rfl⟩ := within
            exact ⟨child, listed, (ih child (List.mem_of_getElem? listed)).mp found⟩
          · intro within
            obtain ⟨child, listed, reached⟩ := within
            exact ⟨position, _, route, ⟨child, listed, rfl⟩,
              (ih child (List.mem_of_getElem? listed)).mpr reached, rfl, rfl⟩

theorem ascending_visits (id : RuleId) (shape : Shape) : Ascending (visits id shape) := by
  induction id, shape using shape_induction with
  | token id shape token =>
      rw [visits_of_token token]
      exact .nil
  | step node ih =>
      rw [visits_node]
      refine List.pairwise_cons.mpr ⟨fun visit found => ?_, ascending_numbered ?_⟩
      · obtain ⟨index, _, route, _, _, same⟩ := mem_numbered.mp found
        rw [same]
        exact List.Lex.nil
      · exact List.forall_mem_map.mpr ih

end ToolGrammar.Grammar
