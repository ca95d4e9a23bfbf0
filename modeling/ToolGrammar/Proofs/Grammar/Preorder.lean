import ToolGrammar.Proofs.Grammar.References
import ToolGrammar.Proofs.Grammar.Visits

namespace ToolGrammar.Grammar

open Schema Gbnf

/-- All nodes that a shape has at the path, in depth-first order. -/
structure Preorder (id : RuleId) (shape : Shape) (listing : List Visit) : Prop where
  reached : ∀ visit, visit ∈ listing ↔ nodeAt? id shape visit.1 = some visit.2
  ascending : Ascending listing

theorem preorder_visits (id : RuleId) (shape : Shape) : Preorder id shape (visits id shape) :=
  ⟨fun _ => mem_visits, ascending_visits id shape⟩

/-- Of what follows a visit, the routes that continue its own come first. -/
theorem Ascending.exists_block {visit : Visit} {after : List Visit}
    (ascending : Ascending (visit :: after)) :
    ∃ below rest, after = below ++ rest ∧ (∀ other ∈ below, visit.1 <+: other.1) ∧
      ∀ other ∈ rest, ¬ visit.1 <+: other.1 := by
  obtain ⟨first, sorted⟩ := List.pairwise_cons.mp ascending
  clear ascending
  induction after with
  | nil => exact ⟨[], [], rfl, List.forall_mem_nil _, List.forall_mem_nil _⟩
  | cons next after ih =>
      obtain ⟨own, others⟩ := List.forall_mem_cons.mp first
      obtain ⟨nextFirst, tail⟩ := List.pairwise_cons.mp sorted
      by_cases within : visit.1 <+: next.1
      · obtain ⟨below, rest, rfl, inside, outside⟩ := ih others tail
        exact ⟨next :: below, rest, rfl, List.forall_mem_cons.mpr ⟨within, inside⟩, outside⟩
      · refine ⟨[], next :: after, rfl, List.forall_mem_nil _,
          List.forall_mem_cons.mpr ⟨within, fun other later continued => ?_⟩⟩
        obtain ⟨more, same⟩ := continued
        have precedes := nextFirst other later
        rw [← same] at precedes
        exact within (isPrefix_of_between own precedes)

theorem Ascending.mem_before {before after : List Visit} {visit other : Visit}
    (ascending : Ascending (before ++ visit :: after)) (member : other ∈ before ++ visit :: after)
    (sooner : Precedes other.1 visit.1) : other ∈ before := by
  obtain ⟨_, tail, _⟩ := List.pairwise_append.mp ascending
  rcases List.mem_append.mp member with earlier | later
  · exact earlier
  · rcases List.mem_cons.mp later with rfl | last
    · exact absurd sooner sooner.asymm
    · exact absurd ((List.pairwise_cons.mp tail).1 other last) sooner.asymm

namespace Preorder

variable {id : RuleId} {shape : Shape} {before after : List Visit} {visit : Visit}

theorem exists_block (preorder : Preorder id shape (before ++ visit :: after)) :
    ∃ below rest, after = below ++ rest ∧ (∀ other ∈ below, visit.1 <+: other.1) ∧
      ∀ other ∈ before ++ rest, ¬ visit.1 <+: other.1 := by
  obtain ⟨_, tail, cross⟩ := List.pairwise_append.mp preorder.ascending
  obtain ⟨below, rest, whole, inside, outside⟩ := Ascending.exists_block tail
  refine ⟨below, rest, whole, inside, fun other found => ?_⟩
  rcases List.mem_append.mp found with earlier | later
  · exact not_isPrefix_of_precedes (cross other earlier visit List.mem_cons_self)
  · exact outside other later

/-- Every visit but the first has that of its parent before it. -/
theorem exists_parent (preorder : Preorder id shape (before ++ visit :: after))
    (inner : before ≠ []) :
    ∃ parent ∈ before, ∃ position, visit.1 = parent.1 ++ [position] ∧
      parent.2.children[position]? = some (visit.2.id, visit.2.type.shape) := by
  obtain ⟨_, _, cross⟩ := List.pairwise_append.mp preorder.ascending
  obtain ⟨least, others, rfl⟩ := List.exists_cons_of_ne_nil inner
  have preceded := cross least List.mem_cons_self visit List.mem_cons_self
  have reached := (preorder.reached visit).mp (by simp)
  rcases List.eq_nil_or_concat' visit.1 with top | ⟨route, position, whole⟩
  · rw [top] at preceded
    exact absurd preceded (List.not_lt_nil _)
  · rw [whole] at reached
    obtain ⟨parent, upper, child⟩ := nodeAt?_snoc.mp reached
    have listed := (preorder.reached (route, parent)).mpr upper
    have sooner : Precedes route visit.1 := whole ▸ precedes_append
    exact ⟨(route, parent), preorder.ascending.mem_before listed sooner, position, whole, child⟩

end Preorder

/-- One rule refers to another if its body, read as a grammar, does so by name. -/
def Rule.RefersTo (rule other : Rule) : Prop :=
  other.id.text ∈ rule.production.references

theorem Node.mem_references_iff {node : Node} {name : String} (visible : name ≠ space) :
    name ∈ node.rule.production.references ↔
      ∃ child ∈ node.children, (reference child.1 child.2).text = name := by
  rw [Rule.mem_references_iff visible]
  constructor
  · intro mentioned
    obtain ⟨mention, member, named⟩ := mentioned
    obtain ⟨id, shape, child, rfl⟩ := mem_mentions_node.mp member
    exact ⟨(id, shape), Node.mem_children_iff.mpr child, named⟩
  · intro within
    obtain ⟨⟨id, shape⟩, member, named⟩ := within
    exact ⟨_, mem_mentions_node.mpr ⟨id, shape, Node.mem_children_iff.mp member, rfl⟩, named⟩

/-- A name that goes on from another one after a hyphen. -/
def RuleId.Extends (id other : RuleId) : Prop :=
  ∃ tail, id.text.toList = other.text.toList ++ '-' :: tail

theorem Child.extends {node : Node} {id : RuleId} {shape : Shape} (child : Child node id shape) :
    id.Extends node.id := by
  cases child with
  | element => exact ⟨"element".toList, by simp [RuleId.element]⟩
  | @field _ name => exact ⟨(normalize name).toList, by simp [RuleId.child]⟩

theorem RuleId.Extends.trans {id other third : RuleId} (longer : id.Extends other)
    (longest : other.Extends third) : id.Extends third := by
  obtain ⟨tail, whole⟩ := longer
  obtain ⟨middle, inner⟩ := longest
  exact ⟨middle ++ '-' :: tail, by simp [whole, inner]⟩

theorem extends_of_nodeAt? {id : RuleId} {shape : Shape} {route : List Nat} {node : Node}
    (reached : nodeAt? id shape route = some node) (inner : route ≠ []) : node.id.Extends id := by
  induction route generalizing id shape with
  | nil => exact absurd rfl inner
  | cons position route ih =>
      obtain ⟨top, own, ⟨childId, child⟩, found, within⟩ := nodeAt?_cons.mp reached
      obtain ⟨rfl, rfl⟩ := node?_eq_some.mp own
      have first := (Node.mem_children_iff.mp (List.mem_of_getElem? found)).extends
      cases route with
      | nil =>
          obtain ⟨rfl, rfl⟩ := node?_eq_some.mp within
          exact first
      | cons next rest => exact (ih within (List.cons_ne_nil _ _)).trans first

/-- No token of the primitive fragment has a hyphen in its name. -/
theorem RuleId.Extends.not_mem_primitiveTokens {id other : RuleId} (longer : id.Extends other) :
    id.text ∉ primitiveTokens := by
  have each : ∀ token ∈ primitiveTokens, '-' ∉ token.toList := by decide
  obtain ⟨tail, whole⟩ := longer
  exact fun token => each _ token (by simp [whole])

/-- The name of a float's token has one hyphen, so it goes on from no other name than `float`. -/
theorem RuleId.Extends.ne_floatId {id other : RuleId} (longer : id.Extends other)
    (apart : other.text ≠ "float") (precision : Precision) : id ≠ floatId precision := by
  intro same
  obtain ⟨tail, whole⟩ := longer
  have places : '-' ∉ (toString precision.digits).toList :=
    fun member => absurd (isDigit_of_mem_toString member) (by decide)
  have stem : '-' ∉ "float".toList := by decide
  have token : (floatId precision).text.toList =
      "float".toList ++ '-' :: (toString precision.digits).toList := by simp [floatId]
  rw [same, token, List.append_cons_inj_of_notMem stem places] at whole
  exact apart (String.toList_inj.mp whole.1.symm)

/-- Whatever refers by a name that is no token of the fragment refers to a node or to a float. -/
theorem reference_cases {id : RuleId} {shape : Shape} {name : String}
    (own : name ∉ primitiveTokens) (named : (reference id shape).text = name) :
    (∃ node, node? id shape = some node ∧ node.id.text = name) ∨
      ∃ precision, shape = .fixed precision ∧ (floatId precision).text = name := by
  cases shape with
  | string | boolean | number =>
      subst named
      exact absurd (by simp [reference, Reference.text, primitiveTokens]) own
  | fixed precision => exact .inr ⟨precision, rfl, named⟩
  | enum | array | object => exact .inl ⟨_, rfl, named⟩

theorem ne_space {name : String} (own : name ∉ primitiveTokens) : name ≠ space := by
  intro blank
  subst blank
  exact own (by simp [primitiveTokens])

theorem refersTo_of_child {parent node : Node}
    (child : (node.id, node.type.shape) ∈ parent.children) (own : node.id.text ∉ primitiveTokens) :
    parent.rule.RefersTo node.rule := by
  refine (Node.mem_references_iff (ne_space own)).mpr ⟨_, child, ?_⟩
  rw [reference_composite]
  rfl

/-- A name of its own stands for the node wherever it is used, unless it is the name of a float's
token too. -/
theorem Preorder.route_of_refersTo {id : RuleId} {shape : Shape} {listing : List Visit}
    {visit other : Visit} (preorder : Preorder id shape listing)
    (distinct : (listing.map (·.2.id)).Nodup) (found : visit ∈ listing)
    (otherFound : other ∈ listing) (own : visit.2.id.text ∉ primitiveTokens)
    (refers : other.2.rule.RefersTo visit.2.rule) :
    (∃ position, visit.1 = other.1 ++ [position]) ∨
      ∃ precision, visit.2.id = floatId precision ∧
        ∃ child ∈ other.2.children, child.2 = .fixed precision := by
  obtain ⟨⟨childId, child⟩, inside, named⟩ := (Node.mem_references_iff (ne_space own)).mp refers
  rcases reference_cases own named with ⟨node, self, same⟩ | ⟨precision, fixed, same⟩
  · obtain ⟨rfl, rfl⟩ := node?_eq_some.mp self
    obtain ⟨position, listed⟩ := List.mem_iff_getElem?.mp inside
    have reached := (preorder.reached other).mp otherFound
    have below := (preorder.reached (other.1 ++ [position], node)).mpr
      (nodeAt?_snoc.mpr ⟨other.2, reached, listed⟩)
    have equal := List.inj_on_of_nodup_map distinct below found (RuleId.text_inj.mp same)
    exact .inl ⟨position, (congrArg Prod.fst equal).symm⟩
  · exact .inr ⟨precision, (RuleId.text_inj.mp same).symm, _, inside, fixed⟩

/-- How a visit stands among those before it and those after it, where `id` names the path to them
all. -/
structure Placed (id : RuleId) (before : List Visit) (visit : Visit) (after : List Visit) :
    Prop where
  /-- What is within the node follows it in one block. -/
  block : ∃ below rest, after = below ++ rest ∧ (∀ other ∈ below, visit.1 <+: other.1) ∧
    ∀ other ∈ before ++ rest, ¬ visit.1 <+: other.1
  /-- The parent comes before, and nothing but the parent refers to a node with a name of its own;
  only right below a path named `float` can it have the name of a float's token. -/
  parent : before ≠ [] → ∃ parent ∈ before, (∃ position, visit.1 = parent.1 ++ [position]) ∧
    parent.2.rule.RefersTo visit.2.rule ∧
    (((before ++ visit :: after).map (·.2.id)).Nodup →
      ∀ other ∈ before ++ visit :: after, other.2.rule.RefersTo visit.2.rule → other = parent ∨
        id.text = "float" ∧ ∃ precision, visit.2.id = floatId precision ∧
          ∃ child ∈ other.2.children, child.2 = .fixed precision)

theorem Preorder.placed {id : RuleId} {shape : Shape} {before after : List Visit} {visit : Visit}
    (preorder : Preorder id shape (before ++ visit :: after)) : Placed id before visit after := by
  refine ⟨preorder.exists_block, fun inner => ?_⟩
  obtain ⟨parent, earlier, position, whole, child⟩ := preorder.exists_parent inner
  have found : visit ∈ before ++ visit :: after := by simp
  have longer : visit.2.id.Extends id :=
    extends_of_nodeAt? ((preorder.reached visit).mp found) (by simp [whole])
  refine ⟨parent, earlier, ⟨position, whole⟩,
    refersTo_of_child (List.mem_of_getElem? child) longer.not_mem_primitiveTokens,
    fun distinct other otherFound refers => ?_⟩
  have either := preorder.route_of_refersTo distinct found otherFound
    longer.not_mem_primitiveTokens refers
  rcases either with ⟨_, same⟩ | ⟨precision, named, mentioned⟩
  · have routes : other.1 = parent.1 := by
      rw [whole] at same
      exact (List.append_inj' same rfl).1.symm
    have left := (preorder.reached other).mp otherFound
    have right := (preorder.reached parent).mp (List.mem_append_left _ earlier)
    rw [routes, right] at left
    exact .inl (Prod.ext routes (Option.some.inj left).symm)
  · refine .inr ⟨?_, precision, named, mentioned⟩
    by_contra apart
    exact longer.ne_floatId apart precision named

/-- Objects, arrays and enumerations. -/
def IsComposite (parameter : Parameter) : Prop :=
  parameter.kind = .object ∨ parameter.kind = .array ∨ parameter.kind = .enum

theorem reference_eq_rule_iff (id : RuleId) {parameter : Parameter} :
    reference id parameter.shape = .rule id ↔ IsComposite parameter := by
  cases parameter with
  | string | boolean | integer | enum | array | object =>
      simp [IsComposite, Parameter.kind, Parameter.shape, reference]
  | float note precision =>
      cases precision <;> simp [IsComposite, Parameter.kind, Parameter.shape, reference]

/-- As texts the two can be told apart where the path has not the name of a token. -/
theorem reference_text_eq_iff {id : RuleId} {parameter : Parameter}
    (own : id.text ∉ [stringToken, numberToken, booleanToken])
    (apart : ∀ precision, id ≠ floatId precision) :
    (reference id parameter.shape).text = id.text ↔ IsComposite parameter := by
  rw [← reference_eq_rule_iff id]
  constructor
  · intro named
    cases shape : parameter.shape with
    | string | number | boolean =>
        rw [shape] at named
        exact absurd (by simp [← named, reference, Reference.text]) own
    | fixed precision =>
        rw [shape] at named
        exact absurd (RuleId.text_inj.mp named).symm (apart precision)
    | enum | array | object => rfl
  · intro same
    rw [same]
    rfl

theorem exists_node_of_reference {id name : RuleId} {shape : Shape}
    (refers : reference id shape = .rule name) : ∃ node, node? id shape = some node := by
  cases shape with
  | string | boolean | number | fixed => cases refers
  | enum | array | object => exact ⟨_, rfl⟩

/-- The rules of a parameter are those of its nodes in depth-first order, each before what is within
it. The parameter is referred to by the name of the path just if it is a node itself. -/
theorem emit_preorder (id : RuleId) (registry : Registry) (parameter : Parameter) :
    ∃ listing : List Visit, Preorder id parameter.shape listing ∧
      (emit id registry parameter).rules = listing.map (·.2.rule) ∧
      (∀ visit ∈ listing, ∀ name ≠ space, (name ∈ visit.2.rule.production.references ↔
        ∃ child ∈ visit.2.children, (reference child.1 child.2).text = name)) ∧
      (emit id registry parameter).reference = reference id parameter.shape ∧
      ((emit id registry parameter).reference = .rule id ↔ IsComposite parameter) ∧
      (id.text ∉ [stringToken, numberToken, booleanToken] →
        (∀ precision, id ≠ floatId precision) →
        ((emit id registry parameter).reference.text = id.text ↔ IsComposite parameter)) ∧
      (IsComposite parameter → ∃ node below, node.id = id ∧ listing = ([], node) :: below) ∧
      ∀ before visit after, listing = before ++ visit :: after → Placed id before visit after := by
  obtain ⟨referred, listed⟩ := emit_eq id registry parameter
  have preorder := preorder_visits id parameter.shape
  refine ⟨visits id parameter.shape, preorder, ?_, fun visit _ name visible => ?_, referred, ?_, ?_,
    ?_, fun before visit after whole => ?_⟩
  · rw [listed, ← map_snd_visits, List.map_map]
    rfl
  · exact Node.mem_references_iff visible
  · rw [referred]
    exact reference_eq_rule_iff id
  · intro own apart
    rw [referred]
    exact reference_text_eq_iff own apart
  · intro composite
    obtain ⟨node, self⟩ := exists_node_of_reference ((reference_eq_rule_iff id).mpr composite)
    obtain ⟨rfl, same⟩ := node?_eq_some.mp self
    exact ⟨node, _, rfl, same ▸ visits_node node⟩
  · exact (whole ▸ preorder : Preorder id parameter.shape (before ++ visit :: after)).placed

def invoice : Parameter :=
  .object .plain [
    ("lines", .array .plain (.object .plain [
      ("code", .string .plain),
      ("grade", .enum .plain ⟨["first", "second"], by decide, by decide⟩)])),
    ("total", .float .plain (some ⟨13, by decide, by decide⟩))]

/-- No two nodes have one name, and none has the name of a token. -/
theorem emit_preorder_invoice :
    ∃ listing : List Visit, (emit ⟨"invoice"⟩ .empty invoice).rules = listing.map (·.2.rule) ∧
      listing.map (·.2.id.text) =
        ["invoice", "invoice-lines", "invoice-lines-element", "invoice-lines-element-grade"] ∧
      ∀ before visit after, listing = before ++ visit :: after → before ≠ [] →
        ∃ parent ∈ before, parent.2.rule.RefersTo visit.2.rule ∧
          ∀ other ∈ listing, other.2.rule.RefersTo visit.2.rule → other = parent := by
  obtain ⟨listing, _, rules, _, _, _, _, _, placed⟩ :=
    emit_preorder ⟨"invoice"⟩ .empty invoice
  have names : listing.map (·.2.id.text) =
      ["invoice", "invoice-lines", "invoice-lines-element", "invoice-lines-element-grade"] := by
    have own := congrArg (List.map (·.id.text)) rules
    rw [List.map_map] at own
    refine Eq.trans own.symm ?_
    cbv
  have distinct : (listing.map (·.2.id)).Nodup := by
    refine List.Nodup.of_map RuleId.text ?_
    rw [List.map_map]
    exact (congrArg List.Nodup names).mpr (by decide)
  refine ⟨listing, rules, names, fun before visit after whole inner => ?_⟩
  obtain ⟨parent, earlier, _, refers, single⟩ := (placed before visit after whole).parent inner
  refine ⟨parent, earlier, refers, fun other found mentions => ?_⟩
  rcases single (whole ▸ distinct) other (whole ▸ found) mentions with same | ⟨named, _⟩
  · exact same
  · exact absurd named (by decide)

def tariff : Parameter :=
  .object .plain [
    ("10", .enum .plain ⟨["flat", "graded"], by decide, by decide⟩),
    ("rates", .array .plain (.float .plain (some ⟨10, by decide, by decide⟩)))]

/-- At a path named `float` two rules refer to one, and at a path named `string` the reference to a
string is the name of the path, though a string has no rule. -/
theorem token_names_shared :
    (∃ whole flat rates, (emit ⟨"float"⟩ .empty tariff).rules = [whole, flat, rates] ∧
      ([whole, flat, rates].map (·.id)).Nodup ∧
      whole.RefersTo flat ∧ rates.RefersTo flat) ∧
    (emit ⟨"string"⟩ .empty (.string .plain)).reference.text = "string" ∧
      ¬ IsComposite (.string .plain) := by
  refine ⟨⟨⟨⟨"float"⟩, .object [("10", .rule ⟨"float-10"⟩), ("rates", .rule ⟨"float-rates"⟩)]⟩,
    ⟨⟨"float-10"⟩, .enum ["flat", "graded"]⟩,
    ⟨⟨"float-rates"⟩, .array (.float ⟨10, by decide, by decide⟩)⟩, by cbv, by decide, ?_, ?_⟩,
    rfl, by simp [IsComposite, Parameter.kind]⟩
  · exact (Rule.mem_references_iff (by decide)).mpr ⟨_, List.mem_cons_self, rfl⟩
  · exact (Rule.mem_references_iff (by decide)).mpr ⟨_, List.mem_cons_self, by decide⟩

end ToolGrammar.Grammar
