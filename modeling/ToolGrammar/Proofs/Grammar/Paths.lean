import ToolGrammar.Grammar.RuleId

namespace ToolGrammar.Grammar

/-- A step from a node of a schema to one within it. -/
inductive PathStep where
  | field (name : String)
  | element
  deriving DecidableEq, Repr

/-- What the step adds to the path. -/
def PathStep.segment : PathStep → String
  | .field name => name
  | .element => "element"

/-- An underscore becomes a hyphen, and no letter before it has a part in the small forms after it,
nor the other way round. -/
theorem normalize_append (before after : String) :
    normalize (before ++ "_" ++ after) = normalize before ++ "-" ++ normalize after := by
  have hyphens : (before ++ "_" ++ after).map (fun c => if c = '_' then '-' else c) =
      before.map (fun c => if c = '_' then '-' else c) ++ String.singleton '-' ++
        after.map (fun c => if c = '_' then '-' else c) := by
    rw [← String.toList_inj]
    simp
  rw [normalize, hyphens, Text.lowercase_append Text.endsWords_hyphen]
  rfl

namespace RuleId

def follow (id : RuleId) : PathStep → RuleId
  | .field name => id.child name
  | .element => id.element

theorem child_of_small (id : RuleId) {name : String} (small : normalize name = name) :
    id.child name = ⟨id.text ++ ("-" ++ name)⟩ := by
  rw [child, small, String.append_assoc]

theorem params_eq_child (id : RuleId) : id.params = id.child "params" := by
  have small : normalize "params" = "params" := by cbv
  rw [id.child_of_small small]
  rfl

theorem follow_eq_child (id : RuleId) (step : PathStep) :
    id.follow step = id.child step.segment := by
  cases step with
  | field name => rfl
  | element =>
      have small : normalize "element" = "element" := by cbv
      rw [PathStep.segment, id.child_of_small small]
      rfl

theorem ofPath_append_singleton {segments : List String} (some : segments ≠ []) (name : String) :
    ofPath (segments ++ [name]) = (ofPath segments).child name := by
  have names : segments.map normalize ≠ [] := mt List.map_eq_nil_iff.mp some
  have longer := String.intercalate_append_of_ne_nil (s := "-") names
    (List.cons_ne_nil (normalize name) [])
  rw [ofPath, List.map_append, List.map_singleton, longer, String.intercalate_singleton]
  rfl

theorem params_function (function : String) :
    (RuleId.function function).params = ofPath [function, "params"] := by
  have some : [function] ≠ [] := List.cons_ne_nil _ _
  rw [params_eq_child, RuleId.function, ← ofPath_append_singleton some, List.singleton_append]

theorem foldl_follow {segments : List String} (some : segments ≠ []) (steps : List PathStep) :
    steps.foldl follow (ofPath segments) = ofPath (segments ++ steps.map PathStep.segment) := by
  induction steps generalizing segments with
  | nil => rw [List.foldl_nil, List.map_nil, List.append_nil]
  | cons step rest ih =>
      have longer : segments ++ [step.segment] ≠ [] := List.append_ne_nil_of_left_ne_nil some _
      rw [List.foldl_cons, follow_eq_child, ← ofPath_append_singleton some, ih longer,
        List.append_assoc, List.map_cons, List.singleton_append]

theorem ofPath_text (segments : List String) :
    (ofPath segments).text = normalize ("_".intercalate segments) := by
  induction segments with
  | nil => cbv
  | cons first rest ih =>
      cases rest with
      | nil => simp [ofPath]
      | cons next later =>
          rw [String.intercalate_cons_cons, normalize_append, ← ih, ofPath, List.map_cons,
            List.map_cons, String.intercalate_cons_cons]
          rfl

/-- A sigma that ends a segment is the final one, that of a segment of its own is not. -/
example : ofPath ["ΟΔΟΣ", "Σ"] = ⟨"οδος-σ"⟩ := by decide +kernel

end RuleId

/-- The name given step by step along a path of a function is the name of the whole path. It is the
small form of the path's text, so it is the same for every way to cut this text into segments. -/
theorem path_names_homomorphic :
    (∀ (function : String) (steps : List PathStep),
      steps.foldl RuleId.follow (RuleId.function function).params =
        RuleId.ofPath (function :: "params" :: steps.map PathStep.segment)) ∧
    (∀ segments, (RuleId.ofPath segments).text = normalize ("_".intercalate segments)) ∧
    ∀ segments regrouped, "_".intercalate segments = "_".intercalate regrouped →
      RuleId.ofPath segments = RuleId.ofPath regrouped := by
  refine ⟨fun function steps => ?_, RuleId.ofPath_text, fun segments regrouped same => ?_⟩
  · rw [RuleId.params_function, RuleId.foldl_follow (List.cons_ne_nil _ _), List.cons_append,
      List.singleton_append]
  · have texts : (RuleId.ofPath segments).text = (RuleId.ofPath regrouped).text := by
      rw [RuleId.ofPath_text, RuleId.ofPath_text, same]
    exact congrArg RuleId.mk texts

theorem path_names_homomorphic_sigma :
    "_".intercalate ["ΟΔΟΣ", "Σ_Α"] = "_".intercalate ["ΟΔΟΣ_Σ", "Α"] ∧
      RuleId.ofPath ["ΟΔΟΣ", "Σ_Α"] = RuleId.ofPath ["ΟΔΟΣ_Σ", "Α"] := by
  obtain ⟨_, _, regrouped⟩ := path_names_homomorphic
  have same : "_".intercalate ["ΟΔΟΣ", "Σ_Α"] = "_".intercalate ["ΟΔΟΣ_Σ", "Α"] := by simp
  exact ⟨same, regrouped _ _ same⟩

end ToolGrammar.Grammar
