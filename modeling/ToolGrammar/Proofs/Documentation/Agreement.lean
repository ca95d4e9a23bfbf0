import ToolGrammar.Documentation
import ToolGrammar.Proofs.Grammar.Outline

namespace ToolGrammar.Documentation

open Schema

/-- A heading starts with a name, and no name holds a space. -/
def nameOf (text : String) : String :=
  String.ofList (text.toList.takeWhile (· != ' '))

/-- The headings of parameters are on even levels from the second on; the heading after a line that
announces the elements of an array stands for the elements and not for a field. -/
def outlineFrom (announced : Bool) : List Entry → List (Nat × String)
  | [] => []
  | .blank :: rest => outlineFrom false rest
  | .line level text :: rest =>
      if level < 2 then outlineFrom false rest
      else if level % 2 = 1 then outlineFrom (text == "Element Type:") rest
      else if announced then outlineFrom false rest
      else (level / 2 - 1, nameOf text) :: outlineFrom false rest

/-- The fields that the entries of a function list, each with its depth. -/
def outline (entries : List Entry) : List (Nat × String) :=
  outlineFrom false entries

/-- The text of a line that is not indented. -/
def title? : Entry → Option String
  | .line 0 text => some text
  | _ => none

def headings (entries : List Entry) : List String :=
  entries.filterMap title?

theorem nameOf_heading {name : String} (wellFormed : isFieldName name = true)
    (parameter : Parameter) : nameOf (heading name parameter) = name := by
  have inside := (Grammar.isFieldName_iff.mp wellFormed).2
  have solid : ∀ c ∈ name.toList, (c != ' ') = true := by
    intro c member
    have letter := inside c member
    refine bne_iff_ne.mpr ?_
    rintro rfl
    revert letter
    decide
  obtain ⟨rest, split⟩ : ∃ rest, (heading name parameter).toList = name.toList ++ ' ' :: rest := by
    have blank : (" (" : String).toList = ' ' :: "(".toList := rfl
    exact ⟨_, by simp only [heading, String.toList_append, blank, List.append_assoc]; rfl⟩
  rw [nameOf, split, List.takeWhile_append_of_pos solid, List.takeWhile_cons_of_neg (by decide),
    List.append_nil, String.ofList_toList]

theorem outlineFrom_heading {announced : Bool} {name : String}
    (named : announced = false → isFieldName name = true) (depth : Nat) (parameter : Parameter)
    (rest : List Entry) :
    outlineFrom announced (.line (2 * depth + 2) (heading name parameter) :: rest) =
      (if announced then [] else [(depth, name)]) ++ outlineFrom false rest := by
  have indented : ¬ 2 * depth + 2 < 2 := by omega
  have even : ¬ (2 * depth + 2) % 2 = 1 := by omega
  have own : (2 * depth + 2) / 2 - 1 = depth := by omega
  rw [outlineFrom, if_neg indented, if_neg even, own]
  cases announced with
  | true => rfl
  | false => simp [nameOf_heading (named rfl)]

theorem outlineFrom_announcement (announced : Bool) (depth : Nat) (text : String)
    (rest : List Entry) :
    outlineFrom announced (.line (2 * depth + 2 + 1) text :: rest) =
      outlineFrom (text == "Element Type:") rest := by
  have indented : ¬ 2 * depth + 2 + 1 < 2 := by omega
  have odd : (2 * depth + 2 + 1) % 2 = 1 := by omega
  rw [outlineFrom, if_neg indented, if_pos odd]

mutual

/-- The entries of a parameter give its own name, unless they stand for elements, and then the
fields of its shape. -/
theorem outlineFrom_parameterEntries (announced : Bool) (name : String)
    (named : announced = false → isFieldName name = true) (depth : Nat) (parameter : Parameter)
    (valid : parameter.Valid) (rest : List Entry) :
    outlineFrom announced (parameterEntries (2 * depth + 2) name parameter ++ rest) =
      (if announced then [] else [(depth, name)]) ++
        (shapeOutline (depth + 1) parameter.shape ++ outlineFrom false rest) := by
  cases parameter with
  | string | boolean | integer | enum => exact outlineFrom_heading named depth _ rest
  | float note precision => cases precision <;> exact outlineFrom_heading named depth _ rest
  | array note element =>
      rw [Parameter.Valid] at valid
      -- What follows the announcement is not a field, whatever its name.
      have inner := outlineFrom_parameterEntries true "item" nofun (depth + 1) element valid rest
      have announces : ("Element Type:" == "Element Type:") = true := by decide
      simp only [parameterEntries, List.cons_append, outlineFrom_heading named,
        outlineFrom_announcement, announces]
      exact congrArg _ inner
  | object note fields =>
      rw [Parameter.Valid] at valid
      have inner := outlineFrom_fieldEntries (depth + 1) fields valid.2 rest
      have silent : ("Structure:" == "Element Type:") = false := by decide
      simp only [parameterEntries, List.cons_append, outlineFrom_heading named,
        outlineFrom_announcement, silent]
      exact congrArg _ inner
termination_by structural parameter

theorem outlineFrom_fieldEntries (depth : Nat) (fields : Fields) (valid : FieldsValid fields)
    (rest : List Entry) :
    outlineFrom false (fieldEntries (2 * depth + 2) fields ++ rest) =
      fieldsOutline depth (fieldShapes fields) ++ outlineFrom false rest := by
  match fields with
  | [] => rfl
  | (name, parameter) :: others =>
      rw [FieldsValid] at valid
      obtain ⟨wellFormed, _, own, later⟩ := valid
      have first := outlineFrom_parameterEntries false name (fun _ => wellFormed) depth parameter
        own (fieldEntries (2 * depth + 2) others ++ rest)
      have remaining := outlineFrom_fieldEntries depth others later rest
      rw [fieldEntries, List.append_assoc, first, remaining]
      simp [fieldShapes, fieldsOutline]
termination_by structural fields

end

theorem outline_functionEntries {function : FunctionSpec} (valid : function.Valid) :
    outline (functionEntries function) = fieldsOutline 0 (fieldShapes function.parameters) := by
  have listed := outlineFrom_fieldEntries 0 function.parameters valid.parameters [.blank]
  by_cases none : function.parameters = []
  · simp [outline, functionEntries, none, outlineFrom, fieldShapes, fieldsOutline]
  · have some : function.parameters.isEmpty = false := by simpa using none
    simpa [outline, functionEntries, some, outlineFrom] using listed

mutual

theorem headings_parameterEntries (level : Nat) (name : String) (parameter : Parameter) :
    headings (parameterEntries (level + 1) name parameter) = [] := by
  cases parameter with
  | string | boolean | integer | float | enum => rfl
  | array note element => exact headings_parameterEntries (level + 2) "item" element
  | object note fields => exact headings_fieldEntries (level + 2) fields
termination_by structural parameter

theorem headings_fieldEntries (level : Nat) (fields : Fields) :
    headings (fieldEntries (level + 1) fields) = [] := by
  match fields with
  | [] => rfl
  | (name, parameter) :: rest =>
      have first := headings_parameterEntries level name parameter
      have others := headings_fieldEntries level rest
      rw [headings, fieldEntries, List.filterMap_append]
      exact List.append_eq_nil_iff.mpr ⟨first, others⟩
termination_by structural fields

end

theorem headings_functionEntries (function : FunctionSpec) :
    headings (functionEntries function) = [function.name ++ ":"] := by
  have inner := headings_fieldEntries 1 function.parameters
  rw [headings] at inner
  cases some : function.parameters.isEmpty <;>
    simp [headings, functionEntries, some, inner, title?]

theorem headings_entries (functions : List FunctionSpec) :
    headings (entries functions) =
      "Available Functions:" :: functions.map fun function => function.name ++ ":" := by
  have each : headings (functions.flatMap functionEntries) =
      functions.map fun function => function.name ++ ":" := by
    induction functions with
    | nil => rfl
    | cons function rest ih =>
        have first := headings_functionEntries function
        rw [headings] at first ih
        rw [headings, List.flatMap_cons, List.filterMap_append, first, ih]
        rfl
  exact congrArg _ each

end ToolGrammar.Documentation

namespace ToolGrammar.Grammar

open Schema

/-- Objects on two paths share their rules, and a field has the name that stands for elements. -/
def visiting : List FunctionSpec :=
  [⟨"visit", "", [
      ("a", .object .plain [("b_c", .array .plain (.object .plain [("item", .string .plain)]))]),
      ("a_b", .object .plain [("c", .array .plain (.object .plain [("item", .string .plain)]))])]⟩,
    ⟨"leave", "", []⟩]

end ToolGrammar.Grammar
