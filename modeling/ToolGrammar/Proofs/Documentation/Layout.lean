import ToolGrammar.Proofs.Documentation.Listing
import ToolGrammar.Text.Pieces

namespace ToolGrammar.Text

variable {separator : Char}

/-- What goes before all separators goes before the first piece. -/
theorem splitOn_append_left {front : List Char} (absent : separator ∉ front) (chars : List Char) :
    (front ++ chars).splitOn separator = (chars.splitOn separator).modifyHead (front ++ ·) := by
  induction front with
  | nil => exact (congrFun List.modifyHead_id _).symm
  | cons char front ih =>
      obtain ⟨other, absent⟩ := not_or.mp (List.mem_cons.not.mp absent)
      rw [List.cons_append, List.splitOn_cons_eq_if_modifyHead,
        if_neg (by simpa using Ne.symm other), ih absent, List.modifyHead_modifyHead]
      rfl

theorem splitOn_intercalate_flatMap {parts : List (List Char)} (some : parts ≠ []) :
    ([separator].intercalate parts).splitOn separator =
      parts.flatMap (List.splitOn separator) := by
  induction parts with
  | nil => exact absurd rfl some
  | cons part rest ih =>
      cases rest with
      | nil => simp
      | cons next rest =>
          rw [List.intercalate_cons_cons, List.append_assoc, List.singleton_append,
            List.splitOn_append_cons_self, ih (by simp)]
          rfl

theorem length_splitOn (separator : Char) (chars : List Char) :
    (chars.splitOn separator).length = chars.count separator + 1 := by
  induction chars with
  | nil => rfl
  | cons char rest ih =>
      rw [List.splitOn_cons_eq_if_modifyHead]
      by_cases same : char = separator <;> simp_all

end ToolGrammar.Text

namespace ToolGrammar.Documentation

open Schema
open Text (pieces)

/-- The lines of an entry. Only the first one is indented. -/
def Entry.lines : Entry → List String
  | .blank => [""]
  | .line level text =>
      (pieces '\n' text).modifyHead (String.ofList (List.replicate (2 * level) ' ') ++ ·)

theorem pieces_entry (entry : Entry) : pieces '\n' entry.render = entry.lines := by
  cases entry with
  | blank => rfl
  | line level text =>
      have blanks : '\n' ∉ List.replicate (2 * level) ' ' := by simp
      have whole := Text.splitOn_append_left blanks text.toList
      obtain ⟨first, rest, cut⟩ := List.exists_cons_of_ne_nil (List.splitOn_ne_nil '\n' text.toList)
      simp [Entry.render, Entry.lines, pieces, whole, cut]

/-- The lines of documentation are those of its entries one after another, and nothing follows the
last line feed. -/
theorem pieces_render (functions : List FunctionSpec) :
    pieces '\n' (render functions) = (entries functions).flatMap Entry.lines ++ [""] := by
  have some : ((entries functions).map Entry.render).map String.toList ≠ [] := by simp [entries]
  have last := List.splitOn_append_cons_self (a := '\n')
    (['\n'].intercalate (((entries functions).map Entry.render).map String.toList)) []
  rw [Text.splitOn_intercalate_flatMap some] at last
  have lineFeed : ("\n" : String).toList = ['\n'] := rfl
  have each : (fun entry : Entry => (entry.render.toList.splitOn '\n').map String.ofList) =
      Entry.lines := funext pieces_entry
  rw [pieces, render, String.toList_append, String.toList_intercalate, lineFeed, last,
    List.map_append, List.map_flatMap, List.flatMap_map, List.flatMap_map, each]
  rfl

/-- The text of the entry is one line. -/
def Entry.Flat : Entry → Prop
  | .blank => True
  | .line _ text => '\n' ∉ text.toList

theorem Entry.length_lines (entry : Entry) : 1 ≤ entry.lines.length ∧
    (entry.lines.length = 1 ↔ entry.Flat) := by
  cases entry with
  | blank => exact ⟨Nat.le_refl 1, by simp [Entry.lines, Entry.Flat]⟩
  | line level text =>
      simp [Entry.lines, Entry.Flat, pieces, Text.length_splitOn, List.count_eq_zero]

theorem Entry.lines_of_flat {entry : Entry} (flat : entry.Flat) : entry.lines = [entry.render] := by
  cases entry with
  | blank => rfl
  | line level text =>
      simp [Entry.lines, Entry.render, pieces, List.splitOn_eq_singleton (show _ ∉ _ from flat)]

theorem length_flatMap_lines (entries : List Entry) :
    entries.length ≤ (entries.flatMap Entry.lines).length ∧
      ((entries.flatMap Entry.lines).length = entries.length → ∀ entry ∈ entries, entry.Flat) := by
  induction entries with
  | nil => simp
  | cons entry rest ih =>
      obtain ⟨least, flat⟩ := entry.length_lines
      obtain ⟨leastRest, flatRest⟩ := ih
      simp only [List.flatMap_cons, List.length_append, List.length_cons, List.forall_mem_cons]
      exact ⟨by omega, fun same => ⟨flat.mp (by omega), flatRest (by omega)⟩⟩

/-- Every entry is one line just when no text of an entry holds a line feed. -/
theorem flatMap_lines_iff {entries : List Entry} :
    entries.flatMap Entry.lines = entries.map Entry.render ↔ ∀ entry ∈ entries, entry.Flat := by
  constructor
  · intro same
    exact (length_flatMap_lines entries).2 (by rw [same, List.length_map])
  · intro flat
    induction entries with
    | nil => rfl
    | cons entry rest ih =>
        obtain ⟨first, others⟩ := List.forall_mem_cons.mp flat
        rw [List.flatMap_cons, Entry.lines_of_flat first, ih others]
        rfl

/-- The texts that a schema gives for a parameter, apart from its name. -/
def writings : Parameter → List String
  | .enum note values => note.description.toList ++ values.values
  | parameter => parameter.description.toList

/-- The texts that a schema gives for functions and parameters, apart from their names. -/
def contents (functions : List FunctionSpec) : List String :=
  functions.flatMap fun function => function.description ::
    (fieldVisits 0 function.parameters).flatMap fun visit => writings visit.parameter

/-- A word has no line feed. -/
theorem lineFeed_not_mem_of_isFieldName {name : String} (wellFormed : isFieldName name = true) :
    '\n' ∉ name.toList := by
  intro inside
  have letter := (isFieldName_eq_true.mp wellFormed).2 '\n' inside
  revert letter
  unfold WordLetter
  decide

theorem lineFeed_mem_sentence {values : List String} {text : String}
    (sentence : Sentence values text) :
    '\n' ∈ text.toList ↔ ∃ value ∈ values, '\n' ∈ value.toList := by
  induction sentence with
  | one value => simp
  | two value last => simp
  | more several later ih => simp [ih]

theorem lineFeed_mem_aside {parts : List String} :
    '\n' ∈ (aside parts).toList ↔ ∃ part ∈ parts, '\n' ∈ part.toList := by
  have joined : '\n' ∈ (" ".intercalate parts).toList ↔ ∃ part ∈ parts, '\n' ∈ part.toList := by
    induction parts with
    | nil => simp
    | cons part rest ih =>
        cases rest with
        | nil => simp
        | cons next rest => simp_all [String.toList_intercalate]
  cases parts with
  | nil => simp [aside]
  | cons part rest => simp [aside] at joined ⊢; exact joined

theorem lineFeed_mem_heading {name : String} (wellFormed : isFieldName name = true)
    (parameter : Parameter) : '\n' ∈ (heading name parameter).toList ↔
      ∃ text ∈ writings parameter, '\n' ∈ text.toList := by
  obtain ⟨remarks, said, text⟩ := headedBy_iff.mpr (Eq.refl (heading name parameter))
  have kind : '\n' ∉ parameter.declaredKind.name.toList := by
    cases parameter.declaredKind <;> decide
  have presence : '\n' ∉ (if parameter.isRequired then "required" else "optional").toList := by
    cases parameter.isRequired <;> decide
  have annotated : '\n' ∈ (heading name parameter).toList ↔
      ∃ part ∈ parameter.description.toList ++ remarks, '\n' ∈ part.toList := by
    rw [text]
    simp [lineFeed_mem_aside, lineFeed_not_mem_of_isFieldName wellFormed, kind, presence]
  rw [annotated]
  cases said with
  | @enum note values sentence listed =>
      have values := lineFeed_mem_sentence listed
      simp [writings, Parameter.description, Parameter.note, or_and_right, exists_or, values]
  | float note precision =>
      have digits : '\n' ∉ Nat.toDigits 10 precision.digits := fun inside =>
        absurd (Nat.isDigit_of_mem_toDigits (by decide) (by decide) inside) (by decide)
      simp [writings, digits]
  | other unlisted =>
      have plain : writings parameter = parameter.description.toList := by
        cases parameter with
        | enum note values => exact absurd rfl (unlisted note values)
        | string | boolean | integer | float | object | array => rfl
      rw [plain, List.append_nil]

theorem flat_visit_iff {visit : Visit} (wellFormed : isFieldName visit.name = true) :
    (∀ entry ∈ visit.entries, entry.Flat) ↔
      ∀ text ∈ writings visit.parameter, '\n' ∉ text.toList := by
  have announced : ∀ text ∈ announcement? visit.parameter, '\n' ∉ text.toList := by
    cases visit.parameter <;> simp [announcement?]
  have headed := not_congr (lineFeed_mem_heading wellFormed visit.parameter)
  rw [Visit.entries, List.forall_mem_cons, Entry.Flat, headed]
  simp only [not_exists, not_and, and_iff_left_iff_imp, List.forall_mem_map, Option.mem_toList]
  exact fun _ => announced

theorem forall_mem_functionWalk {holds : Entry → Prop} {function : FunctionSpec}
    (blank : holds .blank) (absent : holds (.line 1 "Parameters: none"))
    (present : holds (.line 1 "Parameters:")) :
    (∀ entry ∈ functionWalk function, holds entry) ↔
      holds (.line 0 (function.name ++ ":")) ∧
      holds (.line 1 ("Description: " ++ function.description)) ∧
      ∀ visit ∈ fieldVisits 0 function.parameters, ∀ entry ∈ visit.entries, holds entry := by
  rw [functionWalk]
  cases function.parameters with
  | nil =>
      simp only [List.forall_mem_append, List.forall_mem_cons, List.not_mem_nil, fieldVisits, blank,
        absent, false_implies, implies_true, and_true]
  | cons field rest =>
      simp only [List.forall_mem_append, List.forall_mem_cons, List.forall_mem_flatMap,
        List.not_mem_nil, blank, present, false_implies, implies_true, true_and, and_true,
        and_assoc]

theorem flat_functionWalk_iff {function : FunctionSpec} (valid : function.Valid) :
    (∀ entry ∈ functionWalk function, entry.Flat) ↔ '\n' ∉ function.description.toList ∧
      ∀ visit ∈ fieldVisits 0 function.parameters,
        ∀ text ∈ writings visit.parameter, '\n' ∉ text.toList := by
  have word := lineFeed_not_mem_of_isFieldName (Grammar.isFieldName_of_isFunctionName valid.name)
  have title : (Entry.line 0 (function.name ++ ":")).Flat := by
    simp [Entry.Flat, word]
  have description : (Entry.line 1 ("Description: " ++ function.description)).Flat ↔
      '\n' ∉ function.description.toList := by
    simp [Entry.Flat]
  rw [forall_mem_functionWalk trivial (by simp [Entry.Flat]) (by simp [Entry.Flat]),
    and_iff_right title, description]
  exact and_congr_right fun _ => forall₂_congr fun visit found =>
    flat_visit_iff (isFieldName_of_mem_fieldVisits valid.parameters visit found)

theorem flat_walk_iff {functions : List FunctionSpec}
    (valid : ∀ function ∈ functions, function.Valid) :
    (∀ entry ∈ walk functions, entry.Flat) ↔
      ∀ text ∈ contents functions, '\n' ∉ text.toList := by
  have start : ∀ entry ∈ [Entry.line 0 "Available Functions:", .blank], entry.Flat := by
    simp [Entry.Flat]
  rw [walk, List.forall_mem_append, and_iff_right start, contents, List.forall_mem_flatMap,
    List.forall_mem_flatMap]
  refine forall₂_congr fun function found => ?_
  rw [flat_functionWalk_iff (valid function found), List.forall_mem_cons, List.forall_mem_flatMap]

/-- The text of the entry starts with something that is no blank. -/
def Entry.Starts : Entry → Prop
  | .blank => True
  | .line _ text => ∃ first rest, text.toList = first :: rest ∧ first ≠ ' '

theorem starts_of_isFieldName {level : Nat} {name : String} (wellFormed : isFieldName name = true)
    (rest : String) : (Entry.line level (name ++ rest)).Starts := by
  obtain ⟨some, letters⟩ := isFieldName_eq_true.mp wellFormed
  obtain ⟨first, others, spelled⟩ := List.exists_cons_of_ne_nil some
  refine ⟨first, others ++ rest.toList, by simp [spelled], ?_⟩
  rintro rfl
  have letter := letters ' ' (by simp [spelled])
  revert letter
  unfold WordLetter
  decide

theorem starts_visit {visit : Visit} (wellFormed : isFieldName visit.name = true) :
    ∀ entry ∈ visit.entries, entry.Starts := by
  have announced : ∀ text ∈ announcement? visit.parameter,
      (Entry.line (2 * visit.depth + 3) text).Starts := by
    cases visit.parameter <;> simp [announcement?, Entry.Starts]
  rw [Visit.entries, List.forall_mem_cons, List.forall_mem_map]
  refine ⟨?_, fun text found => announced text (Option.mem_toList.mp found)⟩
  simp only [heading, String.append_assoc]
  exact starts_of_isFieldName wellFormed _

theorem starts_walk {functions : List FunctionSpec}
    (valid : ∀ function ∈ functions, function.Valid) : ∀ entry ∈ walk functions, entry.Starts := by
  rw [walk, List.forall_mem_append, List.forall_mem_flatMap]
  refine ⟨by simp [Entry.Starts], fun function found => ?_⟩
  have word := Grammar.isFieldName_of_isFunctionName (valid function found).name
  have title : (Entry.line 0 (function.name ++ ":")).Starts := starts_of_isFieldName word ":"
  refine (forall_mem_functionWalk trivial (by simp [Entry.Starts]) (by simp [Entry.Starts])).mpr
    ⟨title, by simp [Entry.Starts], fun visit inside => ?_⟩
  exact starts_visit (isFieldName_of_mem_fieldVisits (valid function found).parameters visit inside)

/-- Documentation is cut into the lines of its entries, which start at their levels; these are one
line each just when no description and no value holds a line feed. -/
theorem documentation_lines {functions : List FunctionSpec}
    (valid : ∀ function ∈ functions, function.Valid) :
    pieces '\n' (render functions) = (walk functions).flatMap Entry.lines ++ [""] ∧
    (pieces '\n' (render functions) = (walk functions).map Entry.render ++ [""] ↔
      ∀ text ∈ contents functions, '\n' ∉ text.toList) ∧
    ∀ level text, .line level text ∈ walk functions → ∃ first rest,
      (Entry.line level text).render.toList =
        List.replicate (2 * level) ' ' ++ first :: rest ∧ first ≠ ' ' := by
  have lines := pieces_render functions
  rw [entries_eq_walk] at lines
  refine ⟨lines, ?_, fun level text found => ?_⟩
  · rw [lines, List.append_cancel_right_eq, flatMap_lines_iff, flat_walk_iff valid]
  · obtain ⟨first, rest, spelled, solid⟩ := starts_walk valid _ found
    exact ⟨first, rest, by simp [Entry.render, spelled], solid⟩

/-- A description that goes on like the documentation of one more function. -/
def forging : List FunctionSpec :=
  [⟨"check", "Checks.\n  Parameters: none\n\nerase:\n  Description: Erases.", []⟩]

theorem documentation_lines_forging :
    (∀ function ∈ forging, function.Valid) ∧
    pieces '\n' (render forging) =
      ["Available Functions:", "", "check:", "  Description: Checks.", "  Parameters: none", "",
        "erase:", "  Description: Erases.", "  Parameters: none", "", ""] := by
  have valid : ∀ function ∈ forging, function.Valid := by decide
  refine ⟨valid, ?_⟩
  rw [(documentation_lines valid).1]
  decide

/-- A line feed in a description adds lines that stand at other levels, and the text is that of
other functions. -/
theorem forged_function_documented :
    (∀ function ∈ forging, function.Valid) ∧
    ¬ (walk forging).map Entry.render <+: pieces '\n' (render forging) ∧
    render forging = render [⟨"check", "Checks.", []⟩, ⟨"erase", "Erases.", []⟩] := by
  refine ⟨by decide, ?_, by cbv⟩
  rw [pieces_render]
  decide

end ToolGrammar.Documentation
