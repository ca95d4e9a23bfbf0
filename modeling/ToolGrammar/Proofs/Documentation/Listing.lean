import ToolGrammar.Proofs.Documentation.Agreement

namespace ToolGrammar.Documentation

open Schema

/-- A parameter that a walk comes to, with its depth and the name under which it stands. -/
structure Visit where
  depth : Nat
  name : String
  parameter : Parameter

mutual

/-- The visits within a parameter of this depth. An array has its elements under one name. -/
def visitsWithin (depth : Nat) : Parameter → List Visit
  | .object _ fields => fieldVisits (depth + 1) fields
  | .array _ element => ⟨depth + 1, "item", element⟩ :: visitsWithin (depth + 1) element
  | .string _ | .boolean _ | .integer .. | .float .. | .enum .. => []
termination_by structural parameter => parameter

/-- The visits to fields of this depth, each field before what lies within it. -/
def fieldVisits (depth : Nat) : Fields → List Visit
  | [] => []
  | (name, parameter) :: rest =>
      ⟨depth, name, parameter⟩ :: (visitsWithin depth parameter ++ fieldVisits depth rest)
termination_by structural fields => fields

end

/-- What announces the parameters within one. -/
def announcement? : Parameter → Option String
  | .object .. => some "Structure:"
  | .array .. => some "Element Type:"
  | .string _ | .boolean _ | .integer .. | .float .. | .enum .. => none

/-- What is written at a visit. -/
def Visit.entries (visit : Visit) : List Entry :=
  .line (2 * visit.depth + 2) (heading visit.name visit.parameter) ::
    (announcement? visit.parameter).toList.map (.line (2 * visit.depth + 3))

/-- What is written of a function, visit by visit. -/
def functionWalk (function : FunctionSpec) : List Entry :=
  [.line 0 (function.name ++ ":"), .line 1 ("Description: " ++ function.description)] ++
    (match function.parameters with
    | [] => [.line 1 "Parameters: none"]
    | parameters => .line 1 "Parameters:" :: (fieldVisits 0 parameters).flatMap Visit.entries) ++
    [.blank]

def walk (functions : List FunctionSpec) : List Entry :=
  [.line 0 "Available Functions:", .blank] ++ functions.flatMap functionWalk

mutual

theorem parameterEntries_eq (depth : Nat) (name : String) (parameter : Parameter) :
    parameterEntries (2 * depth + 2) name parameter =
      (Visit.mk depth name parameter).entries ++
        (visitsWithin depth parameter).flatMap Visit.entries := by
  cases parameter with
  | string | boolean | integer | float | enum => rfl
  | array note element =>
      have inner := parameterEntries_eq (depth + 1) "item" element
      exact congrArg (fun rest => .line (2 * depth + 2) (heading name (.array note element)) ::
        .line (2 * depth + 3) "Element Type:" :: rest) inner
  | object note fields =>
      have inner := fieldEntries_eq (depth + 1) fields
      exact congrArg (fun rest => .line (2 * depth + 2) (heading name (.object note fields)) ::
        .line (2 * depth + 3) "Structure:" :: rest) inner
termination_by structural parameter

theorem fieldEntries_eq (depth : Nat) (fields : Fields) :
    fieldEntries (2 * depth + 2) fields = (fieldVisits depth fields).flatMap Visit.entries := by
  match fields with
  | [] => rfl
  | (name, parameter) :: rest =>
      have first := parameterEntries_eq depth name parameter
      have others := fieldEntries_eq depth rest
      rw [fieldEntries, first, others, fieldVisits, List.flatMap_cons, List.flatMap_append,
        List.append_assoc]
termination_by structural fields

end

theorem functionEntries_eq (function : FunctionSpec) :
    functionEntries function = functionWalk function := by
  have listed := fieldEntries_eq 0 function.parameters
  rw [functionEntries, functionWalk]
  cases parameters : function.parameters with
  | nil => rfl
  | cons field rest =>
      rw [parameters] at listed
      simp [← listed]

theorem entries_eq_walk (functions : List FunctionSpec) : entries functions = walk functions := by
  rw [entries, walk, funext functionEntries_eq]

/-- The values in their order as a sentence lists them. -/
inductive Sentence : List String → String → Prop
  | one (value : String) : Sentence [value] value
  | two (value last : String) : Sentence [value, last] (value ++ " or " ++ last)
  | more {value next : String} {rest : List String} {text : String} (several : rest ≠ [])
      (later : Sentence (next :: rest) text) :
      Sentence (value :: next :: rest) (value ++ ", " ++ text)

/-- What the type of a parameter calls for saying: the values of an enumeration, and the number of
decimal places where it is fixed. -/
inductive Remarks : Parameter → List String → Prop
  | enum {note : Note} {values : EnumValues} {sentence : String}
      (listed : Sentence values.values sentence) :
      Remarks (.enum note values) ["(Valid values: " ++ sentence ++ ")"]
  | float (note : Note) (precision : Precision) :
      Remarks (.float note (some precision))
        ["(exactly " ++ toString precision.digits ++ " decimal places)"]
  | other {parameter : Parameter} (unlisted : ∀ note values, parameter ≠ .enum note values)
      (unfixed : ∀ note precision, parameter ≠ .float note (some precision)) : Remarks parameter []

/-- What a heading says after the type: nothing, or the parts one after the other. -/
def aside : List String → String
  | [] => ""
  | parts => ": " ++ " ".intercalate parts

/-- The heading gives the name, the type as it was declared, whether a value is required, and then
the description, if there is one, before the remarks. -/
def HeadedBy (name : String) (parameter : Parameter) (text : String) : Prop :=
  ∃ remarks, Remarks parameter remarks ∧
    text = name ++ " (" ++ parameter.declaredKind.name ++ ", " ++
      (if parameter.isRequired then "required" else "optional") ++ ")" ++
        aside (parameter.description.toList ++ remarks)

theorem orList_cons {rest : List String} (several : rest ≠ []) (value next : String) :
    orList (value :: next :: rest) = value ++ ", " ++ orList (next :: rest) := by
  obtain ⟨third, later, rfl⟩ := List.exists_cons_of_ne_nil several
  obtain ⟨last, ends⟩ := List.getLast?_isSome.mpr (List.cons_ne_nil third later) |>
    Option.isSome_iff_exists.mp
  simp [orList, ends, String.append_assoc]

theorem sentence_iff {values : List String} {text : String} :
    Sentence values text ↔ values ≠ [] ∧ text = orList values := by
  constructor
  · intro sentence
    induction sentence with
    | one value => simp [orList]
    | two value last => simp [orList]
    | more several later ih => exact ⟨by simp, by rw [orList_cons several, ih.2]⟩
  · rintro ⟨some, rfl⟩
    induction values with
    | nil => exact absurd rfl some
    | cons value rest ih =>
        rcases rest with _ | ⟨next, _ | ⟨third, later⟩⟩
        · exact .one value
        · exact .two value next
        · rw [orList_cons (by simp)]
          exact .more (by simp) (ih (by simp))

theorem remarks_iff {parameter : Parameter} {remarks : List String} :
    Remarks parameter remarks ↔ remarks = (remark? parameter).toList := by
  constructor
  · intro said
    cases said with
    | enum listed => rw [(sentence_iff.mp listed).2]; rfl
    | float => rfl
    | other unlisted unfixed =>
        cases parameter with
        | enum note values => exact absurd rfl (unlisted note values)
        | float note precision =>
            cases precision with
            | none => rfl
            | some precision => exact absurd rfl (unfixed note precision)
        | string | boolean | integer | object | array => rfl
  · rintro rfl
    cases parameter with
    | enum note values => exact .enum (sentence_iff.mpr ⟨values.nonempty, rfl⟩)
    | float note precision =>
        cases precision with
        | none => exact .other (by simp) (by simp)
        | some precision => exact .float note precision
    | string | boolean | integer | object | array => exact .other (by simp) (by simp)

theorem headedBy_iff {name : String} {parameter : Parameter} {text : String} :
    HeadedBy name parameter text ↔ text = heading name parameter := by
  simp only [HeadedBy, remarks_iff, exists_eq_left, heading, details?]
  cases parameter.description <;> cases remark? parameter <;> simp [aside]

/-- Names, each with those within it. -/
inductive Nesting where
  | name (name : String) (inner : List Nesting)

mutual

def nestingWithin : Parameter → List Nesting
  | .object _ fields => fieldNestings fields
  | .array _ element => [.name "item" (nestingWithin element)]
  | .string _ | .boolean _ | .integer .. | .float .. | .enum .. => []
termination_by structural parameter => parameter

def fieldNestings : Fields → List Nesting
  | [] => []
  | (name, parameter) :: rest => .name name (nestingWithin parameter) :: fieldNestings rest
termination_by structural fields => fields

end

/-- Takes what follows a name and is deeper for what is within it. -/
def adopt (place : Nat × String) (later : List (Nat × Nesting)) : List (Nat × Nesting) :=
  (place.1, .name place.2 ((later.takeWhile (place.1 < ·.1)).map (·.2))) ::
    later.dropWhile (place.1 < ·.1)

/-- Nests names by their depths alone. -/
def nest (places : List (Nat × String)) : List Nesting :=
  (places.foldr adopt []).map (·.2)

/-- The name that an entry on an even level starts with, and how deep it stands. -/
def place? : Entry → Option (Nat × String)
  | .line level text => if level % 2 = 0 then some (level / 2, nameOf text) else none
  | .blank => none

def places (entries : List Entry) : List (Nat × String) :=
  entries.filterMap place?

/-- Nothing at the start of the list is deeper than this. -/
def Shallow (depth : Nat) (later : List (Nat × Nesting)) : Prop :=
  ∀ first ∈ later.head?, first.1 ≤ depth

theorem Shallow.append {depth level : Nat} {later : List (Nat × Nesting)}
    (shallow : Shallow depth later) (low : level ≤ depth) (names : List Nesting) :
    Shallow depth (names.map (level, ·) ++ later) := by
  cases names with
  | nil => exact shallow
  | cons name rest =>
      rintro first ⟨⟩
      exact low

theorem adopt_eq {depth : Nat} {later : List (Nat × Nesting)} (shallow : Shallow depth later)
    (name : String) (inner : List Nesting) :
    adopt (depth, name) (inner.map (depth + 1, ·) ++ later) =
      (depth, .name name inner) :: later := by
  have deeper : ∀ nested ∈ inner.map (depth + 1, ·), decide (depth < nested.1) = true := by
    simp
  have stop : later.takeWhile (depth < ·.1) = [] ∧ later.dropWhile (depth < ·.1) = later := by
    cases later with
    | nil => exact ⟨rfl, rfl⟩
    | cons first rest =>
        have level : ¬ depth < first.1 := Nat.not_lt.mpr (shallow first rfl)
        simp [level]
  simp only [adopt, List.takeWhile_append_of_pos deeper, List.dropWhile_append_of_pos deeper, stop]
  simp [Function.comp_def]

def Visit.place (visit : Visit) : Nat × String :=
  (visit.depth + 1, visit.name)

mutual

/-- What is within a parameter is nested under its name, whatever follows on its level or above. -/
theorem adopt_visitsWithin (depth : Nat) (name : String) (parameter : Parameter)
    {later : List (Nat × Nesting)} (shallow : Shallow (depth + 1) later) :
    adopt (depth + 1, name) (((visitsWithin depth parameter).map Visit.place).foldr adopt later) =
      (depth + 1, .name name (nestingWithin parameter)) :: later := by
  cases parameter with
  | string | boolean | integer | float | enum => exact adopt_eq shallow name []
  | array note element =>
      have inner := adopt_visitsWithin (depth + 1) "item" element
        (fun first found => Nat.le_succ_of_le (shallow first found))
      rw [visitsWithin, List.map_cons, List.foldr_cons, Visit.place, inner]
      exact adopt_eq shallow name [_]
  | object note fields =>
      have inner := adopt_fieldVisits (depth + 1) fields
        (fun first found => Nat.le_succ_of_le (shallow first found))
      rw [visitsWithin, inner]
      exact adopt_eq shallow name _
termination_by structural parameter

theorem adopt_fieldVisits (depth : Nat) (fields : Fields) {later : List (Nat × Nesting)}
    (shallow : Shallow (depth + 1) later) :
    ((fieldVisits depth fields).map Visit.place).foldr adopt later =
      (fieldNestings fields).map (depth + 1, ·) ++ later := by
  match fields with
  | [] => rfl
  | (name, parameter) :: rest =>
      have others := adopt_fieldVisits depth rest shallow
      have level := shallow.append (Nat.le_refl (depth + 1)) (fieldNestings rest)
      rw [fieldVisits, List.map_cons, List.foldr_cons, List.map_append, List.foldr_append, others,
        Visit.place, adopt_visitsWithin depth name parameter level]
      rfl
termination_by structural fields

end

mutual

theorem isFieldName_of_mem_visitsWithin {depth : Nat} {parameter : Parameter}
    (valid : parameter.Valid) :
    ∀ visit ∈ visitsWithin depth parameter, isFieldName visit.name = true := by
  cases parameter with
  | string | boolean | integer | float | enum =>
      exact fun _ absent => absurd absent List.not_mem_nil
  | array note element =>
      rw [visitsWithin, List.forall_mem_cons]
      have word : isFieldName "item" = true := by decide
      exact ⟨word, isFieldName_of_mem_visitsWithin valid⟩
  | object note fields => exact isFieldName_of_mem_fieldVisits valid.2
termination_by structural parameter

theorem isFieldName_of_mem_fieldVisits {depth : Nat} {fields : Fields}
    (valid : FieldsValid fields) :
    ∀ visit ∈ fieldVisits depth fields, isFieldName visit.name = true := by
  match fields with
  | [] => exact fun _ absent => absurd absent List.not_mem_nil
  | (name, parameter) :: rest =>
      obtain ⟨wellFormed, _, own, later⟩ := valid
      rw [fieldVisits, List.forall_mem_cons, List.forall_mem_append]
      exact ⟨wellFormed, isFieldName_of_mem_visitsWithin own, isFieldName_of_mem_fieldVisits later⟩
termination_by structural fields

end

theorem places_entries {visit : Visit} (wellFormed : isFieldName visit.name = true) :
    places visit.entries = [visit.place] := by
  have own : place? (.line (2 * visit.depth + 2) (heading visit.name visit.parameter)) =
      some visit.place := by
    have even : (2 * visit.depth + 2) % 2 = 0 := by omega
    have level : (2 * visit.depth + 2) / 2 = visit.depth + 1 := by omega
    rw [place?, if_pos even, level, nameOf_heading wellFormed]
    rfl
  have silent (text : String) : place? (.line (2 * visit.depth + 3) text) = none :=
    if_neg (by omega)
  have announced : places ((announcement? visit.parameter).toList.map
      (.line (2 * visit.depth + 3))) = [] := by
    cases announcement? visit.parameter with
    | none => rfl
    | some text => simp [places, silent]
  rw [Visit.entries, places, List.filterMap_cons_some own]
  exact congrArg _ announced

theorem places_visits {visits : List Visit}
    (wellFormed : ∀ visit ∈ visits, isFieldName visit.name = true) :
    places (visits.flatMap Visit.entries) = visits.map Visit.place := by
  induction visits with
  | nil => rfl
  | cons visit rest ih =>
      obtain ⟨first, others⟩ := List.forall_mem_cons.mp wellFormed
      have own := places_entries first
      have later := ih others
      rw [places] at own later ⊢
      rw [List.flatMap_cons, List.filterMap_append, own, later]
      rfl

/-- A text without blanks is all name. -/
theorem nameOf_of_solid {text : String} (solid : ' ' ∉ text.toList) : nameOf text = text := by
  have whole : text.toList.takeWhile (· != ' ') = text.toList := by
    rw [List.takeWhile_eq_self_iff]
    intro c member
    exact bne_iff_ne.mpr fun blank => solid (blank ▸ member)
  rw [nameOf, whole, String.ofList_toList]

theorem places_functionWalk {function : FunctionSpec} (valid : function.Valid) :
    places (functionWalk function) =
      (0, function.name ++ ":") :: (fieldVisits 0 function.parameters).map Visit.place := by
  have solid : ' ' ∉ (function.name ++ ":").toList := by
    rw [String.toList_append, List.mem_append]
    rintro (inside | colon)
    · have letter := (isFunctionName_eq_true.mp valid.name).2 ' ' inside
      revert letter
      unfold WordLetter
      decide
    · revert colon
      decide
  have title := nameOf_of_solid solid
  have listed : places ((fieldVisits 0 function.parameters).flatMap Visit.entries) = _ :=
    places_visits (isFieldName_of_mem_fieldVisits valid.parameters)
  rw [places] at listed ⊢
  rw [functionWalk]
  cases parameters : function.parameters with
  | nil => simp [title, place?, fieldVisits]
  | cons field rest =>
      rw [parameters] at listed
      simp [title, place?, listed]

def functionNesting (function : FunctionSpec) : Nesting :=
  .name (function.name ++ ":") (fieldNestings function.parameters)

/-- The functions that documentation is about, after the word that it starts with. -/
def nestings (functions : List FunctionSpec) : List Nesting :=
  .name "Available" [] :: functions.map functionNesting

def functionPlaces (function : FunctionSpec) : List (Nat × String) :=
  (0, function.name ++ ":") :: (fieldVisits 0 function.parameters).map Visit.place

theorem places_walk {functions : List FunctionSpec}
    (valid : ∀ function ∈ functions, function.Valid) :
    places (walk functions) = (0, "Available") :: functions.flatMap functionPlaces := by
  have each : places (functions.flatMap functionWalk) = functions.flatMap functionPlaces := by
    induction functions with
    | nil => rfl
    | cons function rest ih =>
        obtain ⟨first, others⟩ := List.forall_mem_cons.mp valid
        have own := places_functionWalk first
        have later := ih others
        rw [places] at own later ⊢
        rw [List.flatMap_cons, List.filterMap_append, own, later]
        rfl
  have word : nameOf "Available Functions:" = "Available" := by decide
  have title : place? (.line 0 "Available Functions:") = some (0, "Available") := by
    simp [place?, word]
  rw [← each]
  exact List.filterMap_cons_some title

theorem adopt_functions (functions : List FunctionSpec) :
    (functions.flatMap functionPlaces).foldr adopt [] =
      (functions.map functionNesting).map (0, ·) := by
  induction functions with
  | nil => rfl
  | cons function rest ih =>
      have shallow (depth : Nat) : Shallow depth ((rest.map functionNesting).map (0, ·)) := by
        have none : Shallow depth [] := nofun
        simpa using none.append (Nat.zero_le depth) (rest.map functionNesting)
      rw [List.flatMap_cons, functionPlaces, List.foldr_append, ih, List.foldr_cons,
        adopt_fieldVisits 0 function.parameters (shallow 1), adopt_eq (shallow 0)]
      rfl

/-- From levels and names alone all parameters are nested again as they are in the functions. -/
theorem nest_places_walk {functions : List FunctionSpec}
    (valid : ∀ function ∈ functions, function.Valid) :
    nest (places (walk functions)) = nestings functions := by
  have none : Shallow 0 [] := nofun
  have level := none.append (Nat.le_refl 0) (functions.map functionNesting)
  have whole := adopt_eq level "Available" []
  rw [List.append_nil, List.map_nil, List.nil_append] at whole
  rw [nest, places_walk valid, List.foldr_cons, adopt_functions, whole]
  simp [nestings, Function.comp_def]

theorem none_mem_functionEntries_iff {function : FunctionSpec} :
    .line 1 "Parameters: none" ∈ functionEntries function ↔ function.parameters = [] := by
  have spoken : "Description: " ++ function.description ≠ "Parameters: none" := by
    intro same
    have first := congrArg (fun text => text.toList.head?) same
    simp at first
  have deep (visit : Visit) : .line 1 "Parameters: none" ∉ visit.entries := by
    simp [Visit.entries]
  rw [functionEntries_eq, functionWalk]
  cases function.parameters with
  | nil => simp
  | cons field rest => simp [deep, Ne.symm spoken]

/-- Documentation is the walk through the functions written down: nothing is left out, moved or
written twice, a function without parameters says so and no other one does, every heading says what
its parameter says, and the levels and names tell how the parameters are nested. -/
theorem documentation_walk {functions : List FunctionSpec}
    (valid : ∀ function ∈ functions, function.Valid) :
    entries functions = walk functions ∧
    (∀ function ∈ functions, .line 1 "Parameters: none" ∈ functionEntries function ↔
      function.parameters = []) ∧
    (∀ name parameter text, HeadedBy name parameter text ↔ text = heading name parameter) ∧
    nest (places (entries functions)) = nestings functions := by
  refine ⟨entries_eq_walk functions, fun _ _ => none_mem_functionEntries_iff,
    fun _ _ _ => headedBy_iff, ?_⟩
  rw [entries_eq_walk]
  exact nest_places_walk valid

def grades : EnumValues :=
  ⟨["coarse", "plain", "fine"], by decide, by decide⟩

/-- Elements and fields under one name at three depths. -/
def cataloguing : List FunctionSpec :=
  [⟨"catalogue", "Adds boxes.", [
      ("item", .array ⟨true, some "Boxes"⟩ (.object .plain [
        ("item", .integer ⟨false, none⟩ .number),
        ("grade", .enum ⟨true, some "Grade"⟩ grades)])),
      ("mass", .float .plain (some ⟨17, by decide, by decide⟩))]⟩,
    ⟨"ping", "", []⟩]

theorem documentation_walk_cataloguing :
    (∀ function ∈ cataloguing, function.Valid) ∧
    places (entries cataloguing) =
      [(0, "Available"), (0, "catalogue:"), (1, "item"), (2, "item"), (3, "item"), (3, "grade"),
        (1, "mass"), (0, "ping:")] ∧
    nest (places (entries cataloguing)) =
      [.name "Available" [],
        .name "catalogue:" [.name "item" [.name "item" [.name "item" [], .name "grade" []]],
          .name "mass" []],
        .name "ping:" []] ∧
    heading "grade" (.enum ⟨true, some "Grade"⟩ grades) =
      "grade (enum, required): Grade (Valid values: coarse, plain or fine)" := by
  have valid : ∀ function ∈ cataloguing, function.Valid := by decide
  obtain ⟨walked, -, headed, nested⟩ := documentation_walk valid
  refine ⟨valid, by rw [walked, places_walk valid]; decide, nested, ?_⟩
  have listed : Sentence grades.values "coarse, plain or fine" :=
    .more (by simp) (.two "plain" "fine")
  exact ((headed _ _ _).mp ⟨_, .enum listed, by decide⟩).symm

end ToolGrammar.Documentation
