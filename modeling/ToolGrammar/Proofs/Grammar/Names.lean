import ToolGrammar.Proofs.Gbnf.Lexing
import ToolGrammar.Proofs.Grammar.Nodes
import ToolGrammar.Proofs.Schema.Valid

namespace ToolGrammar.Grammar

open Schema Gbnf

/-- The first run of capitals is the only one within ASCII. -/
theorem find?_capitalRuns_of_ascii {code : Nat} (ascii : code < 128) :
    Text.capitalRuns.find? (·.covers code) =
      if 0x41 ≤ code ∧ code ≤ 0x5A then some ⟨0x41, 0x5A, 1, 32⟩ else none := by
  have beyond : ∀ run ∈ Text.capitalRuns.tail, 128 ≤ run.first := by decide +kernel
  have later : Text.capitalRuns.tail.find? (·.covers code) = none := by
    rw [List.find?_eq_none]
    intro run member covers
    have first := beyond run member
    simp only [Text.CapitalRun.covers, Bool.and_eq_true, decide_eq_true_eq] at covers
    omega
  have runs : Text.capitalRuns = ⟨0x41, 0x5A, 1, 32⟩ :: Text.capitalRuns.tail := rfl
  rw [runs, List.find?_cons, later]
  by_cases capital : 0x41 ≤ code ∧ code ≤ 0x5A
  · simp [Text.CapitalRun.covers, capital, Nat.mod_one]
  · have outside : Text.CapitalRun.covers ⟨0x41, 0x5A, 1, 32⟩ code = false := by
      simp only [Text.CapitalRun.covers, Bool.and_eq_false_iff, decide_eq_false_iff_not]
      exact .inl (not_and_or.mp capital)
    rw [outside, if_neg capital]

theorem smallForm_of_ascii {c : Char} (ascii : c.toNat < 128) :
    Text.smallForm c = [c.toLower] := by
  have other : c ≠ 'İ' := by
    intro dotted
    rw [dotted] at ascii
    exact absurd ascii (by decide)
  have capitals : ∀ code : Nat, code < 128 → 0x41 ≤ code ∧ code ≤ 0x5A →
      Char.ofNat (Int.toNat (code + 32)) = (Char.ofNat code).toLower := by decide +kernel
  have others : ∀ code : Nat, code < 128 → ¬(0x41 ≤ code ∧ code ≤ 0x5A) →
      Char.ofNat code = (Char.ofNat code).toLower := by decide +kernel
  rw [Text.smallForm, if_neg other, find?_capitalRuns_of_ascii ascii]
  by_cases capital : 0x41 ≤ c.toNat ∧ c.toNat ≤ 0x5A
  · simpa [capital] using capitals c.toNat ascii capital
  · simpa [capital] using others c.toNat ascii capital

theorem lowercaseAfter_of_ascii {read text : List Char} (ascii : ∀ c ∈ text, c.toNat < 128) :
    Text.lowercaseAfter read text = text.map Char.toLower := by
  induction text generalizing read with
  | nil => rfl
  | cons c rest ih =>
      have small := ascii c List.mem_cons_self
      have other : c ≠ 'Σ' := by
        intro sigma
        rw [sigma] at small
        exact absurd small (by decide)
      rw [Text.lowercaseAfter, if_neg other, smallForm_of_ascii small,
        ih fun c member => ascii c (List.mem_cons_of_mem _ member)]
      rfl

/-- The character of a rule's name for one of a field's name. -/
def normalChar (c : Char) : Char :=
  if c = '_' then '-' else c.toLower

def isFieldChar (c : Char) : Bool :=
  isWordChar c || c == '-'

theorem isFieldChar_iff {c : Char} :
    isFieldChar c = true ↔
      (65 ≤ c.toNat ∧ c.toNat ≤ 90) ∨ (97 ≤ c.toNat ∧ c.toNat ≤ 122) ∨
        (48 ≤ c.toNat ∧ c.toNat ≤ 57) ∨ c.toNat = 95 ∨ c.toNat = 45 := by
  have underscore : c = '_' ↔ c.toNat = 95 := Char.toNat_inj.symm
  have hyphen : c = '-' ↔ c.toNat = 45 := Char.toNat_inj.symm
  simp only [isFieldChar, isWordChar, Char.isAlphanum, Char.isAlpha, Char.isUpper, Char.isLower,
    Char.isDigit, Bool.or_eq_true, Bool.and_eq_true, decide_eq_true_eq, beq_iff_eq, underscore,
    hyphen, UInt32.le_iff_toNat_le, ge_iff_le, or_assoc]
  rfl

theorem ascii_of_isFieldChar {c : Char} (inside : isFieldChar c = true) : c.toNat < 128 := by
  rw [isFieldChar_iff] at inside
  omega

/-- What is checked code by code holds of every character of a field's name. -/
@[elab_as_elim]
theorem of_isFieldChar {motive : Char → Prop} {c : Char} (inside : isFieldChar c = true)
    (each : ∀ code < 128, isFieldChar (Char.ofNat code) = true → motive (Char.ofNat code)) :
    motive c := by
  have checked := each c.toNat (ascii_of_isFieldChar inside)
  rw [Char.ofNat_toNat] at checked
  exact checked inside

theorem isNameChar_normalChar {c : Char} (inside : isFieldChar c = true) :
    isNameChar (normalChar c) = true := by
  refine of_isFieldChar inside ?_
  decide +kernel

theorem normalChar_ne_hyphen {c : Char} (inside : isFieldChar c = true) :
    c ≠ '_' → c ≠ '-' → normalChar c ≠ '-' := by
  refine of_isFieldChar inside ?_
  decide +kernel

theorem normalize_toList {name : String} (inside : ∀ c ∈ name.toList, isFieldChar c = true) :
    (normalize name).toList = name.toList.map normalChar := by
  have ascii : ∀ c ∈ name.toList.map (fun c => if c = '_' then '-' else c), c.toNat < 128 := by
    intro c member
    obtain ⟨original, found, rfl⟩ := List.mem_map.mp member
    split
    · decide
    · exact ascii_of_isFieldChar (inside original found)
  simp only [normalize, Text.lowercase, String.toList_ofList, String.toList_map]
  rw [lowercaseAfter_of_ascii ascii, List.map_map]
  refine List.map_congr_left fun c _ => ?_
  simp only [Function.comp_apply, normalChar]
  split <;> rfl

/-- Valid names of fields. Those of functions are among them. -/
theorem isFieldName_iff {name : String} :
    isFieldName name = true ↔ name.toList ≠ [] ∧ ∀ c ∈ name.toList, isFieldChar c = true := by
  simp [isFieldName, isFieldChar]

theorem isFieldName_of_isFunctionName {name : String} (valid : isFunctionName name = true) :
    isFieldName name = true := by
  simp only [isFunctionName, isFieldName, Bool.and_eq_true, List.all_eq_true] at valid ⊢
  exact ⟨valid.1, fun c member => by simp [valid.2 c member]⟩

theorem isName_normalize {name : String} (valid : isFieldName name = true) :
    IsName (normalize name) := by
  obtain ⟨nonempty, inside⟩ := isFieldName_iff.mp valid
  rw [IsName, normalize_toList inside]
  refine ⟨by simpa using nonempty, fun c member => ?_⟩
  obtain ⟨original, found, rfl⟩ := List.mem_map.mp member
  exact isNameChar_normalChar (inside original found)

theorem RuleId.text_inj {left right : RuleId} : left.text = right.text ↔ left = right := by
  cases left
  cases right
  simp

theorem isName_function {name : String} (valid : isFunctionName name = true) :
    IsName (RuleId.function name).text := by
  have same : (RuleId.function name).text = normalize name := by
    simp [RuleId.function, RuleId.ofPath]
  rw [same]
  exact isName_normalize (isFieldName_of_isFunctionName valid)

/-- The name of a node: it can be read, and holds the letter p. -/
structure NodeName (id : RuleId) : Prop where
  readable : IsName id.text
  letter : 'p' ∈ id.text.toList

theorem NodeName.append {id : RuleId} (named : NodeName id) {rest : String}
    (inside : rest.toList.all isNameChar = true) : NodeName ⟨id.text ++ rest⟩ :=
  ⟨named.readable.append inside, by simp [named.letter]⟩

theorem NodeName.element {id : RuleId} (named : NodeName id) : NodeName id.element :=
  named.append (by decide)

theorem NodeName.child {id : RuleId} (named : NodeName id) {field : String}
    (valid : isFieldName field = true) : NodeName (id.child field) := by
  have rest : id.child field = ⟨id.text ++ ("-" ++ normalize field)⟩ := by
    simp [RuleId.child, String.append_assoc]
  have hyphen : "-".toList.all isNameChar = true := by decide
  have inside := List.all_eq_true.mpr (isName_normalize valid).2
  rw [rest]
  refine named.append ?_
  rw [String.toList_append, List.all_append, hyphen, inside]
  rfl

theorem nodeName_paramsId {function : FunctionSpec} (valid : function.Valid) :
    NodeName (paramsId function) :=
  ⟨(isName_function valid.name).append (by decide), by simp [paramsId, RuleId.params]⟩

theorem toString_toList (n : Nat) : (toString n).toList = Nat.toDigits 10 n := by
  simp

theorem toString_inj {left right : Nat} (same : toString left = toString right) :
    left = right := by
  have digits := congrArg String.toList same
  rw [toString_toList, toString_toList] at digits
  rw [← @Nat.ofDigitChars_ten_toDigits left, digits, Nat.ofDigitChars_ten_toDigits]

theorem isDigit_of_mem_toString {n : Nat} {c : Char} (member : c ∈ (toString n).toList) :
    c.isDigit = true := by
  rw [toString_toList] at member
  exact Nat.isDigit_of_mem_toDigits (by decide) (by decide) member

theorem isNameChar_of_isDigit {c : Char} (digit : c.isDigit = true) : isNameChar c = true := by
  simp [isNameChar, Char.isAlphanum, digit]

theorem toString_isNameChar (n : Nat) : (toString n).toList.all isNameChar = true :=
  List.all_eq_true.mpr fun _ member => isNameChar_of_isDigit (isDigit_of_mem_toString member)

theorem isName_floatId (precision : Precision) : IsName (floatId precision).text :=
  IsName.append (by decide) (toString_isNameChar _)

theorem isName_fractionId (precision : Precision) : IsName (fractionId precision).text :=
  IsName.append (by decide) (toString_isNameChar _)

theorem digits_inj {left right : Precision} (same : left.digits = right.digits) :
    left = right := by
  cases left
  cases right
  simpa using same

theorem floatId_inj {left right : Precision} (same : floatId left = floatId right) :
    left = right := by
  simp only [floatId, RuleId.mk.injEq, String.append_right_inj] at same
  exact digits_inj (toString_inj same)

theorem fractionId_inj {left right : Precision} (same : fractionId left = fractionId right) :
    left = right := by
  simp only [fractionId, RuleId.mk.injEq, String.append_right_inj] at same
  exact digits_inj (toString_inj same)

theorem floatId_ne_fractionId (left right : Precision) : floatId left ≠ fractionId right := by
  intro same
  have second := congrArg (fun id => id.text.toList[1]?) same
  simp [floatId, fractionId] at second

/-- A token, or the rule of a node. -/
def Reference.Proper : Reference → Prop
  | .rule id => NodeName id
  | .string | .number | .boolean | .float _ => True

theorem Reference.Proper.isName {reference : Reference} (proper : reference.Proper) :
    IsName reference.text := by
  cases reference with
  | string | number | boolean => exact (by decide)
  | float precision => exact isName_floatId precision
  | rule id => exact proper.readable

/-- Only references to nodes hold the letter p. -/
theorem NodeName.text_ne_token {id : RuleId} (named : NodeName id) {token : Reference}
    (other : ∀ node, token ≠ .rule node) : id.text ≠ token.text := by
  intro same
  have letter : 'p' ∈ token.text.toList := same ▸ named.letter
  cases token with
  | string | number | boolean => exact absurd letter (by decide)
  | float precision =>
      rw [Reference.text, floatId, String.toList_append, List.mem_append] at letter
      rcases letter with front | digits
      · exact absurd front (by decide)
      · exact absurd (isDigit_of_mem_toString digits) (by decide)
  | rule node => exact other node rfl

theorem floatId_text_ne (precision : Precision) {text : String}
    (other : text.toList.head? ≠ some 'f') : (floatId precision).text ≠ text := by
  intro same
  rw [← same] at other
  exact other (by simp [floatId])

theorem Reference.text_inj {left right : Reference} (leftProper : left.Proper)
    (rightProper : right.Proper) (same : left.text = right.text) : left = right := by
  cases left with
  | rule id =>
      cases right with
      | rule other => exact congrArg Reference.rule (RuleId.text_inj.mp same)
      | string | number | boolean | float =>
          exact absurd same (NodeName.text_ne_token leftProper (by simp))
  | string | number | boolean =>
      cases right with
      | string | number | boolean => first | rfl | exact absurd same (by decide)
      | float precision => exact absurd same.symm (floatId_text_ne precision (by decide))
      | rule id => exact absurd same.symm (NodeName.text_ne_token rightProper (by simp))
  | float precision =>
      cases right with
      | string | number | boolean => exact absurd same (floatId_text_ne precision (by decide))
      | float other => exact congrArg Reference.float (floatId_inj (RuleId.text_inj.mp same))
      | rule id => exact absurd same.symm (NodeName.text_ne_token rightProper (by simp))

/-- The names in a body are those that grammars give, and it has an alternative. -/
def Body.Proper : Body → Prop
  | .choice ids => ids ≠ [] ∧ ∀ id ∈ ids, IsName id.text
  | .call _ params => IsName params.text
  | .object fields => ∀ field ∈ fields, field.2.Proper
  | .array item => item.Proper
  | .enum values => values ≠ []
  | .fixedPoint _ | .fraction _ | .integerPart => True

structure Rule.Proper (rule : Rule) : Prop where
  id : IsName rule.id.text
  body : rule.body.Proper

/-- A node whose rule is proper, under a node's name. -/
structure Node.Proper (node : Node) : Prop where
  named : NodeName node.id
  body : node.rule.body.Proper

theorem reference_proper {id : RuleId} (named : NodeName id) (shape : Shape) :
    (reference id shape).Proper := by
  cases shape with
  | string | boolean | number | fixed => trivial
  | enum | array | object => exact named

theorem exists_of_mem_fieldShapes {fields : Fields} (valid : FieldsValid fields) {name : String}
    {shape : Shape} (member : (name, shape) ∈ fieldShapes fields) : isFieldName name = true ∧
      ∃ parameter : Parameter, parameter.Valid ∧ parameter.shape = shape := by
  induction fields with
  | nil => cases member
  | cons field rest ih =>
      obtain ⟨own, parameter⟩ := field
      obtain ⟨wellFormed, _, first, others⟩ := valid
      rcases List.mem_cons.mp member with same | later
      · cases same
        exact ⟨wellFormed, parameter, first, rfl⟩
      · exact ih others later

theorem fieldReferences_proper {id : RuleId} (named : NodeName id) {fields : Fields}
    (valid : FieldsValid fields) :
    ∀ field ∈ fieldReferences id (fieldShapes fields), field.2.Proper := by
  intro field member
  obtain ⟨⟨name, shape⟩, found, rfl⟩ := List.mem_map.mp member
  have wellFormed := (exists_of_mem_fieldShapes valid found).1
  exact reference_proper (named.child wellFormed) shape

/-- The types of nodes in valid schemas; a function may have no parameters. -/
inductive Composite.Valid : Composite → Prop where
  | enum {values : List String} (nonempty : values ≠ []) : Valid (.enum values)
  | array {element : Parameter} (valid : element.Valid) : Valid (.array element.shape)
  | object {fields : Fields} (valid : FieldsValid fields) : Valid (.object (fieldShapes fields))

theorem Composite.valid_of_shape {parameter : Parameter} (valid : parameter.Valid)
    {type : Composite} (same : parameter.shape = type.shape) : type.Valid := by
  cases parameter with
  | string | boolean | integer => cases type <;> cases same
  | float note precision => cases precision <;> cases type <;> cases same
  | enum note values =>
      obtain rfl : .enum values.values = type := Composite.shape_inj same
      exact .enum values.nonempty
  | array note element =>
      obtain rfl : .array element.shape = type := Composite.shape_inj same
      exact .array valid
  | object note fields =>
      obtain rfl : .object (fieldShapes fields) = type := Composite.shape_inj same
      exact .object valid.2

/-- What is right below a valid node has the shape of a valid parameter, at the path of the node's
element or at that of one of its fields. -/
theorem Child.exists_valid {node : Node} {id : RuleId} {shape : Shape} (below : Child node id shape)
    (valid : node.type.Valid) :
    (∃ parameter : Parameter, parameter.Valid ∧ parameter.shape = shape) ∧
      (id = node.id.element ∨ ∃ field, isFieldName field = true ∧ id = node.id.child field) := by
  cases below with
  | element typed =>
      rw [typed] at valid
      cases valid with
      | array valid => exact ⟨⟨_, valid, rfl⟩, .inl rfl⟩
  | field typed member =>
      rw [typed] at valid
      cases valid with
      | object valid =>
          obtain ⟨wellFormed, parameter⟩ := exists_of_mem_fieldShapes valid member
          exact ⟨parameter, .inr ⟨_, wellFormed, rfl⟩⟩

/-- Below a valid node all nodes are valid, and what the names of elements and fields have from the
names above them holds of all their names. -/
theorem valid_of_mem_nodes {motive : RuleId → Prop}
    (element : ∀ id : RuleId, motive id → motive id.element)
    (child : ∀ id field, isFieldName field = true → motive id → motive (id.child field))
    {id : RuleId} (own : motive id) {type : Composite} (valid : type.Valid) :
    ∀ node ∈ nodes id type.shape, motive node.id ∧ node.type.Valid := by
  refine nodes_induction (fun above inner innerType kept below => ?_) id type.shape
    fun other same => ?_
  · obtain ⟨⟨parameter, innerValid, same⟩, place⟩ := below.exists_valid kept.2
    refine ⟨?_, Composite.valid_of_shape innerValid same⟩
    rcases place with rfl | ⟨field, wellFormed, rfl⟩
    · exact element above.id kept.1
    · exact child above.id field wellFormed kept.1
  · cases Composite.shape_inj same
    exact ⟨own, valid⟩

theorem Node.proper_of_valid {node : Node} (named : NodeName node.id) (valid : node.type.Valid) :
    node.Proper := by
  obtain ⟨id, type⟩ := node
  refine ⟨named, ?_⟩
  cases valid with
  | enum nonempty => exact nonempty
  | array valid => exact reference_proper named.element _
  | object valid => exact fieldReferences_proper named valid

theorem proper_of_mem_functionNodes {function : FunctionSpec} (valid : function.Valid) :
    ∀ node ∈ functionNodes function, node.Proper := by
  intro node member
  obtain ⟨named, typed⟩ := valid_of_mem_nodes (motive := NodeName)
    (fun _ => NodeName.element) (fun _ _ wellFormed named => named.child wellFormed)
    (nodeName_paramsId valid) (.object valid.parameters) node member
  exact node.proper_of_valid named typed

theorem Registry.proper_of_mem {registry : Registry} {rule : Rule}
    (float : rule ∈ registry.rules) : rule.Proper := by
  rcases Registry.mem_rules.mp float with ⟨precision, _, rfl | rfl⟩ | ⟨_, rfl⟩
  · exact ⟨isName_floatId precision, trivial⟩
  · exact ⟨isName_fractionId precision, trivial⟩
  · exact ⟨by decide, trivial⟩

theorem proper_of_mem_emittedRules {functions : List FunctionSpec}
    (valid : ∀ function ∈ functions, function.Valid) {rule : Rule}
    (emitted : rule ∈ emittedRules functions) : rule.Proper := by
  rcases mem_emittedRules.mp emitted with ⟨function, member, rfl⟩ | ⟨node, member, rfl⟩ | float
  · exact ⟨isName_function (valid function member).name,
      (nodeName_paramsId (valid function member)).readable⟩
  · obtain ⟨function, found, inside⟩ := List.mem_flatMap.mp member
    have proper := proper_of_mem_functionNodes (valid function found) node inside
    exact ⟨proper.named.readable, proper.body⟩
  · exact Registry.proper_of_mem float

theorem proper_rootRule {functions : List FunctionSpec} (nonempty : functions ≠ [])
    (valid : ∀ function ∈ functions, function.Valid) : (rootRule functions).Proper := by
  have root : IsName rootId.text := by decide
  refine ⟨root, by simpa using nonempty, fun id member => ?_⟩
  obtain ⟨function, found, rfl⟩ := List.mem_map.mp member
  exact isName_function (valid function found).name

end ToolGrammar.Grammar
