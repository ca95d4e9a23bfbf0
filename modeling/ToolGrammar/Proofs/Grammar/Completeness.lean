import ToolGrammar.Proofs.Grammar.Soundness

namespace ToolGrammar.Grammar

open Computability Schema Text
open Json (Content)

/-- The characters that stand for one character inside a string that the grammar leaves open. -/
def openEscapeChar (c : Char) : List Char :=
  if c = '\x7f' then "\\u007f".toList else Json.escapeChar c

def openStringText (text : String) : List Char :=
  '"' :: text.toList.flatMap openEscapeChar ++ ['"']

mutual

/-- The compact text of a value that conforms to the parameter. -/
def compactText : Parameter → Content String → List Char
  | .string _, .string text => openStringText text
  | .enum _ _, .string text => stringText text
  | .boolean _, .bool value => (if value then "true" else "false").toList
  | .integer .., .number text | .float .., .number text => text
  | .array _ element, .array items =>
      '[' :: [','].intercalate (items.map (compactText element)) ++ [']']
  | .object _ fields, .object members =>
      '\x7b' :: [','].intercalate (compactMembers fields members) ++ ['\x7d']
  | _, _ => []
termination_by structural parameter => parameter

def compactMembers : Fields → List (String × Content String) → List (List Char)
  | (_, parameter) :: rest, (key, value) :: others =>
      (keyText key ++ compactText parameter value) :: compactMembers rest others
  | _, _ => []
termination_by structural fields => fields

end

def compactCall (function : FunctionSpec) (members : List (String × Content String)) : List Char :=
  "\x7b\"function\":".toList ++ stringText function.name ++ ",\"params\":".toList ++
    compactText (.object .plain function.parameters) (.object members) ++ ['\x7d']

theorem delete_not_mem_escapeChar {c : Char} (other : c ≠ '\x7f') :
    '\x7f' ∉ Json.escapeChar c := by
  have codes : ∀ code < 0x20, '\x7f' ∉ Json.codeEscape (Char.ofNat code) := by decide
  unfold Json.escapeChar
  split
  case h_8 =>
    split
    · rename_i control
      simpa using codes c.toNat control
    · exact fun member => other (List.mem_singleton.mp member).symm
  all_goals decide

theorem openEscapeChar_mem (c : Char) : openEscapeChar c ∈ plainTexts + escapeTexts := by
  rw [mem_parts_iff, openEscapeChar]
  split
  · exact ⟨⟨[0x7f], .code rfl⟩, by decide⟩
  · rename_i other
    exact ⟨⟨_, Json.stringPart_escapeChar c⟩, delete_not_mem_escapeChar other⟩

theorem openStringText_mem (text : String) : openStringText text ∈ stringTexts := by
  have inside : text.toList.flatMap openEscapeChar ∈ (plainTexts + escapeTexts)∗ := by
    refine ⟨text.toList.map openEscapeChar, rfl, fun part member => ?_⟩
    obtain ⟨c, _, rfl⟩ := List.mem_map.mp member
    exact openEscapeChar_mem c
  exact ⟨_, ⟨_, rfl, _, inside, rfl⟩, _, rfl, rfl⟩

theorem wholeTexts_le_digits : Json.wholeTexts ≤ Json.digits := by
  intro text member
  rcases (Language.mem_add _ _ _).mp member with rfl | ⟨_, ⟨c, isDigit, rfl⟩, rest, more, rfl⟩
  · have zero : ['0'] ∈ Json.digit := ⟨'0', rfl, rfl⟩
    exact mem_mul_of_nil_mem zero (Language.nil_mem_kstar _)
  · exact Language.append_mem_mul ⟨c, (Bool.and_eq_true_iff.mp isDigit).1, rfl⟩ more

theorem nil_mem_blanks : [] ∈ blanks :=
  List.forall_mem_nil _

theorem comma_mem : [','] ∈ commaTexts :=
  mem_mul_of_nil_mem (mem_self _) nil_mem_blanks

theorem array_mem {element : Language Char} {texts : List (List Char)}
    (each : ∀ text ∈ texts, text ∈ element) :
    '[' :: [','].intercalate texts ++ [']'] ∈ arrayTexts element := by
  have members : List.Forall₂ (fun text item => text ∈ item) texts
      (List.replicate texts.length element) := by
    induction texts with
    | nil => exact .nil
    | cons text rest ih =>
        exact .cons (each text List.mem_cons_self)
          (ih fun other member => each other (List.mem_cons_of_mem text member))
  have items : [','].intercalate texts ∈ ⨆ n, joined commaTexts (List.replicate n element) :=
    Language.mem_iSup.mpr ⟨texts.length, intercalate_mem_joined comma_mem members⟩
  have opening := mem_mul_of_nil_mem (mem_self ['[']) nil_mem_blanks
  exact Language.append_mem_mul (mem_mul_of_nil_mem (Language.append_mem_mul opening items)
    nil_mem_blanks) (mem_self _)

theorem object_mem {members : List (Language Char)} {texts : List (List Char)}
    (each : List.Forall₂ (fun text item => text ∈ item) texts members) :
    '\x7b' :: [','].intercalate texts ++ ['\x7d'] ∈ objectTexts members := by
  have gap : [] ∈ (if members.isEmpty then 1 else blanks : Language Char) := by
    split
    · exact Language.nil_mem_one
    · exact nil_mem_blanks
  have opening := mem_mul_of_nil_mem (mem_self ['\x7b']) nil_mem_blanks
  have items := intercalate_mem_joined comma_mem each
  exact Language.append_mem_mul (mem_mul_of_nil_mem (Language.append_mem_mul opening items) gap)
    (mem_self _)

theorem member_mem (name : String) {value : Language Char} {text : List Char}
    (member : text ∈ value) : keyText name ++ text ∈ memberTexts name value :=
  Language.append_mem_mul (mem_mul_of_nil_mem (mem_self _) nil_mem_blanks) member

mutual

theorem compactText_mem (parameter : Parameter) {value : Content String}
    (conforms : Conforms id parameter value) :
    compactText parameter value ∈ parameterTexts parameter := by
  cases parameter with
  | string note =>
      obtain ⟨text, rfl⟩ := conforms
      exact openStringText_mem text
  | boolean note =>
      obtain ⟨truth, rfl⟩ := conforms
      cases truth with
      | true => exact .inl rfl
      | false => exact .inr rfl
  | integer note name =>
      obtain ⟨text, number, rfl⟩ := conforms
      exact number
  | float note places =>
      cases places with
      | none =>
          obtain ⟨text, number, rfl⟩ := conforms
          exact number
      | some precision =>
          obtain ⟨text, number, rfl⟩ := conforms
          exact mul_le_mul' (mul_le_mul' wholeTexts_le_digits le_rfl) le_rfl number
  | enum note values =>
      obtain ⟨listed, member, rfl⟩ := conforms
      exact ⟨listed, member, rfl⟩
  | array note element =>
      obtain ⟨items, rfl, each⟩ := conforms
      refine array_mem fun text member => ?_
      obtain ⟨item, found, rfl⟩ := List.mem_map.mp member
      exact compactText_mem element (each item found)
  | object note fields =>
      obtain ⟨members, rfl, conform⟩ := conforms
      exact object_mem (compactMembers_mem fields conform)
termination_by structural parameter

theorem compactMembers_mem (fields : Fields) {members : List (String × Content String)}
    (conform : FieldsConform id fields members) :
    List.Forall₂ (fun text item => text ∈ item) (compactMembers fields members)
      (fieldTexts fields) := by
  match fields with
  | [] => exact .nil
  | (name, parameter) :: rest =>
      obtain ⟨value, others, rfl, conforms, later⟩ := conform
      exact .cons (member_mem name (compactText_mem parameter conforms))
        (compactMembers_mem rest later)
termination_by structural fields

end

theorem compactCall_mem (function : FunctionSpec) {members : List (String × Content String)}
    (conform : FieldsConform id function.parameters members) :
    compactCall function members ∈ callTexts function := by
  have params : compactText (.object .plain function.parameters) (.object members) ∈
      objectTexts (fieldTexts function.parameters) :=
    object_mem (compactMembers_mem function.parameters conform)
  have opening := mem_mul_of_nil_mem (mem_self ['\x7b']) nil_mem_blanks
  have key := mem_mul_of_nil_mem (Language.append_mem_mul opening (mem_self (keyText "function")))
    nil_mem_blanks
  have name := mem_mul_of_nil_mem
    (Language.append_mem_mul key (mem_self (stringText function.name ++ [',']))) nil_mem_blanks
  have whole := Language.append_mem_mul
    (Language.append_mem_mul name (member_mem "params" params)) (mem_self ['\x7d'])
  have same : compactCall function members = ['\x7b'] ++ keyText "function" ++
      (stringText function.name ++ [',']) ++ (keyText "params" ++
        compactText (.object .plain function.parameters) (.object members)) ++ ['\x7d'] := by
    have first : "\x7b\"function\":".toList = ['\x7b'] ++ keyText "function" := rfl
    have second : ",\"params\":".toList = [','] ++ keyText "params" := rfl
    unfold compactCall
    generalize compactText (.object .plain function.parameters) (.object members) = params
    rw [first, second]
    simp only [List.append_assoc]
  rw [same]
  exact whole

/-- The compact text of every conforming call is derived by a compiled grammar. -/
theorem conforming_call_derived {functions : List FunctionSpec} {compilation : Compilation}
    (valid : ∀ function ∈ functions, function.Valid)
    (success : Compilation.compile functions primitiveGrammar = .ok compilation) :
    ∃ productions, Gbnf.read? compilation.grammar.toList = some productions ∧
      ∀ function ∈ functions, ∀ members, FieldsConform id function.parameters members →
        Gbnf.Derives productions (.reference "root") (compactCall function members) := by
  obtain ⟨grammar, compiled, same⟩ := exists_compiled success
  rw [same]
  refine ⟨grammar.productions, compiled.read?_renderWith valid, ?_⟩
  intro function declared members conform
  exact (compiled.derives_root valid).mpr ⟨function, declared, compactCall_mem function conform⟩

theorem zero_mem_numberTexts : ['0'] ∈ Json.numberTexts := by
  have whole : ['0'] ∈ (1 + {['-']}) * Json.wholeTexts :=
    Language.append_mem_mul (a := []) (.inl rfl) (.inl rfl)
  exact mem_mul_of_nil_mem (mem_mul_of_nil_mem whole (.inl rfl)) (.inl rfl)

theorem compile_measuring_primitives :
    ∃ compilation, Compilation.compile [measuring] primitiveGrammar = .ok compilation := by
  obtain ⟨grammar, success⟩ := compile_measuring
  exact ⟨_, by rw [Compilation.compile, success]; rfl⟩

theorem conforming_call_derived_measuring :
    ∃ compilation, Compilation.compile [measuring] primitiveGrammar = .ok compilation ∧
      ∃ productions, Gbnf.read? compilation.grammar.toList = some productions ∧
        Gbnf.Derives productions (.reference "root") (String.toList <|
          "\x7b\"function\":\"measure\",\"params\":\x7b\"unit\":\"\\\"ft\\\"\"," ++
          "\"place\":\x7b\"name\":\"a\\u007f\",\"indoor\":true\x7d," ++
          "\"samples\":[0.25],\"count\":0,\"scale\":0\x7d\x7d") := by
  obtain ⟨compilation, success⟩ := compile_measuring_primitives
  obtain ⟨productions, read, derived⟩ := conforming_call_derived measuring_valid success
  have sample : "0.25".toList ∈ Json.wholeTexts * {['.']} * Json.digit ^ 2 :=
    Language.append_mem_mul (a := ['0', '.']) (Language.append_mem_mul (a := ['0']) (.inl rfl) rfl)
      (mem_oneChar_pow.mpr ⟨rfl, List.all_eq_true.mp (by decide)⟩)
  have conform : FieldsConform id measuring.parameters [("unit", .string "\"ft\""),
      ("place", .object [("name", .string "a\x7f"), ("indoor", .bool true)]),
      ("samples", .array [.number "0.25".toList]), ("count", .number ['0']),
      ("scale", .number ['0'])] :=
    ⟨_, _, rfl, ⟨_, by decide, rfl⟩, _, _, rfl,
      ⟨_, rfl, _, _, rfl, ⟨_, rfl⟩, _, _, rfl, ⟨_, rfl⟩, rfl⟩, _, _, rfl,
      ⟨_, rfl, by simpa [Conforms] using sample⟩, _, _, rfl, ⟨_, zero_mem_numberTexts, rfl⟩,
      _, _, rfl, ⟨_, zero_mem_numberTexts, rfl⟩, rfl⟩
  have call := derived measuring List.mem_cons_self _ conform
  refine ⟨compilation, success, productions, read, ?_⟩
  convert call using 1
  decide +kernel

end ToolGrammar.Grammar
