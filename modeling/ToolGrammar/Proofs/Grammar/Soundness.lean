import ToolGrammar.Compilation
import ToolGrammar.Proofs.Grammar.Adequacy
import ToolGrammar.Proofs.Schema.Conformance

namespace ToolGrammar.Grammar

open Computability Schema Text
open Json (Content spaces structural unitTexts valueTexts itemTexts documentTexts digit)

/-- The UTF-16 code units of a text. -/
def stringUnits (text : String) : List Nat :=
  Json.textUnits text.toList

theorem stringUnits_inj {left right : String} (same : stringUnits left = stringUnits right) :
    left = right :=
  String.toList_inj.mp (Json.textUnits_inj same)

theorem stringText_mem (text : String) : stringText text ∈ unitTexts (stringUnits text) :=
  Json.denotesUnits_quotedChars text.toList

theorem stringText_le (text : String) : {stringText text} ≤ unitTexts (stringUnits text) :=
  Set.singleton_subset_iff.mpr (stringText_mem text)

theorem blanks_le_spaces : blanks ≤ spaces := by
  intro text member c inside
  rcases member c inside with rfl | rfl | rfl <;> rfl

theorem one_le_spaces : 1 ≤ spaces := by
  intro text empty
  rw [(Language.mem_one text).mp empty]
  exact List.forall_mem_nil _

theorem singleton_le_structural (c : Char) : {[c]} ≤ structural c := by
  have bare := mul_le_mul' (mul_le_mul' one_le_spaces (le_refl ({[c]} : Language Char)))
    one_le_spaces
  rwa [one_mul, mul_one] at bare

theorem singleton_mul_blanks_le (c : Char) : {[c]} * blanks ≤ structural c := by
  have bare := mul_le_mul' (mul_le_mul' one_le_spaces (le_refl ({[c]} : Language Char)))
    blanks_le_spaces
  rwa [one_mul] at bare

theorem blanks_mul_singleton_le (c : Char) : blanks * {[c]} ≤ structural c := by
  have bare := mul_le_mul' (mul_le_mul' blanks_le_spaces (le_refl ({[c]} : Language Char)))
    one_le_spaces
  rwa [mul_one] at bare

theorem commaTexts_le : commaTexts ≤ structural ',' :=
  singleton_mul_blanks_le ','

theorem keyText_mul_blanks_le (name : String) :
    {keyText name} * blanks ≤ unitTexts (stringUnits name) * structural ':' := by
  rw [keyText, singleton_append, mul_assoc]
  exact mul_le_mul' (stringText_le name) (singleton_mul_blanks_le ':')

theorem mem_hexTexts_pow_iff {text : List Char} :
    text ∈ hexTexts ^ 4 ↔ ∃ unit, Json.codeUnit? text = some unit := by
  rw [hexTexts, mem_oneChar_pow]
  constructor
  · intro digits
    obtain ⟨length, each⟩ := digits
    obtain ⟨a, b, c, d, rfl⟩ := List.length_eq_four.mp length
    simp only [List.mem_cons, List.not_mem_nil, or_false, forall_eq_or_imp, forall_eq,
      Option.isSome_iff_exists] at each
    obtain ⟨⟨a', readA⟩, ⟨b', readB⟩, ⟨c', readC⟩, ⟨d', readD⟩⟩ := each
    exact ⟨((a' * 16 + b') * 16 + c') * 16 + d',
      by simp [Json.codeUnit?, readA, readB, readC, readD]⟩
  · intro denoted
    obtain ⟨unit, value⟩ := denoted
    refine ⟨Json.length_of_codeUnit? value, ?_⟩
    unfold Json.codeUnit? at value
    split at value
    · simp only [bind, Option.bind_eq_some_iff] at value
      obtain ⟨a', readA, b', readB, c', readC, d', readD, _⟩ := value
      simp [readA, readB, readC, readD]
    · cases value

theorem stringPart_of_mem_escapeTexts {text : List Char} (member : text ∈ escapeTexts) :
    (∃ units, Json.StringPart text units) ∧ '\x7f' ∉ text := by
  obtain ⟨_, rfl, rest, escape, rfl⟩ := member
  have backslash : '\x7f' ∉ ['\\'] := by decide
  rcases (Language.mem_add _ _ _).mp escape with short | ⟨_, rfl, code, hex, rfl⟩
  · obtain ⟨letter, isShort, rfl⟩ := short
    obtain ⟨c, denoted⟩ := Option.isSome_iff_exists.mp isShort
    have visible : '\x7f' ∉ [letter] := by
      intro delete
      rw [← List.mem_singleton.mp delete] at isShort
      exact absurd isShort (by decide)
    exact ⟨⟨_, .escape denoted⟩, List.not_mem_append backslash visible⟩
  · obtain ⟨unit, value⟩ := mem_hexTexts_pow_iff.mp hex
    have letter : '\x7f' ∉ ['u'] := by decide
    have visible : '\x7f' ∉ code := by
      intro delete
      have digit := (mem_oneChar_pow.mp hex).2 _ delete
      exact absurd digit (by decide)
    exact ⟨⟨_, .code value⟩,
      List.not_mem_append backslash (List.not_mem_append letter visible)⟩

/-- The parts of the fragment's strings are those of JSON strings, less the character at U+007F. -/
theorem mem_parts_iff {text : List Char} :
    text ∈ plainTexts + escapeTexts ↔ (∃ units, Json.StringPart text units) ∧ '\x7f' ∉ text := by
  constructor
  · intro member
    rcases (Language.mem_add _ _ _).mp member with plain | escape
    · obtain ⟨c, isPlain, rfl⟩ := plain
      obtain ⟨unescaped, other⟩ := Bool.and_eq_true_iff.mp isPlain
      refine ⟨⟨_, .plain unescaped⟩, fun inside => ?_⟩
      exact bne_iff_ne.mp other (List.mem_singleton.mp inside).symm
    · exact stringPart_of_mem_escapeTexts escape
  · intro denoted
    obtain ⟨⟨units, part⟩, allowed⟩ := denoted
    cases part with
    | @plain c unescaped =>
        refine .inl ⟨c, ?_, rfl⟩
        have other : c ≠ '\x7f' := fun same => allowed (by simp [same])
        simp [unescaped, other]
    | escape denoted =>
        exact .inr ⟨_, rfl, _, .inl ⟨_, Option.isSome_iff_exists.mpr ⟨_, denoted⟩, rfl⟩, rfl⟩
    | code value =>
        exact .inr ⟨_, rfl, _, .inr ⟨_, rfl, _, mem_hexTexts_pow_iff.mpr ⟨_, value⟩, rfl⟩, rfl⟩

theorem mem_bodies_iff {body : List Char} :
    body ∈ (plainTexts + escapeTexts)∗ ↔
      (∃ units, Json.StringBody body units) ∧ '\x7f' ∉ body := by
  constructor
  · intro repeated
    obtain ⟨parts, rfl, each⟩ := repeated
    induction parts with
    | nil => exact ⟨⟨[], .nil⟩, by simp⟩
    | cons part parts ih =>
        obtain ⟨⟨units, denotes⟩, allowed⟩ := mem_parts_iff.mp (each part List.mem_cons_self)
        obtain ⟨⟨others, body⟩, allowedLater⟩ :=
          ih fun other found => each other (List.mem_cons_of_mem _ found)
        exact ⟨⟨units ++ others, .cons denotes body⟩, by simp [allowed, allowedLater]⟩
  · intro denoted
    obtain ⟨⟨units, denotes⟩, allowed⟩ := denoted
    induction denotes with
    | nil => exact Language.nil_mem_kstar _
    | cons part _ ih =>
        rw [List.mem_append, not_or] at allowed
        obtain ⟨parts, rfl, each⟩ := ih allowed.2
        refine ⟨_ :: parts, rfl, List.forall_mem_cons.mpr ⟨?_, each⟩⟩
        exact mem_parts_iff.mpr ⟨⟨_, part⟩, allowed.1⟩

/-- The strings of the fragment are the JSON strings without the character at U+007F. -/
theorem mem_stringTexts_iff {text : List Char} :
    text ∈ stringTexts ↔ (∃ units, Json.DenotesUnits text units) ∧ '\x7f' ∉ text := by
  constructor
  · intro quoted
    obtain ⟨_, ⟨_, rfl, body, inside, rfl⟩, _, rfl, rfl⟩ := quoted
    obtain ⟨⟨units, denotes⟩, allowed⟩ := mem_bodies_iff.mp inside
    exact ⟨⟨units, body, denotes, rfl⟩, by simp [allowed]⟩
  · intro denoted
    obtain ⟨⟨units, body, denotes, rfl⟩, allowed⟩ := denoted
    have inside : body ∈ (plainTexts + escapeTexts)∗ :=
      mem_bodies_iff.mpr ⟨⟨units, denotes⟩, fun found => allowed (by simp [found])⟩
    exact ⟨_, ⟨_, rfl, body, inside, rfl⟩, _, rfl, rfl⟩

theorem exists_items {element : Language Char} {allowed : Content (List Nat) → Prop}
    (each : ∀ text ∈ element, ∃ value, text ∈ valueTexts value ∧ allowed value) {text : List Char}
    (member : text ∈ arrayTexts element) :
    ∃ items, text ∈ valueTexts (.array items) ∧ ∀ item ∈ items, allowed item := by
  rw [arrayTexts, mul_assoc (_ * blanks * _)] at member
  refine exists_between (singleton_mul_blanks_le '[') (blanks_mul_singleton_le ']') ?_ member
  intro inner inside
  obtain ⟨n, inside⟩ := Language.mem_iSup.mp inside
  obtain ⟨items, inside, conform⟩ := exists_joined_replicate commaTexts_le each n inside
  exact ⟨items, by rwa [Json.itemTexts_eq], conform⟩

theorem exists_members {fields : Fields} {members : List (Language Char)}
    (each : List.Forall₂ (fun item field => ∀ text ∈ item, ∃ member : List Nat × Content (List Nat),
      text ∈ unitTexts member.1 * structural ':' * valueTexts member.2 ∧
        member.1 = stringUnits field.1 ∧ Conforms stringUnits field.2 member.2) members fields)
    {text : List Char} (member : text ∈ objectTexts members) :
    ∃ members, text ∈ valueTexts (.object members) ∧ FieldsConform stringUnits fields members := by
  have ending : (if members.isEmpty then 1 else blanks) * {['\x7d']} ≤ structural '\x7d' := by
    split
    · rw [one_mul]
      exact singleton_le_structural _
    · exact blanks_mul_singleton_le _
  rw [objectTexts, mul_assoc (_ * blanks * _)] at member
  refine exists_between (singleton_mul_blanks_le '\x7b') ending ?_ member
  intro inner inside
  obtain ⟨values, fit, inside⟩ := exists_joined commaTexts_le each inside
  exact ⟨values, by rwa [Json.memberTexts_eq], fieldsConform_of_forall₂ stringUnits fit⟩

mutual

theorem exists_conforming (parameter : Parameter) (plain : parameter.precisions = [])
    {text : List Char} (member : text ∈ parameterTexts parameter) :
    ∃ value, text ∈ valueTexts value ∧ Conforms stringUnits parameter value := by
  cases parameter with
  | string note =>
      obtain ⟨⟨units, denotes⟩, _⟩ := mem_stringTexts_iff.mp member
      exact ⟨.string units, denotes, units, rfl⟩
  | boolean note =>
      rcases (Language.mem_add _ _ _).mp member with rfl | rfl
      · exact ⟨.bool true, rfl, true, rfl⟩
      · exact ⟨.bool false, rfl, false, rfl⟩
  | integer note name => exact ⟨.number text, ⟨rfl, member⟩, text, member, rfl⟩
  | float note places =>
      cases places with
      | none => exact ⟨.number text, ⟨rfl, member⟩, text, member, rfl⟩
      | some precision => cases plain
  | enum note values =>
      obtain ⟨value, listed, rfl⟩ := member
      exact ⟨.string (stringUnits value), stringText_mem value, value, listed, rfl⟩
  | array note element =>
      obtain ⟨items, inside, conform⟩ := exists_items
        (fun text inside => exists_conforming element plain inside) member
      exact ⟨.array items, inside, items, rfl, conform⟩
  | object note fields =>
      obtain ⟨members, inside, conform⟩ := exists_members
        (exists_conforming_fields fields plain) member
      exact ⟨.object members, inside, members, rfl, conform⟩
termination_by structural parameter

theorem exists_conforming_fields (fields : Fields) (plain : fieldPrecisions fields = []) :
    List.Forall₂ (fun item field => ∀ text ∈ item, ∃ member : List Nat × Content (List Nat),
        text ∈ unitTexts member.1 * structural ':' * valueTexts member.2 ∧
          member.1 = stringUnits field.1 ∧ Conforms stringUnits field.2 member.2)
      (fieldTexts fields) fields := by
  match fields with
  | [] => exact .nil
  | (name, parameter) :: rest =>
      obtain ⟨first, others⟩ := List.append_eq_nil_iff.mp plain
      refine .cons (fun text member => ?_) (exists_conforming_fields rest others)
      obtain ⟨front, inFront, back, inBack, rfl⟩ := member
      obtain ⟨value, inside, conforms⟩ := exists_conforming parameter first inBack
      exact ⟨(stringUnits name, value),
        Language.append_mem_mul (keyText_mul_blanks_le name inFront) inside, rfl, conforms⟩
termination_by structural fields

end

theorem callTexts_eq (function : FunctionSpec) :
    callTexts function = {['\x7b']} * blanks * ({keyText "function"} * blanks *
      ({stringText function.name} * (commaTexts * ({keyText "params"} * blanks)))) *
      objectTexts (fieldTexts function.parameters) * {['\x7d']} := by
  simp only [callTexts, memberTexts, commaTexts, singleton_append, mul_assoc]

theorem documentTexts_callContent (name : String) (members : List (List Nat × Content (List Nat))) :
    documentTexts (callContent stringUnits name members) =
      spaces * structural '\x7b' * (unitTexts (stringUnits "function") * structural ':' *
        (unitTexts (stringUnits name) * (structural ',' *
          (unitTexts (stringUnits "params") * structural ':')))) *
        valueTexts (.object members) * (structural '\x7d' * spaces) := by
  simp only [documentTexts, callContent, valueTexts, Json.memberTexts, joined, mul_assoc]

/-- Every call denotes an object of the name and conforming parameters. -/
theorem exists_call (function : FunctionSpec) (plain : fieldPrecisions function.parameters = [])
    {text : List Char} (member : text ∈ callTexts function) :
    ∃ members, text ∈ documentTexts (callContent stringUnits function.name members) ∧
      FieldsConform stringUnits function.parameters members := by
  -- All white space of a call stands next to a structural character.
  have opening : {['\x7b']} * blanks ≤ spaces * structural '\x7b' := by
    have spaced := mul_le_mul' one_le_spaces (singleton_mul_blanks_le '\x7b')
    rwa [one_mul] at spaced
  have before := mul_le_mul' opening (mul_le_mul' (keyText_mul_blanks_le "function")
    (mul_le_mul' (stringText_le function.name)
      (mul_le_mul' commaTexts_le (keyText_mul_blanks_le "params"))))
  have after : {['\x7d']} ≤ structural '\x7d' * spaces := by
    have spaced := mul_le_mul' (singleton_le_structural '\x7d') one_le_spaces
    rwa [mul_one] at spaced
  rw [callTexts_eq] at member
  obtain ⟨members, inside, conform⟩ := exists_between before after
    (fun text inside => exists_members (exists_conforming_fields function.parameters plain) inside)
    member
  exact ⟨members, by rwa [documentTexts_callContent], conform⟩

theorem name_unique {name other : String}
    {members otherMembers : List (List Nat × Content (List Nat))} {text : List Char}
    (left : text ∈ documentTexts (callContent stringUnits name members))
    (right : text ∈ documentTexts (callContent stringUnits other otherMembers)) : name = other := by
  have absorbed : spaces * structural '\x7b' = structural '\x7b' := by
    rw [structural, ← mul_assoc, ← mul_assoc, Json.spaces_mul_spaces]
  rw [documentTexts_callContent, absorbed] at left right
  simp only [mul_assoc] at left right
  exact stringUnits_inj (Json.firstMember_unique left right)

theorem exists_compiled {functions : List FunctionSpec} {primitives : String}
    {compilation : Compilation}
    (success : Compilation.compile functions primitives = .ok compilation) :
    ∃ grammar, Compiled functions grammar ∧
      compilation.grammar = grammar.renderWith primitives := by
  unfold Compilation.compile at success
  cases compiled : compile functions with
  | error failure => simp [compiled, Except.map] at success
  | ok grammar =>
      simp only [compiled, Except.map, Except.ok.injEq] at success
      exact ⟨grammar, compiled_of_compile compiled, by rw [← success]; rfl⟩

/-- Every text that a compiled grammar derives is a JSON text of a call, of one function only. -/
theorem derived_text_denotes_call {functions : List FunctionSpec} {compilation : Compilation}
    (valid : ∀ function ∈ functions, function.Valid)
    (plain : ∀ function ∈ functions, fieldPrecisions function.parameters = [])
    (success : Compilation.compile functions primitiveGrammar = .ok compilation) :
    ∃ productions, Gbnf.read? compilation.grammar.toList = some productions ∧
      ∀ text, Gbnf.Derives productions (.reference "root") text →
        ∃! function, function ∈ functions ∧ ∃ members,
          text ∈ documentTexts (callContent stringUnits function.name members) ∧
            FieldsConform stringUnits function.parameters members := by
  obtain ⟨grammar, compiled, same⟩ := exists_compiled success
  rw [same]
  refine ⟨grammar.productions, compiled.read?_renderWith valid, fun text derived => ?_⟩
  obtain ⟨function, declared, call⟩ := (compiled.derives_root valid).mp derived
  obtain ⟨members, denotes, conform⟩ := exists_call function (plain function declared) call
  refine ⟨function, ⟨declared, members, denotes, conform⟩, ?_⟩
  intro other alike
  obtain ⟨otherDeclared, otherMembers, otherDenotes, _⟩ := alike
  exact List.inj_on_of_nodup_map compiled.names otherDeclared declared
    (name_unique otherDenotes denotes)

/-- A function without floats. -/
def greeting : FunctionSpec where
  name := "greet"
  description := ""
  parameters := [("name", .string .plain),
    ("tone", .enum .plain ⟨["kind", "\"rude\""], by decide, by decide⟩),
    ("times", .array .plain (.integer .plain .number))]

theorem greeting_valid : ∀ function ∈ [greeting], function.Valid := by
  decide

theorem compile_greeting :
    ∃ compilation, Compilation.compile [greeting] primitiveGrammar = .ok compilation := by
  have success : ∃ grammar, compile [greeting] = .ok grammar := ⟨_, by cbv⟩
  obtain ⟨grammar, success⟩ := success
  exact ⟨_, by rw [Compilation.compile, success]; rfl⟩

theorem derived_text_denotes_call_greeting :
    ∃ compilation, Compilation.compile [greeting] primitiveGrammar = .ok compilation ∧
      ∃ productions, Gbnf.read? compilation.grammar.toList = some productions ∧
        ∀ text, Gbnf.Derives productions (.reference "root") text →
          ∃! function, function ∈ [greeting] ∧ ∃ members,
            text ∈ documentTexts (callContent stringUnits function.name members) ∧
              FieldsConform stringUnits function.parameters members := by
  obtain ⟨compilation, success⟩ := compile_greeting
  have plain : ∀ function ∈ [greeting], fieldPrecisions function.parameters = [] := by
    intro function member
    rw [List.mem_singleton.mp member]
    rfl
  exact ⟨compilation, success, derived_text_denotes_call greeting_valid plain success⟩

end ToolGrammar.Grammar
