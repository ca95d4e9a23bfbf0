import ToolGrammar.Grammar.Primitives
import ToolGrammar.Proofs.Gbnf.Spelling
import ToolGrammar.Proofs.Grammar.Names
import ToolGrammar.Proofs.Json.Strings

namespace ToolGrammar.Grammar

open Gbnf

def digitChars : CharClass :=
  ⟨false, [('0', '9')]⟩

/-- A JSON string as it stands in a call. -/
def stringText (text : String) : List Char :=
  Json.quotedChars text.toList

def keyText (name : String) : List Char :=
  stringText name ++ [':']

def spaceItem : Item :=
  .reference space

def Reference.item (reference : Reference) : Item :=
  .reference reference.text

def fieldItems (field : String × Reference) : List Item :=
  [.literal (keyText field.1), spaceItem, field.2.item]

/-- The fields with a comma before each but the first. -/
def fieldsItems : List (String × Reference) → List Item
  | [] => []
  | [field] => fieldItems field
  | field :: rest => fieldItems field ++ [.literal [','], spaceItem] ++ fieldsItems rest

/-- One item or more with commas between them, or none. -/
def itemsItem (item : Item) : Item :=
  .optional (.group [[item, .star (.group [[.literal [','], spaceItem, item]])]])

def Body.alternatives : Body → List (List Item)
  | .choice ids => ids.map fun id => [.reference id.text]
  | .call name params =>
      [[.literal ['\x7b'], spaceItem, .literal (keyText "function"), spaceItem,
        .literal (stringText name ++ [',']), spaceItem, .literal (keyText "params"), spaceItem,
        .reference params.text, .literal ['\x7d']]]
  | .object fields =>
      [[.literal ['\x7b'], spaceItem] ++ fieldsItems fields ++
        (if fields.isEmpty then [] else [spaceItem]) ++ [.literal ['\x7d']]]
  | .array item =>
      [[.literal ['['], spaceItem, itemsItem item.item, spaceItem, .literal [']']]]
  | .enum values => values.map fun value => [.literal (stringText value)]
  | .fixedPoint precision =>
      [[.reference integerPartId.text, .literal ['.'], .reference (fractionId precision).text]]
  | .fraction precision => [List.replicate precision.digits (.oneOf digitChars)]
  | .integerPart => [[.plus (.oneOf digitChars)]]

def Rule.production (rule : Rule) : Production :=
  ⟨rule.id.text, rule.body.alternatives⟩

theorem spells_space : Spells space.toList [spaceItem] :=
  spells_name (by decide)

theorem spells_literalWord (word : String) :
    Spells (Literal.ofText word).toList [.literal word.toList] := by
  simpa [Literal.ofText] using spells_literal word.toList

theorem spells_objectKey (name : String) :
    Spells (Literal.objectKey name).toList [.literal (keyText name)] := by
  simpa [Literal.objectKey, keyText, stringText, Json.quoted] using
    spells_literalWord (Json.quoted name ++ ":")

theorem spells_functionName (name : String) :
    Spells (Literal.functionName name).toList [.literal (stringText name ++ [','])] := by
  simpa [Literal.functionName, stringText, Json.quoted] using
    spells_literalWord (Json.quoted name ++ ",")

theorem spells_jsonString (value : String) :
    Spells (Literal.jsonString value).toList [.literal (stringText value)] := by
  simpa [Literal.jsonString, stringText, Json.quoted] using
    spells_literalWord (Json.quoted value)

theorem lexes_digitClass : Lexes digitClass.toList [.oneOf digitChars] :=
  Lexes.single rfl fun _ _ => rfl

theorem spells_digitClass : Spells digitClass.toList [.oneOf digitChars] :=
  ⟨[.oneOf digitChars], lexes_digitClass, fun _ _ _ => rfl⟩

theorem Reference.Proper.spells {reference : Reference} (proper : reference.Proper) :
    Spells reference.text.toList [reference.item] :=
  spells_name proper.isName

theorem Body.render_toList (body : Body) :
    body.render.toList = [' '].intercalate (body.words.map String.toList) := by
  simp [Body.render]

theorem spells_fieldWords {fields : List (String × Reference)}
    (proper : ∀ field ∈ fields, field.2.Proper) :
    ∃ items : List (List Item), items.flatten = fieldsItems fields ∧
      List.Forall₂ Spells ((fieldWords fields).map String.toList) items := by
  induction fields with
  | nil => exact ⟨[], rfl, .nil⟩
  | cons field rest ih =>
      obtain ⟨name, reference⟩ := field
      have value := (proper _ List.mem_cons_self).spells
      obtain ⟨items, flattened, each⟩ := ih fun field member => proper field (by simp [member])
      cases rest with
      | nil =>
          exact ⟨[[_], [_], [_]], rfl,
            .cons (spells_objectKey name) (.cons spells_space (.cons value .nil))⟩
      | cons next later =>
          refine ⟨[_] :: [_] :: [_] :: [_] :: [_] :: items, ?_,
            .cons (spells_objectKey name) (.cons spells_space (.cons value
              (.cons (spells_literalWord ",") (.cons spells_space each))))⟩
          simp [flattened, fieldsItems, fieldItems]

/-- Words with bars between them are read as one alternative each. -/
theorem spells_alternatives {α : Type} {members : List α} {word : α → String} {item : α → Item}
    (each : ∀ member ∈ members, Spells (word member).toList [item member])
    (nonempty : members ≠ []) :
    SpellsAlternatives ([' '].intercalate ((alternatives (members.map word)).map String.toList))
      (members.map fun member => [item member]) := by
  induction members with
  | nil => exact absurd rfl nonempty
  | cons member rest ih =>
      have first := each member List.mem_cons_self
      cases rest with
      | nil => simpa [alternatives] using first.alternative
      | cons next later =>
          have others := ih (fun other found => each other (by simp [found])) (by simp)
          have words : alternatives ((member :: next :: later).map word) =
              word member :: "|" :: alternatives ((next :: later).map word) := rfl
          have some : (alternatives ((next :: later).map word)).map String.toList ≠ [] := by
            cases later <;> simp [alternatives]
          rw [words, List.map_cons, List.map_cons, List.intercalate_cons_cons,
            List.intercalate_cons_of_ne_nil some]
          simpa using first.bar others

theorem spells_objectWords {fields : List (String × Reference)}
    (proper : ∀ field ∈ fields, field.2.Proper) :
    Spells ([' '].intercalate ((Body.object fields).words.map String.toList))
      ([.literal ['\x7b'], spaceItem] ++ fieldsItems fields ++
        (if fields.isEmpty then [] else [spaceItem]) ++ [.literal ['\x7d']]) := by
  obtain ⟨items, flattened, each⟩ := spells_fieldWords proper
  have before : List.Forall₂ Spells ([Literal.ofText "\x7b", space].map String.toList)
      [[.literal ['\x7b']], [spaceItem]] :=
    .cons (spells_literalWord "\x7b") (.cons spells_space .nil)
  have after : List.Forall₂ Spells
      (((if fields.isEmpty then [] else [space]) ++ [Literal.ofText "\x7d"]).map String.toList)
      ((if fields.isEmpty then [] else [[spaceItem]]) ++ [[.literal ['\x7d']]]) := by
    have closing := List.Forall₂.cons (spells_literalWord "\x7d") .nil
    cases fields with
    | nil => exact closing
    | cons => exact .cons spells_space closing
  have whole := Spells.words (List.rel_append (List.rel_append before each) after)
  cases fields with
  | nil => simpa [Body.words, flattened] using whole
  | cons => simpa [Body.words, flattened] using whole

theorem spells_arrayWords {item : Reference} (proper : item.Proper) :
    SpellsAlternatives ([' '].intercalate ((Body.array item).words.map String.toList))
      (Body.array item).alternatives := by
  -- A group opens in one word and ends in another, so the words spell no items of their own.
  have blank : Lexes space.toList [.name space] := lexes_name (by decide)
  have comma : Lexes ("(" ++ Literal.ofText ",").toList [.opening, .literal [',']] := by
    have sign : Lexes ['('] [.opening] := lexes_sign rfl
    exact sign.append (lexes_literal [',']) (bounded_cons.mpr rfl)
  have others : Lexes (item.text ++ ")*").toList [.name item.text, .closing, .star] := by
    have signs : Lexes [')', '*'] [.closing, .star] :=
      (lexes_sign rfl : Lexes [')'] [.closing]).append (lexes_sign rfl) (bounded_cons.mpr rfl)
    rw [String.toList_append]
    exact (lexes_name proper.isName).append signs (bounded_cons.mpr rfl)
  have ending : Lexes ")?".toList [.closing, .optional] :=
    (lexes_sign rfl : Lexes [')'] [.closing]).append (lexes_sign rfl) (bounded_cons.mpr rfl)
  have opening : Lexes "(".toList [.opening] := lexes_sign rfl
  refine ⟨_, Lexes.words (.cons (lexes_literal ['[']) (.cons blank (.cons opening
    (.cons (lexes_name proper.isName) (.cons comma (.cons blank (.cons others (.cons ending
    (.cons blank (.cons (lexes_literal [']']) .nil)))))))))), fun finished => ?_⟩
  simp [alternatives?, Frame.push, Frame.fresh, Frame.modify?, Frame.alternatives, Frame.next,
    Body.alternatives, itemsItem, spaceItem, Reference.item]

theorem Body.spells {body : Body} (proper : body.Proper) :
    SpellsAlternatives body.render.toList body.alternatives := by
  rw [body.render_toList]
  cases body with
  | choice ids =>
      exact spells_alternatives (fun id member => spells_name (proper.2 id member)) proper.1
  | call name params =>
      exact (Spells.words (.cons (spells_literalWord "\x7b") (.cons spells_space
        (.cons (spells_objectKey "function") (.cons spells_space
        (.cons (spells_functionName name) (.cons spells_space
        (.cons (spells_objectKey "params") (.cons spells_space
        (.cons (spells_name proper) (.cons (spells_literalWord "\x7d") .nil))))))))))).alternative
  | object fields => exact (spells_objectWords proper).alternative
  | array item => exact spells_arrayWords proper
  | enum values => exact spells_alternatives (fun value _ => spells_jsonString value) proper
  | fixedPoint precision =>
      have whole : IsName integerPartId.text := by decide
      exact (Spells.words (.cons (spells_name whole) (.cons (spells_literalWord ".")
        (.cons (spells_name (isName_fractionId precision)) .nil)))).alternative
  | fraction precision =>
      have each : List.Forall₂ Spells
          ((List.replicate precision.digits digitClass).map String.toList)
          (List.replicate precision.digits [.oneOf digitChars]) := by
        induction precision.digits with
        | zero => exact .nil
        | succ digits ih => exact .cons spells_digitClass ih
      simpa [Body.words, Body.alternatives] using (Spells.words each).alternative
  | integerPart =>
      have lexes : Lexes (digitClass ++ "+").toList [.oneOf digitChars, .plus] := by
        rw [String.toList_append]
        exact lexes_digitClass.append (lexes_sign rfl) (bounded_cons.mpr rfl)
      refine ⟨_, lexes, fun finished => ?_⟩
      simp [alternatives?, Frame.push, Frame.modify?, Frame.alternatives, Frame.next,
        Body.alternatives]

theorem Rule.spells {rule : Rule} (proper : rule.Proper) :
    SpellsProduction rule.render.toList rule.production := by
  have line : rule.render.toList =
      rule.id.text.toList ++ ' ' :: ("::=".toList ++ ' ' :: rule.body.render.toList) := by
    simp [Rule.render]
  rw [line]
  exact (Body.spells proper.body).production proper.id

/-- The productions of the bundled fragment. -/
def fragment : List Production :=
  let hex : Item := .oneOf ⟨false, [('0', '9'), ('a', 'f'), ('A', 'F')]⟩
  let digit : Item := .oneOf digitChars
  [⟨space, [[.optional (.group [[.oneOf ⟨false, [(' ', ' '), ('\t', '\t'), ('\n', '\n')]⟩,
      spaceItem]])]]⟩,
    ⟨stringToken, [[.literal ['"'], .star (.group [
      [.oneOf ⟨true, [('"', '"'), ('\\', '\\'), ('\x7f', '\x7f'), ('\x00', '\x1f')]⟩],
      [.literal ['\\'], .group [
        [.oneOf ⟨false, "\"\\/bfnrt".toList.map fun c => (c, c)⟩],
        [.literal ['u'], hex, hex, hex, hex]]]]), .literal ['"']]]⟩,
    ⟨numberToken, [[.optional (.literal ['-']),
      .group [[digit], [.oneOf ⟨false, [('1', '9')]⟩, .star digit]],
      .optional (.group [[.literal ['.'], .plus digit]]),
      .optional (.group [[.oneOf ⟨false, [('e', 'e'), ('E', 'E')]⟩,
        .optional (.oneOf ⟨false, [('-', '-'), ('+', '+')]⟩), .plus digit]])]]⟩,
    ⟨booleanToken, [[.literal "true".toList], [.literal "false".toList]]⟩]

theorem read?_primitiveGrammar : read? primitiveGrammar.toList = some fragment := by
  rw [read?, primitiveGrammar, String.toList_append, String.toList_intercalate]
  cbv

theorem read?_renderWith {grammar : Grammar} (proper : ∀ rule ∈ grammar.rules, rule.Proper)
    (nonempty : grammar.rules ≠ []) :
    read? (grammar.renderWith primitiveGrammar).toList =
      some (grammar.rules.map Rule.production ++ fragment) := by
  have lines : List.Forall₂ SpellsProduction ((grammar.rules.map Rule.render).map String.toList)
      (grammar.rules.map Rule.production) := by
    rw [List.map_map, List.forall₂_map_left_iff, List.forall₂_map_right_iff, List.forall₂_same]
    exact fun rule member => Rule.spells (proper rule member)
  have text : (grammar.renderWith primitiveGrammar).toList =
      ['\n'].intercalate ((grammar.rules.map Rule.render).map String.toList) ++
        '\n' :: primitiveGrammar.toList := by
    have some : primitiveGrammar.isEmpty = false := by simp [primitiveGrammar]
    simp [renderWith, render, some]
  rw [text, read?_lines lines (by simpa using nonempty), read?_primitiveGrammar]
  rfl

end ToolGrammar.Grammar
