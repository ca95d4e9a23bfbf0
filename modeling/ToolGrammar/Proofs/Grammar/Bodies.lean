import ToolGrammar.Proofs.Grammar.Reading

namespace ToolGrammar.Gbnf

theorem SpellsAlternatives.unique {text : List Char} {first second : List (List Item)}
    (left : SpellsAlternatives text first) (right : SpellsAlternatives text second) :
    first = second := by
  obtain ⟨tokens, lexes, read⟩ := left
  obtain ⟨others, otherLexes, otherRead⟩ := right
  have same : some tokens = some others := by
    have whole := lexes [] bounded_nil
    rw [otherLexes [] bounded_nil, tokens?_nil] at whole
    simpa using whole.symm
  cases same
  have both := (read []).symm.trans (otherRead [])
  simpa using both

end ToolGrammar.Gbnf

namespace ToolGrammar.Grammar

open Gbnf

theorem stringText_append_inj {left right : String} {rest others : List Char}
    (same : stringText left ++ rest = stringText right ++ others) :
    left = right ∧ rest = others := by
  obtain ⟨texts, rests⟩ := Json.quotedChars_append_inj same
  exact ⟨String.toList_inj.mp texts, rests⟩

theorem stringText_inj {left right : String} :
    stringText left = stringText right ↔ left = right := by
  constructor
  · intro same
    exact (stringText_append_inj (congrArg (· ++ []) same)).1
  · exact congrArg stringText

theorem keyText_inj {left right : String} : keyText left = keyText right ↔ left = right := by
  constructor
  · intro same
    exact (stringText_append_inj same).1
  · exact congrArg keyText

theorem fieldItems_inj {left right : String × Reference} (leftProper : left.2.Proper)
    (rightProper : right.2.Proper) (same : fieldItems left = fieldItems right) : left = right := by
  obtain ⟨name, reference⟩ := left
  obtain ⟨otherName, other⟩ := right
  simp only [fieldItems, Reference.item, List.cons.injEq, Item.literal.injEq, keyText_inj,
    Item.reference.injEq, and_true, true_and] at same
  exact Prod.ext same.1 (Reference.text_inj leftProper rightProper same.2)

theorem fieldsItems_cons (field : String × Reference) (rest : List (String × Reference)) :
    fieldsItems (field :: rest) = fieldItems field ++
      (if rest.isEmpty then [] else [.literal [','], spaceItem]) ++ fieldsItems rest := by
  cases rest <;> simp [fieldsItems]

def closingItems (fields : List (String × Reference)) : List Item :=
  (if fields.isEmpty then [] else [spaceItem]) ++ [.literal ['\x7d']]

theorem fieldsItems_append_inj {left right : List (String × Reference)}
    (leftProper : ∀ field ∈ left, field.2.Proper) (rightProper : ∀ field ∈ right, field.2.Proper)
    (same : fieldsItems left ++ closingItems left = fieldsItems right ++ closingItems right) :
    left = right := by
  have fieldNe (field : String × Reference) (rest : List Item) :
      [.literal ['\x7d']] ≠ fieldItems field ++ rest := by
    simp [fieldItems, keyText, stringText, Json.quotedChars]
  induction left generalizing right with
  | nil =>
      cases right with
      | nil => rfl
      | cons field rest =>
          rw [fieldsItems_cons, List.append_assoc, List.append_assoc] at same
          exact absurd same (fieldNe field _)
  | cons field rest ih =>
      cases right with
      | nil =>
          rw [fieldsItems_cons, List.append_assoc, List.append_assoc] at same
          exact absurd same.symm (fieldNe field _)
      | cons other others =>
          rw [fieldsItems_cons, fieldsItems_cons] at same
          simp only [List.append_assoc] at same
          obtain ⟨heads, tails⟩ := List.append_inj same rfl
          obtain rfl := fieldItems_inj (leftProper field List.mem_cons_self)
            (rightProper other List.mem_cons_self) heads
          cases rest with
          | nil =>
              cases others with
              | nil => rfl
              | cons => simp [fieldsItems, closingItems, spaceItem] at tails
          | cons next later =>
              cases others with
              | nil => simp [fieldsItems, closingItems, spaceItem] at tails
              | cons =>
                  have rests := ih (fun field member => leftProper field (by simp [member]))
                    (fun field member => rightProper field (by simp [member]))
                    (List.append_cancel_left tails)
                  rw [rests]

inductive BodyKind where
  | choice
  | call
  | object
  | array
  | enum
  | fixedPoint
  | fraction
  | integerPart

def Body.kind : Body → BodyKind
  | .choice _ => .choice
  | .call .. => .call
  | .object _ => .object
  | .array _ => .array
  | .enum _ => .enum
  | .fixedPoint _ => .fixedPoint
  | .fraction _ => .fraction
  | .integerPart => .integerPart

/-- The kind that the first alternative shows. Calls and objects both open a brace, and differ in
what follows the first key. -/
def alternativesKind? : List (List Item) → Option BodyKind
  | [.reference _] :: _ => some .choice
  | (.reference _ :: _) :: _ => some .fixedPoint
  | (.oneOf _ :: _) :: _ => some .fraction
  | (.plus _ :: _) :: _ => some .integerPart
  | (.literal ('[' :: _) :: _) :: _ => some .array
  | (.literal ('"' :: _) :: _) :: _ => some .enum
  | (.literal ('\x7b' :: _) :: _ :: _ :: _ :: .literal _ :: _) :: _ => some .call
  | (.literal ('\x7b' :: _) :: _) :: _ => some .object
  | _ => none

theorem alternativesKind?_alternatives {body : Body} (proper : body.Proper) :
    alternativesKind? body.alternatives = some body.kind := by
  cases body with
  | choice ids =>
      obtain ⟨id, rest, rfl⟩ := List.exists_cons_of_ne_nil proper.1
      rfl
  | enum values =>
      obtain ⟨value, rest, rfl⟩ := List.exists_cons_of_ne_nil proper
      rfl
  | object fields =>
      match fields with
      | [] | [_] | _ :: _ :: _ => rfl
  | fraction precision =>
      obtain ⟨digits, same⟩ := Nat.exists_eq_succ_of_ne_zero precision.positive.ne'
      simp only [Body.alternatives, same, List.replicate_succ]
      rfl
  | call | array | fixedPoint | integerPart => rfl

theorem Body.alternatives_inj {left right : Body} (leftProper : left.Proper)
    (rightProper : right.Proper) (same : left.alternatives = right.alternatives) :
    left = right := by
  have kinds : left.kind = right.kind := by
    have read := alternativesKind?_alternatives leftProper
    rw [same, alternativesKind?_alternatives rightProper] at read
    exact (Option.some.inj read).symm
  cases left with
  | choice ids =>
      cases right with
      | choice others =>
          have injective : Function.Injective fun id : RuleId => [Item.reference id.text] := by
            intro id other equal
            simpa [RuleId.text_inj] using equal
          rw [injective.list_map same]
      | _ => cases kinds
  | call name params =>
      cases right with
      | call other others =>
          simp only [alternatives, List.cons.injEq, Item.literal.injEq, Item.reference.injEq,
            and_true, true_and] at same
          obtain ⟨names, texts⟩ := same
          rw [(stringText_append_inj names).1, RuleId.text_inj.mp texts]
      | _ => cases kinds
  | object fields =>
      cases right with
      | object others =>
          simp only [alternatives, List.cons.injEq, and_true, List.append_assoc] at same
          rw [fieldsItems_append_inj leftProper rightProper (List.append_cancel_left same)]
      | _ => cases kinds
  | array item =>
      cases right with
      | array other =>
          simp only [alternatives, itemsItem, Reference.item, List.cons.injEq,
            Item.optional.injEq, Item.group.injEq, Item.reference.injEq, and_true, true_and] at same
          rw [Reference.text_inj leftProper rightProper same.1]
      | _ => cases kinds
  | enum values =>
      cases right with
      | enum others =>
          have injective : Function.Injective fun value => [Item.literal (stringText value)] := by
            intro value other equal
            simpa [stringText_inj] using equal
          rw [injective.list_map same]
      | _ => cases kinds
  | fixedPoint precision =>
      cases right with
      | fixedPoint other =>
          simp only [alternatives, List.cons.injEq, Item.reference.injEq, and_true,
            true_and] at same
          rw [fractionId_inj (RuleId.text_inj.mp same)]
      | _ => cases kinds
  | fraction precision =>
      cases right with
      | fraction other =>
          have lengths := congrArg List.length (List.cons.inj same).1
          rw [List.length_replicate, List.length_replicate] at lengths
          rw [digits_inj lengths]
      | _ => cases kinds
  | integerPart =>
      cases right with
      | integerPart => rfl
      | _ => cases kinds

theorem Body.render_inj {left right : Body} (leftProper : left.Proper) (rightProper : right.Proper)
    (same : left.render = right.render) : left = right :=
  Body.alternatives_inj leftProper rightProper
    ((Body.spells leftProper).unique (same ▸ Body.spells rightProper))

end ToolGrammar.Grammar
