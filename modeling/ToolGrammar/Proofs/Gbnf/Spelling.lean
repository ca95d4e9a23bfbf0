import ToolGrammar.Proofs.Gbnf.Lexing

namespace ToolGrammar.Gbnf

/-- The text is read as the items, whatever group they stand in. -/
def Spells (text : List Char) (items : List Item) : Prop :=
  ∃ tokens, Lexes text tokens ∧ ∀ frame outer rest,
    alternatives? frame outer (tokens ++ rest) =
      alternatives? ⟨frame.finished, items.reverse ++ frame.items⟩ outer rest

/-- The text is read as the alternatives of a production. -/
def SpellsAlternatives (text : List Char) (alternatives : List (List Item)) : Prop :=
  ∃ tokens, Lexes text tokens ∧ ∀ finished,
    alternatives? ⟨finished, []⟩ [] tokens = some (finished.reverse ++ alternatives)

theorem spells_name {name : String} (isName : IsName name) :
    Spells name.toList [.reference name] :=
  ⟨[.name name], lexes_name isName, fun _ _ _ => rfl⟩

theorem spells_literal (text : List Char) :
    Spells (Grammar.Literal.encode text) [.literal text] :=
  ⟨[.literal text], lexes_literal text, fun _ _ _ => rfl⟩

namespace Spells

variable {front back : List Char} {first second : List Item}

theorem spaced (left : Spells front first) (right : Spells back second) :
    Spells (front ++ ' ' :: back) (first ++ second) := by
  obtain ⟨firstTokens, firstLexes, firstRead⟩ := left
  obtain ⟨secondTokens, secondLexes, secondRead⟩ := right
  refine ⟨firstTokens ++ secondTokens, firstLexes.spaced secondLexes, fun frame outer rest => ?_⟩
  rw [List.append_assoc, firstRead, secondRead]
  simp

theorem nil : Spells [] [] :=
  ⟨[], Lexes.nil, fun _ _ _ => rfl⟩

/-- Words with a space between them spell the items of each. -/
theorem words {words : List (List Char)} {items : List (List Item)}
    (each : List.Forall₂ Spells words items) :
    Spells ([' '].intercalate words) items.flatten := by
  induction each with
  | nil => exact nil
  | cons head tail ih =>
      cases tail with
      | nil => simpa using head
      | cons next later =>
          rw [List.intercalate_cons_cons]
          simpa using head.spaced ih

theorem alternative (spells : Spells front first) : SpellsAlternatives front [first] := by
  obtain ⟨tokens, lexes, read⟩ := spells
  refine ⟨tokens, lexes, fun finished => ?_⟩
  have whole := read ⟨finished, []⟩ [] []
  rw [List.append_nil] at whole
  rw [whole]
  simp [alternatives?, Frame.alternatives, Frame.next]

theorem bar {alternatives : List (List Item)} (spells : Spells front first)
    (others : SpellsAlternatives back alternatives) :
    SpellsAlternatives (front ++ ' ' :: '|' :: ' ' :: back) (first :: alternatives) := by
  obtain ⟨tokens, lexes, read⟩ := spells
  obtain ⟨otherTokens, otherLexes, otherRead⟩ := others
  have barred : Lexes ('|' :: ' ' :: back) (.bar :: otherTokens) :=
    (lexes_sign rfl : Lexes ['|'] [.bar]).spaced otherLexes
  refine ⟨tokens ++ .bar :: otherTokens, lexes.spaced barred, fun finished => ?_⟩
  rw [read, alternatives?]
  simp only [Frame.next, otherRead]
  simp

end Spells

/-- A line end is no part of alternatives. -/
theorem lineEnd_not_mem_of_alternatives? {frame : Frame} {outer : List Frame} {tokens : List Token}
    {alternatives : List (List Item)}
    (read : alternatives? frame outer tokens = some alternatives) : .lineEnd ∉ tokens := by
  induction tokens generalizing frame outer with
  | nil => simp
  | cons token tokens ih =>
      cases token with
      | defines | lineEnd => simp [alternatives?] at read
      | name | literal | oneOf | bar | opening =>
          simp only [alternatives?] at read
          simpa using ih read
      | closing =>
          cases outer with
          | nil => simp [alternatives?] at read
          | cons around outer =>
              simp only [alternatives?] at read
              simpa using ih read
      | optional | star | plus =>
          simp only [alternatives?, Option.bind_eq_some_iff] at read
          obtain ⟨_, _, read⟩ := read
          simpa using ih read

/-- The text is read as the line of a production. -/
def SpellsProduction (line : List Char) (production : Production) : Prop :=
  ∃ tokens, Lexes line tokens ∧ .lineEnd ∉ tokens ∧ tokens ≠ [] ∧
    production? tokens = some production

theorem SpellsAlternatives.production {name : String} {text : List Char}
    {alternatives : List (List Item)} (isName : IsName name)
    (spells : SpellsAlternatives text alternatives) :
    SpellsProduction (name.toList ++ ' ' :: ("::=".toList ++ ' ' :: text))
      ⟨name, alternatives⟩ := by
  obtain ⟨tokens, lexes, read⟩ := spells
  have defines : Lexes "::=".toList [.defines] := Lexes.single rfl fun _ _ => rfl
  refine ⟨.name name :: .defines :: tokens, (lexes_name isName).spaced (defines.spaced lexes),
    ?_, by simp, ?_⟩
  · simpa using lineEnd_not_mem_of_alternatives? (read [])
  · rw [production?, Frame.fresh, read]
    rfl

/-- The production of a first line comes before those of the lines after it. -/
theorem read?_line {line : List Char} {production : Production}
    (spells : SpellsProduction line production) (rest : List Char) :
    read? (line ++ '\n' :: rest) = (read? rest).map (production :: ·) := by
  obtain ⟨tokens, lexes, inLine, nonempty, read⟩ := spells
  have ended : tokens? ('\n' :: rest) = (tokens? rest).map (.lineEnd :: ·) :=
    tokens?_cons rfl rfl
  rw [read?, lexes _ (bounded_cons.mpr rfl), ended, read?]
  -- The tokens of the line hold no line end, so the first piece of the tokens is the line.
  cases tokens? rest with
  | none => rfl
  | some others =>
      simp only [Option.map_some, Option.bind_some, productions?]
      rw [List.splitOn_append_cons_self_of_not_mem inLine, List.filter_cons_of_pos (by simpa),
        List.mapM_cons, read]
      cases List.mapM production? ((others.splitOn .lineEnd).filter fun line => !line.isEmpty) <;>
        rfl

theorem read?_lines {lines : List (List Char)} {productions : List Production}
    (each : List.Forall₂ SpellsProduction lines productions) (nonempty : lines ≠ [])
    (rest : List Char) :
    read? (['\n'].intercalate lines ++ '\n' :: rest) =
      (read? rest).map (productions ++ ·) := by
  induction each with
  | nil => exact absurd rfl nonempty
  | @cons line production lines productions first others ih =>
      cases others with
      | nil =>
          rw [List.intercalate_singleton, read?_line first]
          rfl
      | cons next later =>
          rw [List.intercalate_cons_cons, List.append_assoc, List.append_assoc,
            List.singleton_append, read?_line first, ih (by simp), Option.map_map]
          rfl

end ToolGrammar.Gbnf
