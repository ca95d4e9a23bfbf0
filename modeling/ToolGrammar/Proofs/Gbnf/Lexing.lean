import ToolGrammar.Proofs.Gbnf.Reader

namespace ToolGrammar.Gbnf

open Grammar.Literal (encode escapeChar escaped? decodeAfter)

/-- The text does not begin with a character of a name. -/
def Bounded (text : List Char) : Prop :=
  ∀ c ∈ text.head?, isNameChar c = false

/-- The text has the tokens before whatever does not go on with a character of a name. -/
def Lexes (text : List Char) (tokens : List Token) : Prop :=
  ∀ rest, Bounded rest → tokens? (text ++ rest) = (tokens? rest).map (tokens ++ ·)

/-- A text that is read as one name. -/
def IsName (text : String) : Prop :=
  text.toList ≠ [] ∧ ∀ c ∈ text.toList, isNameChar c = true

instance (text : String) : Decidable (IsName text) :=
  decidable_of_iff (text.toList ≠ [] ∧ text.toList.all isNameChar = true) (by simp [IsName])

theorem IsName.append {text rest : String} (name : IsName text)
    (inside : rest.toList.all isNameChar = true) : IsName (text ++ rest) := by
  refine ⟨by simp [name.1], fun c member => ?_⟩
  rw [String.toList_append, List.mem_append] at member
  exact member.elim (name.2 c) (List.all_eq_true.mp inside c)

theorem tokens?_nil : tokens? [] = some [] := by
  rw [tokens?]

theorem tokens?_blank {c : Char} {rest : List Char} (blank : isBlank c = true) :
    tokens? (c :: rest) = tokens? rest := by
  rw [tokens?, if_pos blank]

theorem tokens?_cons {c : Char} {rest after : List Char} {token : Token}
    (visible : isBlank c = false) (read : token? c rest = some (token, after)) :
    tokens? (c :: rest) = (tokens? after).map (token :: ·) := by
  rw [tokens?]
  simp only [visible, Bool.false_eq_true, if_false]
  split
  · rename_i found
    rw [read] at found
    cases found
    rfl
  · rename_i missing
    rw [read] at missing
    cases missing

theorem bounded_nil : Bounded [] := by
  simp [Bounded]

theorem bounded_cons {c : Char} {text : List Char} :
    Bounded (c :: text) ↔ isNameChar c = false := by
  simp [Bounded]

theorem Bounded.append {front back : List Char} (first : Bounded front) (second : Bounded back) :
    Bounded (front ++ back) := by
  cases front with
  | nil => exact second
  | cons c rest => exact bounded_cons.mpr (bounded_cons.mp first)

namespace Lexes

variable {front back : List Char} {first second : List Token}

theorem nil : Lexes [] [] := by
  intro rest _
  simp

theorem single {c : Char} {text : List Char} {token : Token} (visible : isBlank c = false)
    (read : ∀ rest, Bounded rest → token? c (text ++ rest) = some (token, rest)) :
    Lexes (c :: text) [token] := by
  intro rest bounded
  rw [List.cons_append, tokens?_cons visible (read rest bounded)]
  rfl

theorem append (left : Lexes front first) (right : Lexes back second) (bounded : Bounded back) :
    Lexes (front ++ back) (first ++ second) := by
  intro rest boundedRest
  rw [List.append_assoc, left _ (bounded.append boundedRest), right rest boundedRest]
  simp [Function.comp_def]

theorem spaced (left : Lexes front first) (right : Lexes back second) :
    Lexes (front ++ ' ' :: back) (first ++ second) := by
  have blank : Lexes (' ' :: back) second := by
    intro rest boundedRest
    rw [List.cons_append, tokens?_blank rfl, right rest boundedRest]
  exact left.append blank (bounded_cons.mpr rfl)

/-- Words with a space between them have the tokens of the words. -/
theorem words {words : List (List Char)} {tokens : List (List Token)}
    (each : List.Forall₂ Lexes words tokens) :
    Lexes ([' '].intercalate words) tokens.flatten := by
  induction each with
  | nil => exact nil
  | @cons word own words tokens first others ih =>
      cases others with
      | nil => simpa using first
      | cons next later =>
          rw [List.intercalate_cons_cons]
          simpa using first.spaced ih

end Lexes

theorem lexes_name {text : String} (name : IsName text) : Lexes text.toList [.name text] := by
  obtain ⟨nonempty, chars⟩ := name
  obtain ⟨c, others, split⟩ := List.exists_cons_of_ne_nil nonempty
  rw [split] at chars ⊢
  have named : isNameChar c = true := chars c (by simp)
  have inside : ∀ other ∈ others, isNameChar other = true :=
    fun other member => chars other (by simp [member])
  have visible : isBlank c = false := by
    by_contra blank
    simp only [isBlank, Bool.not_eq_false, Bool.or_eq_true, beq_iff_eq] at blank
    rcases blank with rfl | rfl <;> exact absurd named (by decide)
  refine Lexes.single visible fun rest bounded => ?_
  have taken : (others ++ rest).takeWhile isNameChar = others := by
    rw [List.takeWhile_append_of_pos inside]
    cases rest with
    | nil => simp
    | cons next rest => simp [bounded_cons.mp bounded]
  have dropped : (others ++ rest).dropWhile isNameChar = rest := by
    rw [List.dropWhile_append_of_pos inside]
    cases rest with
    | nil => simp
    | cons next rest => simp [bounded_cons.mp bounded]
  unfold token?
  rw [if_pos named, taken, dropped, ← split, String.ofList_toList]

theorem lexes_sign {c : Char} {token : Token} (sign : sign? c = some token) :
    Lexes [c] [token] := by
  have cases : c = '|' ∨ c = '(' ∨ c = ')' ∨ c = '?' ∨ c = '*' ∨ c = '+' ∨ c = '\n' := by
    unfold sign? at sign
    split at sign <;> simp_all
  refine Lexes.single ?_ fun rest _ => ?_ <;>
    rcases cases with rfl | rfl | rfl | rfl | rfl | rfl | rfl <;>
    first | rfl | simpa [token?, isNameChar] using sign

theorem decodeAfter_escapeChar (c : Char) (rest : List Char) :
    decodeAfter (escapeChar c ++ rest) =
      (decodeAfter rest).map fun (text, after) => (c :: text, after) := by
  unfold escapeChar
  split
  all_goals simp_all [decodeAfter, escaped?, Option.map_eq_bind]

theorem decodeAfter_escaped (text rest : List Char) :
    decodeAfter (text.flatMap escapeChar ++ '"' :: rest) = some (text, rest) := by
  induction text with
  | nil => rfl
  | cons c text ih =>
      rw [List.flatMap_cons, List.append_assoc, decodeAfter_escapeChar, ih]
      rfl

theorem lexes_literal (text : List Char) : Lexes (encode text) [.literal text] := by
  refine Lexes.single rfl fun rest _ => ?_
  have quote : isNameChar '"' = false := rfl
  have whole : text.flatMap escapeChar ++ ['"'] ++ rest =
      text.flatMap escapeChar ++ '"' :: rest := by simp
  unfold token?
  rw [if_neg (by simp [quote])]
  change (decodeAfter (text.flatMap escapeChar ++ ['"'] ++ rest)).map _ = _
  rw [whole, decodeAfter_escaped]
  rfl

end ToolGrammar.Gbnf
