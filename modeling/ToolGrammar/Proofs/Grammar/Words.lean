import ToolGrammar.Proofs.Grammar.Reading

/-!
Bodies taken apart. The text of a body is words with a space between them, and a word is made of
literals and of tokens. A scan that reads every literal by the rules of escapes finds the pieces
that a body was made of, so no other pieces make up its text.
-/
namespace ToolGrammar.Grammar

open Gbnf (IsName decodeAfter_shorter decodeAfter_escaped)

/-- Characters with neither a space, a line feed nor a quote among them, or a literal by the text
that it stands for. -/
inductive Piece where
  | token (text : List Char)
  | literal (text : List Char)
  deriving DecidableEq, Repr

def Piece.chars : Piece → List Char
  | .token text => text
  | .literal text => Literal.encode text

/-- Pieces without a space between them. -/
abbrev Word := List Piece

namespace Word

def chars (word : Word) : List Char :=
  word.flatMap Piece.chars

def isTokenChar (c : Char) : Bool :=
  c != ' ' && c != '\n' && c != '"'

structure TokenText (text : List Char) : Prop where
  nonempty : text ≠ []
  plain : text.all isTokenChar = true

/-- The word does not begin with a token. -/
def Bounded (word : Word) : Prop :=
  ∀ text rest, word ≠ .token text :: rest

/-- Tokens are texts of tokens, and none follows another at once. -/
inductive Proper : Word → Prop
  | nil : Proper []
  | literal (text : List Char) {word : Word} (rest : Proper word) : Proper (.literal text :: word)
  | token {text : List Char} {word : Word} (isText : TokenText text) (bounded : Bounded word)
      (rest : Proper word) : Proper (.token text :: word)

theorem bounded_nil : Bounded [] := by
  simp [Bounded]

theorem bounded_literal (text : List Char) (rest : Word) : Bounded (.literal text :: rest) := by
  simp [Bounded]

theorem lineFeed_not_mem_encode (text : List Char) : '\n' ∉ Literal.encode text := by
  have escaped (c : Char) : '\n' ∉ Literal.escapeChar c := by
    unfold Literal.escapeChar
    split
    · decide
    · decide
    · decide
    · decide
    · decide
    · rename_i other _ _
      simpa [eq_comm] using other
  simp [Literal.encode, escaped]

theorem Proper.lineFeed_not_mem {word : Word} (proper : Proper word) : '\n' ∉ chars word := by
  induction proper with
  | nil => simp [chars]
  | literal text rest ih =>
      rw [chars, List.flatMap_cons, List.mem_append]
      exact not_or.mpr ⟨lineFeed_not_mem_encode text, ih⟩
  | token isText bounded rest ih =>
      rw [chars, List.flatMap_cons, List.mem_append]
      refine not_or.mpr ⟨fun member => ?_, ih⟩
      exact absurd (List.all_eq_true.mp isText.plain _ member) (by decide)

def addChar (c : Char) : Word → Word
  | .token text :: rest => .token (c :: text) :: rest
  | word => .token [c] :: word

theorem addChar_of_bounded (c : Char) {word : Word} (bounded : Bounded word) :
    addChar c word = .token [c] :: word := by
  cases word with
  | nil => rfl
  | cons piece rest =>
      cases piece with
      | token text => exact absurd rfl (bounded text rest)
      | literal text => rfl

/-- The first word of a text and the words after it. A space ends a word, and a quote opens a
literal, which the rules of escapes read up to its closing quote. -/
def scan? (text : List Char) : Option (Word × List Word) :=
  match text with
  | [] => some ([], [])
  | c :: rest =>
      if c = ' ' then (scan? rest).map fun (first, others) => ([], first :: others)
      else if c = '"' then
        match _read : Literal.decodeAfter rest with
        | some (content, after) =>
            (scan? after).map fun (first, others) => (.literal content :: first, others)
        | none => none
      else (scan? rest).map fun (first, others) => (addChar c first, others)
termination_by text.length
decreasing_by
  · simp
  · exact Nat.lt_succ_of_lt (decodeAfter_shorter _read)
  · simp

theorem scan?_nil : scan? [] = some ([], []) := by
  rw [scan?]

theorem scan?_space (rest : List Char) :
    scan? (' ' :: rest) = (scan? rest).map fun (first, others) => ([], first :: others) := by
  rw [scan?, if_pos rfl]

variable {first : Word} {others : List Word} {rest : List Char}

theorem scan?_literal (text : List Char) (read : scan? rest = some (first, others)) :
    scan? (Literal.encode text ++ rest) = some (.literal text :: first, others) := by
  have whole : Literal.encode text ++ rest =
      '"' :: (text.flatMap Literal.escapeChar ++ '"' :: rest) := by
    simp [Literal.encode]
  rw [whole, scan?, if_neg (by decide), if_pos rfl]
  split
  · rename_i content after found
    rw [decodeAfter_escaped] at found
    cases found
    rw [read]
    rfl
  · rename_i missing
    rw [decodeAfter_escaped] at missing
    cases missing

theorem scan?_char {c : Char} (plain : isTokenChar c = true)
    (read : scan? rest = some (first, others)) :
    scan? (c :: rest) = some (addChar c first, others) := by
  simp only [isTokenChar, Bool.and_eq_true, bne_iff_ne] at plain
  rw [scan?, if_neg plain.1.1, if_neg plain.2, read]
  rfl

theorem scan?_token {text : List Char} (isText : TokenText text) (bounded : Bounded first)
    (read : scan? rest = some (first, others)) :
    scan? (text ++ rest) = some (.token text :: first, others) := by
  obtain ⟨nonempty, plain⟩ := isText
  induction text with
  | nil => exact absurd rfl nonempty
  | cons c text ih =>
      rw [List.all_cons, Bool.and_eq_true] at plain
      obtain ⟨visible, plain⟩ := plain
      cases text with
      | nil =>
          rw [List.cons_append, List.nil_append, scan?_char visible read,
            addChar_of_bounded c bounded]
      | cons next text =>
          rw [List.cons_append, scan?_char visible (ih (List.cons_ne_nil next text) plain)]
          rfl

theorem scan?_word {word : Word} (proper : Proper word) (read : scan? rest = some ([], others)) :
    scan? (chars word ++ rest) = some (word, others) := by
  induction proper with
  | nil => exact read
  | literal text _ ih =>
      rw [chars, List.flatMap_cons, List.append_assoc]
      exact scan?_literal text ih
  | token isText bounded _ ih =>
      rw [chars, List.flatMap_cons, List.append_assoc]
      exact scan?_token isText bounded ih

theorem scan?_intercalate (word : Word) (words : List Word)
    (proper : ∀ member ∈ word :: words, Proper member) :
    scan? ([' '].intercalate ((word :: words).map chars)) = some (word, words) := by
  induction words generalizing word with
  | nil =>
      have own := scan?_word (proper word List.mem_cons_self) scan?_nil
      simpa using own
  | cons next words ih =>
      obtain ⟨own, later⟩ := List.forall_mem_cons.mp proper
      have spaced : scan? (' ' :: [' '].intercalate ((next :: words).map chars)) =
          some ([], next :: words) := by
        rw [scan?_space, ih next later]
        rfl
      rw [List.map_cons, List.map_cons, List.intercalate_cons_cons, List.append_assoc]
      exact scan?_word own spaced

end Word

/-- The words of a text. -/
def words? (text : List Char) : Option (List Word) :=
  (Word.scan? text).map fun (first, others) => first :: others

/-- The text is these words with a space between them. -/
structure Splits (text : List Char) (words : List Word) : Prop where
  nonempty : words ≠ []
  proper : ∀ word ∈ words, Word.Proper word
  text : [' '].intercalate (words.map Word.chars) = text

theorem Splits.words?_eq {text : List Char} {words : List Word} (splits : Splits text words) :
    words? text = some words := by
  obtain ⟨nonempty, proper, rfl⟩ := splits
  obtain ⟨word, words, rfl⟩ := List.exists_cons_of_ne_nil nonempty
  rw [words?, Word.scan?_intercalate word words proper]
  rfl

theorem Splits.unique {text : List Char} {words others : List Word} (splits : Splits text words)
    (otherSplits : Splits text others) : words = others := by
  have same := splits.words?_eq
  rw [otherSplits.words?_eq] at same
  exact (Option.some.inj same).symm

theorem lineFeed_not_mem_intercalate {lines : List (List Char)}
    (each : ∀ line ∈ lines, '\n' ∉ line) : '\n' ∉ [' '].intercalate lines := by
  induction lines with
  | nil => simp
  | cons line rest ih =>
      obtain ⟨own, later⟩ := List.forall_mem_cons.mp each
      cases rest with
      | nil => simpa using own
      | cons next rest =>
          rw [List.intercalate_cons_cons, List.mem_append, List.mem_append]
          exact not_or.mpr ⟨not_or.mpr ⟨own, by decide⟩, ih later⟩

theorem Splits.lineFeed_not_mem {text : List Char} {words : List Word}
    (splits : Splits text words) : '\n' ∉ text := by
  obtain ⟨_, proper, rfl⟩ := splits
  refine lineFeed_not_mem_intercalate fun line member => ?_
  obtain ⟨word, found, rfl⟩ := List.mem_map.mp member
  exact (proper word found).lineFeed_not_mem

def spaceWord : Word :=
  [.token space.toList]

def nameWord (name : String) : Word :=
  [.token name.toList]

def literalWord (text : List Char) : Word :=
  [.literal text]

/-- Words with a bar between them. -/
def barred (words : List Word) : List Word :=
  words.intersperse (nameWord "|")

def fieldPieces : List (String × Reference) → List Word
  | [] => []
  | [(name, reference)] => [literalWord (keyText name), spaceWord, nameWord reference.text]
  | (name, reference) :: rest =>
      [literalWord (keyText name), spaceWord, nameWord reference.text, literalWord [','],
        spaceWord] ++ fieldPieces rest

/-- The words that the text of a body is made of. -/
def Body.pieces : Body → List Word
  | .choice ids => barred (ids.map fun id => nameWord id.text)
  | .call name params =>
      [literalWord ['\x7b'], spaceWord, literalWord (keyText "function"), spaceWord,
        literalWord (stringText name ++ [',']), spaceWord, literalWord (keyText "params"),
        spaceWord, nameWord params.text, literalWord ['\x7d']]
  | .object fields =>
      [literalWord ['\x7b'], spaceWord] ++ fieldPieces fields ++
        (if fields.isEmpty then [] else [spaceWord]) ++ [literalWord ['\x7d']]
  | .array item =>
      [literalWord ['['], spaceWord, nameWord "(", nameWord item.text,
        [.token ['('], .literal [',']], spaceWord, nameWord (item.text ++ ")*"), nameWord ")?",
        spaceWord, literalWord [']']]
  | .enum values => barred (values.map fun value => literalWord (stringText value))
  | .fixedPoint precision =>
      [nameWord integerPartId.text, literalWord ['.'], nameWord (fractionId precision).text]
  | .fraction precision => List.replicate precision.digits (nameWord digitClass)
  | .integerPart => [nameWord (digitClass ++ "+")]

theorem map_intersperse {α β : Type} (f : α → β) (separator : α) (items : List α) :
    (items.intersperse separator).map f = (items.map f).intersperse (f separator) := by
  induction items with
  | nil => rfl
  | cons item rest ih =>
      cases rest with
      | nil => rfl
      | cons next rest => simpa using ih

theorem mem_of_mem_intersperse {α : Type} {separator item : α} {items : List α}
    (member : item ∈ items.intersperse separator) : item = separator ∨ item ∈ items := by
  induction items with
  | nil => cases member
  | cons first rest ih =>
      cases rest with
      | nil => exact .inr member
      | cons next rest =>
          rw [List.intersperse_cons_cons, List.mem_cons, List.mem_cons] at member
          rcases member with own | bar | later
          · exact .inr (own ▸ List.mem_cons_self)
          · exact .inl bar
          · exact (ih later).imp_right (List.mem_cons_of_mem first)

namespace Word

@[simp] theorem chars_nameWord (name : String) : chars (nameWord name) = name.toList := by
  simp [chars, nameWord, Piece.chars]

@[simp] theorem chars_spaceWord : chars spaceWord = space.toList :=
  chars_nameWord space

@[simp] theorem chars_literalWord (text : List Char) :
    chars (literalWord text) = Literal.encode text := by
  simp [chars, literalWord, Piece.chars]

theorem proper_literalWord (text : List Char) : Proper (literalWord text) :=
  .literal text .nil

theorem TokenText.proper {name : String} (isText : TokenText name.toList) :
    Proper (nameWord name) :=
  .token isText bounded_nil .nil

theorem tokenText_of_isName {name : String} (isName : IsName name) : TokenText name.toList := by
  refine ⟨isName.1, List.all_eq_true.mpr fun c member => ?_⟩
  have inside := isName.2 c member
  simp only [isTokenChar, Bool.and_eq_true, bne_iff_ne]
  refine ⟨⟨?_, ?_⟩, ?_⟩ <;> rintro rfl <;> exact absurd inside (by decide)

theorem proper_of_isName {name : String} (isName : IsName name) : Proper (nameWord name) :=
  (tokenText_of_isName isName).proper

theorem proper_spaceWord : Proper spaceWord :=
  proper_of_isName (by decide)

end Word

theorem decode?_encode (text rest : List Char) :
    Literal.decode? (Literal.encode text ++ rest) = some (text, rest) := by
  have whole : Literal.encode text ++ rest =
      '"' :: (text.flatMap Literal.escapeChar ++ '"' :: rest) := by simp [Literal.encode]
  rw [whole, Literal.decode?]
  exact decodeAfter_escaped text rest

theorem toList_ofText (text : String) :
    (Literal.ofText text).toList = Literal.encode text.toList := by
  simp [Literal.ofText]

theorem toList_objectKey (name : String) :
    (Literal.objectKey name).toList = Literal.encode (keyText name) := by
  simp [Literal.objectKey, toList_ofText, keyText, stringText, Json.quoted]

theorem toList_functionName (name : String) :
    (Literal.functionName name).toList = Literal.encode (stringText name ++ [',']) := by
  simp [Literal.functionName, toList_ofText, stringText, Json.quoted]

theorem toList_jsonString (value : String) :
    (Literal.jsonString value).toList = Literal.encode (stringText value) := by
  simp [Literal.jsonString, toList_ofText, stringText, Json.quoted]

theorem fieldWords_toList (fields : List (String × Reference)) :
    (fieldWords fields).map String.toList = (fieldPieces fields).map Word.chars := by
  induction fields with
  | nil => rfl
  | cons field rest ih =>
      obtain ⟨name, reference⟩ := field
      cases rest with
      | nil => simp [fieldWords, fieldPieces, toList_objectKey]
      | cons next rest => simp [fieldWords, fieldPieces, toList_objectKey, toList_ofText, ih]

/-- The words of a body are spelled by its pieces. -/
theorem Body.words_toList (body : Body) :
    body.words.map String.toList = body.pieces.map Word.chars := by
  cases body with
  | choice ids =>
      simp [words, pieces, Grammar.alternatives, barred, map_intersperse, Function.comp_def]
  | enum values =>
      simp [words, pieces, Grammar.alternatives, barred, map_intersperse, Function.comp_def,
        toList_jsonString]
  | object fields =>
      cases fields <;> simp [words, pieces, fieldWords_toList, toList_ofText]
  | call name params =>
      simp [words, pieces, toList_ofText, toList_objectKey, toList_functionName]
  | array item =>
      simp [words, pieces, toList_ofText, Word.chars, nameWord, spaceWord, literalWord, Piece.chars]
  | fixedPoint precision => simp [words, pieces, toList_ofText]
  | fraction precision => simp [words, pieces]
  | integerPart => simp [words, pieces]

theorem proper_barred {words : List Word} (each : ∀ word ∈ words, Word.Proper word) :
    ∀ word ∈ barred words, Word.Proper word := by
  intro word member
  rcases mem_of_mem_intersperse member with rfl | own
  · exact Word.TokenText.proper ⟨by decide, by decide⟩
  · exact each word own

theorem proper_fieldPieces {fields : List (String × Reference)}
    (proper : ∀ field ∈ fields, field.2.Proper) :
    ∀ word ∈ fieldPieces fields, Word.Proper word := by
  induction fields with
  | nil => simp [fieldPieces]
  | cons field rest ih =>
      obtain ⟨name, reference⟩ := field
      obtain ⟨own, later⟩ := List.forall_mem_cons.mp proper
      have value := Word.proper_of_isName own.isName
      cases rest with
      | nil =>
          simp [fieldPieces, Word.proper_literalWord, Word.proper_spaceWord, value]
      | cons next rest =>
          have others := ih later
          simp only [fieldPieces, List.cons_append, List.nil_append, List.forall_mem_cons]
          exact ⟨Word.proper_literalWord _, Word.proper_spaceWord, value,
            Word.proper_literalWord _, Word.proper_spaceWord, others⟩

theorem Body.proper_pieces {body : Body} (proper : body.Proper) :
    ∀ word ∈ body.pieces, Word.Proper word := by
  have sign (text : String) (isText : Word.TokenText text.toList) := isText.proper
  cases body with
  | choice ids =>
      refine proper_barred fun word member => ?_
      obtain ⟨id, found, rfl⟩ := List.mem_map.mp member
      exact Word.proper_of_isName (proper.2 id found)
  | enum values =>
      refine proper_barred fun word member => ?_
      obtain ⟨value, _, rfl⟩ := List.mem_map.mp member
      exact Word.proper_literalWord _
  | object fields =>
      have ending : ∀ word ∈ (if fields.isEmpty then [] else [spaceWord]), Word.Proper word := by
        split <;> simp [Word.proper_spaceWord]
      simp only [pieces, List.forall_mem_append, List.forall_mem_cons]
      exact ⟨⟨⟨⟨Word.proper_literalWord _, Word.proper_spaceWord, by simp⟩,
        proper_fieldPieces proper⟩, ending⟩, Word.proper_literalWord _, by simp⟩
  | call name params =>
      have own : Word.Proper (nameWord params.text) := Word.proper_of_isName proper
      simp [pieces, Word.proper_literalWord, Word.proper_spaceWord, own]
  | array item =>
      have isName := Reference.Proper.isName proper
      have own := Word.proper_of_isName isName
      have closing : Word.TokenText (item.text ++ ")*").toList := by
        have signs : ")*".toList.all Word.isTokenChar = true := by decide
        refine ⟨by simp, ?_⟩
        rw [String.toList_append, List.all_append, (Word.tokenText_of_isName isName).plain, signs]
        rfl
      have opening : Word.Proper [.token ['('], .literal [',']] :=
        .token ⟨by decide, by decide⟩ (Word.bounded_literal _ _) (.literal _ .nil)
      simp only [pieces, List.forall_mem_cons]
      exact ⟨Word.proper_literalWord _, Word.proper_spaceWord,
        sign "(" ⟨by decide, by decide⟩, own, opening, Word.proper_spaceWord, closing.proper,
        sign ")?" ⟨by decide, by decide⟩, Word.proper_spaceWord, Word.proper_literalWord _,
        by simp⟩
  | fixedPoint precision =>
      have whole : Word.Proper (nameWord integerPartId.text) := Word.proper_of_isName (by decide)
      have fraction := Word.proper_of_isName (isName_fractionId precision)
      simp [pieces, Word.proper_literalWord, whole, fraction]
  | fraction precision =>
      intro word member
      rw [List.eq_of_mem_replicate member]
      exact sign digitClass ⟨by decide, by decide⟩
  | integerPart =>
      simpa [pieces] using sign (digitClass ++ "+") ⟨by decide, by decide⟩

theorem Body.pieces_ne_nil {body : Body} (proper : body.Proper) : body.pieces ≠ [] := by
  cases body with
  | choice ids =>
      obtain ⟨id, rest, rfl⟩ := List.exists_cons_of_ne_nil proper.1
      cases rest <;> simp [pieces, barred]
  | enum values =>
      obtain ⟨value, rest, rfl⟩ := List.exists_cons_of_ne_nil proper
      cases rest <;> simp [pieces, barred]
  | fraction precision => simpa [pieces] using precision.positive.ne'
  | object | call | array | fixedPoint | integerPart => simp [pieces]

theorem Body.splits {body : Body} (proper : body.Proper) :
    Splits body.render.toList body.pieces :=
  ⟨pieces_ne_nil proper, proper_pieces proper, by rw [render_toList, words_toList]⟩

end ToolGrammar.Grammar
