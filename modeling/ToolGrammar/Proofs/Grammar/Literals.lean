import ToolGrammar.Proofs.Grammar.Words
import ToolGrammar.Proofs.Json.Scanning

namespace ToolGrammar.Grammar

open Json (quotedChars escapeChar shortEscape? codeUnit? isUnescaped)

/-- The literals of tokens stand for a JSON string and for what comes after it there. -/
theorem decode?_tokens (value : String) (rest : List Char) :
    Literal.decode? ((Literal.jsonString value).toList ++ rest) =
        some (quotedChars value.toList, rest) ∧
      Literal.decode? ((Literal.objectKey value).toList ++ rest) =
        some (quotedChars value.toList ++ [':'], rest) ∧
      Literal.decode? ((Literal.functionName value).toList ++ rest) =
        some (quotedChars value.toList ++ [','], rest) := by
  rw [toList_jsonString, toList_objectKey, toList_functionName]
  exact ⟨decode?_encode _ rest, decode?_encode _ rest, decode?_encode _ rest⟩

/-- A literal is read from its opening quote up to its own closing one as the text that it was
made of. The text behind a token is one JSON string for its value, with nothing, a colon or a comma
after it; it escapes quotes, backslashes and the characters below U+0020, and no others. -/
theorem literals_denote :
    (∀ (text : String) (rest : List Char),
      Literal.decode? ((Literal.ofText text).toList ++ rest) = some (text.toList, rest)) ∧
    (∀ value : String, ∃ json : List Char,
      (∀ rest,
        Literal.decode? ((Literal.jsonString value).toList ++ rest) = some (json, rest) ∧
        Literal.decode? ((Literal.objectKey value).toList ++ rest) = some (json ++ [':'], rest) ∧
        Literal.decode? ((Literal.functionName value).toList ++ rest) =
          some (json ++ [','], rest)) ∧
      json = '"' :: value.toList.flatMap escapeChar ++ ['"'] ∧
      Json.ReadsAsString json value ∧
      ∀ units, Json.DenotesUnits json units ↔ units = Json.textUnits value.toList) ∧
    (∀ letter c, shortEscape? letter = some c → letter ≠ '/' → escapeChar c = ['\\', letter]) ∧
    (∀ c, c.toNat < 0x20 → (∀ letter, shortEscape? letter ≠ some c) →
      ∃ high low, escapeChar c = ['\\', 'u', '0', '0', high, low] ∧
        high.isUpper = false ∧ low.isUpper = false ∧
        codeUnit? ['0', '0', high, low] = some c.toNat) ∧
    ∀ c, isUnescaped c = true → escapeChar c = [c] := by
  refine ⟨fun text rest => ?_, fun value => ?_, fun letter c => Json.escapeChar_of_short,
    fun c => Json.escapeChar_of_control, fun c => Json.escapeChar_of_unescaped⟩
  · rw [toList_ofText]
    exact decode?_encode _ rest
  · have denotes := Json.denotesUnits_quotedChars value.toList
    refine ⟨quotedChars value.toList, decode?_tokens value, rfl,
      Json.readsAsString_quotedChars value, fun units => ?_⟩
    constructor
    · intro otherDenotes
      have whole : quotedChars value.toList ++ [] = quotedChars value.toList ++ [] := rfl
      exact (otherDenotes.unique denotes whole).1
    · intro same
      exact same ▸ denotes

end ToolGrammar.Grammar
