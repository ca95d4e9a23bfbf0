import ToolGrammar.Json.Lexeme
import ToolGrammar.Json.Printer

namespace ToolGrammar.Json

def charUnits (c : Char) : List Nat :=
  if c.toNat < 0x10000 then [c.toNat]
  else [0xD800 + (c.toNat - 0x10000) / 0x400, 0xDC00 + (c.toNat - 0x10000) % 0x400]

def textUnits (text : List Char) : List Nat :=
  text.flatMap charUnits

theorem charUnits_of_lt {c : Char} (small : c.toNat < 0x10000) : charUnits c = [c.toNat] :=
  if_pos small

/-- No character has the number of a surrogate. -/
theorem toNat_not_surrogate (c : Char) :
    c.toNat < 0xD800 ∨ 0xDFFF < c.toNat ∧ c.toNat < 0x110000 :=
  c.valid

theorem charUnits_append_inj {c d : Char} {front back : List Nat}
    (same : charUnits c ++ front = charUnits d ++ back) : c = d ∧ front = back := by
  have cRange := toNat_not_surrogate c
  have dRange := toNat_not_surrogate d
  rw [← Char.toNat_inj]
  unfold charUnits at same
  split at same <;> split at same <;>
    simp only [List.cons_append, List.nil_append, List.cons.injEq] at same
  · exact same
  · omega
  · omega
  · obtain ⟨high, low, rest⟩ := same
    exact ⟨by omega, rest⟩

theorem textUnits_inj {left right : List Char} (same : textUnits left = textUnits right) :
    left = right := by
  have some (c : Char) (rest : List Nat) : charUnits c ++ rest ≠ [] := by
    unfold charUnits
    split <;> simp
  induction left generalizing right with
  | nil =>
      cases right with
      | nil => rfl
      | cons d others => exact absurd same.symm (some d _)
  | cons c rest ih =>
      cases right with
      | nil => exact absurd same (some c _)
      | cons d others =>
          simp only [textUnits, List.flatMap_cons] at same ih
          obtain ⟨rfl, tails⟩ := charUnits_append_inj same
          rw [ih tails]

/-- The characters that may stand for themselves inside a string. -/
def isUnescaped (c : Char) : Bool :=
  0x20 ≤ c.toNat && c != '"' && c != '\\'

/-- The character that a letter after a backslash denotes. -/
def shortEscape? : Char → Option Char
  | '"' => some '"'
  | '\\' => some '\\'
  | '/' => some '/'
  | 'b' => some '\x08'
  | 'f' => some '\x0c'
  | 'n' => some '\n'
  | 'r' => some '\r'
  | 't' => some '\t'
  | _ => none

/-- The code unit that four digits in base sixteen write. -/
def codeUnit? : List Char → Option Nat
  | [a, b, c, d] => do
    let a ← hexDigit? a
    let b ← hexDigit? b
    let c ← hexDigit? c
    let d ← hexDigit? d
    return ((a * 16 + b) * 16 + c) * 16 + d
  | _ => none

/-- A character or an escape, with the code units that it denotes. -/
inductive StringPart : List Char → List Nat → Prop where
  | plain {c : Char} (unescaped : isUnescaped c = true) : StringPart [c] (charUnits c)
  | escape {letter c : Char} (short : shortEscape? letter = some c) :
      StringPart ['\\', letter] (charUnits c)
  | code {digits : List Char} {unit : Nat} (value : codeUnit? digits = some unit) :
      StringPart ('\\' :: 'u' :: digits) [unit]

inductive StringBody : List Char → List Nat → Prop where
  | nil : StringBody [] []
  | cons {front back : List Char} {units others : List Nat} (part : StringPart front units)
      (body : StringBody back others) : StringBody (front ++ back) (units ++ others)

/-- A string between its quotes, with the code units that it denotes. -/
def DenotesUnits (text : List Char) (units : List Nat) : Prop :=
  ∃ body, StringBody body units ∧ text = '"' :: body ++ ['"']

theorem length_of_codeUnit? {digits : List Char} {unit : Nat}
    (value : codeUnit? digits = some unit) : digits.length = 4 := by
  unfold codeUnit? at value
  split at value
  · rfl
  · cases value

/-- No part goes on as another one. -/
theorem StringPart.unique {front other : List Char} {units otherUnits : List Nat}
    (part : StringPart front units) (otherPart : StringPart other otherUnits)
    {rest otherRest : List Char} (same : front ++ rest = other ++ otherRest) :
    units = otherUnits ∧ rest = otherRest := by
  cases part with
  | plain unescaped =>
      cases otherPart with
      | plain otherUnescaped =>
          obtain ⟨rfl, rfl⟩ := List.cons.inj same
          exact ⟨rfl, rfl⟩
      | escape | code =>
          obtain ⟨rfl, _⟩ := List.cons.inj same
          exact absurd unescaped (by decide)
  | escape short =>
      cases otherPart with
      | plain otherUnescaped =>
          obtain ⟨rfl, _⟩ := List.cons.inj same
          exact absurd otherUnescaped (by decide)
      | escape otherShort =>
          simp only [List.cons_append, List.nil_append, List.cons.injEq, true_and] at same
          obtain ⟨rfl, rfl⟩ := same
          rw [short] at otherShort
          cases otherShort
          exact ⟨rfl, rfl⟩
      | code =>
          simp only [List.cons_append, List.nil_append, List.cons.injEq, true_and] at same
          obtain ⟨rfl, _⟩ := same
          cases short
  | code value =>
      cases otherPart with
      | plain otherUnescaped =>
          obtain ⟨rfl, _⟩ := List.cons.inj same
          exact absurd otherUnescaped (by decide)
      | escape otherShort =>
          simp only [List.cons_append, List.nil_append, List.cons.injEq, true_and] at same
          obtain ⟨rfl, _⟩ := same
          cases otherShort
      | code otherValue =>
          simp only [List.cons_append, List.cons.injEq, true_and] at same
          obtain ⟨rfl, rfl⟩ := List.append_inj same
            ((length_of_codeUnit? value).trans (length_of_codeUnit? otherValue).symm)
          rw [value] at otherValue
          cases otherValue
          exact ⟨rfl, rfl⟩

theorem StringPart.ne_quote {front : List Char} {units : List Nat} (part : StringPart front units)
    {rest after : List Char} : front ++ rest ≠ '"' :: after := by
  intro same
  cases part with
  | plain unescaped =>
      obtain ⟨rfl, _⟩ := List.cons.inj same
      exact absurd unescaped (by decide)
  | escape | code => cases same

theorem StringBody.unique {body other : List Char} {units otherUnits : List Nat}
    (denotes : StringBody body units) (otherDenotes : StringBody other otherUnits)
    {rest otherRest : List Char} (same : body ++ '"' :: rest = other ++ '"' :: otherRest) :
    units = otherUnits ∧ rest = otherRest := by
  induction denotes generalizing other otherUnits with
  | nil =>
      cases otherDenotes with
      | nil => exact ⟨rfl, (List.cons.inj same).2⟩
      | cons part => exact absurd (by simpa using same.symm) part.ne_quote
  | cons part _ ih =>
      cases otherDenotes with
      | nil => exact absurd (by simpa using same) part.ne_quote
      | cons otherPart others =>
          rw [List.append_assoc, List.append_assoc] at same
          obtain ⟨rfl, tails⟩ := part.unique otherPart same
          obtain ⟨rfl, rests⟩ := ih others tails
          exact ⟨rfl, rests⟩

/-- A text that begins with a string determines what the string denotes and where it ends. -/
theorem DenotesUnits.unique {text other : List Char} {units otherUnits : List Nat}
    (denotes : DenotesUnits text units) (otherDenotes : DenotesUnits other otherUnits)
    {rest otherRest : List Char} (same : text ++ rest = other ++ otherRest) :
    units = otherUnits ∧ rest = otherRest := by
  obtain ⟨body, inside, rfl⟩ := denotes
  obtain ⟨otherBody, otherInside, rfl⟩ := otherDenotes
  exact inside.unique otherInside (by simpa using same)

theorem stringPart_codeEscape {c : Char} (control : c.toNat < 0x20) :
    StringPart (codeEscape c) (charUnits c) := by
  have each : ∀ code < 0x20, codeUnit? (List.replicate (4 - (Nat.toDigits 16 code).length) '0' ++
      Nat.toDigits 16 code) = some code := by decide
  rw [charUnits_of_lt (by omega)]
  exact .code (each c.toNat control)

/-- What is printed for a character denotes it. -/
theorem stringPart_escapeChar (c : Char) : StringPart (escapeChar c) (charUnits c) := by
  unfold escapeChar
  split
  case h_8 quote backslash _ _ _ _ _ =>
    split
    · rename_i control
      exact stringPart_codeEscape control
    · rename_i visible
      have unescaped : isUnescaped c = true := by
        simpa [isUnescaped, Nat.le_of_not_lt visible] using And.intro quote backslash
      exact .plain unescaped
  all_goals exact .escape rfl

theorem denotesUnits_quotedChars (text : List Char) :
    DenotesUnits (quotedChars text) (textUnits text) := by
  refine ⟨text.flatMap escapeChar, ?_, rfl⟩
  induction text with
  | nil => exact .nil
  | cons c rest ih => exact .cons (stringPart_escapeChar c) ih

/-- No printed string goes on as another one. -/
theorem quotedChars_append_inj {left right rest others : List Char}
    (same : quotedChars left ++ rest = quotedChars right ++ others) :
    left = right ∧ rest = others := by
  obtain ⟨units, rests⟩ :=
    (denotesUnits_quotedChars left).unique (denotesUnits_quotedChars right) same
  exact ⟨textUnits_inj units, rests⟩

end ToolGrammar.Json
