import ToolGrammar.Json.Tree
import ToolGrammar.Proofs.Json.Strings

namespace ToolGrammar.Json

theorem isUnescaped_iff {c : Char} :
    isUnescaped c = true ↔ 0x20 ≤ c.toNat ∧ c ≠ '"' ∧ c ≠ '\\' := by
  simp [isUnescaped, and_assoc]

theorem scanUnit_of_codeUnit? {digits : List Char} {unit : Nat}
    (value : codeUnit? digits = some unit) (here : Position) (rest : List Char) :
    ∃ there, scanUnit here (digits ++ rest) = .ok (unit, ⟨rest, there⟩) := by
  unfold codeUnit? at value
  split at value
  · rename_i a b c d
    simp only [bind, Option.bind_eq_some_iff] at value
    obtain ⟨a', first, b', second, c', third, d', fourth, whole⟩ := value
    cases whole
    have enough : ¬ String.utf8ByteSize (String.ofList [a, b, c, d]) < 4 := by
      have aSize := a.utf8Size_pos
      have bSize := b.utf8Size_pos
      have cSize := c.utf8Size_pos
      have dSize := d.utf8Size_pos
      simp only [String.ofList_cons, String.utf8ByteSize_append, String.utf8ByteSize_singleton]
      omega
    refine ⟨here.skip 4 ([a, b, c, d] ++ rest), ?_⟩
    have taken : ([a, b, c, d] ++ rest).take 4 = [a, b, c, d] := rfl
    unfold scanUnit
    rw [taken, if_neg enough]
    simp only [List.cons_append, List.nil_append, first, second, third, fourth]
  · cases value

/-- The code escape of a character that one code unit denotes. -/
theorem scanCodeEscape_of_codeUnit? {digits : List Char} {c : Char}
    (value : codeUnit? digits = some c.toNat) (here : Position) (rest : List Char) :
    ∃ there, scanCodeEscape here (digits ++ rest) = .ok (c, ⟨rest, there⟩) := by
  obtain ⟨there, scanned⟩ := scanUnit_of_codeUnit? value here rest
  have range := toNat_not_surrogate c
  have notLow : isLowSurrogate c.toNat = false := by
    simp only [isLowSurrogate, Bool.and_eq_false_iff, decide_eq_false_iff_not]
    omega
  have notHigh : isHighSurrogate c.toNat = false := by
    simp only [isHighSurrogate, Bool.and_eq_false_iff, decide_eq_false_iff_not]
    omega
  refine ⟨there, ?_⟩
  simp only [scanCodeEscape, scanned, bind, Except.bind, notLow, notHigh, Char.ofNat_toNat]
  rfl

theorem scanEscape_of_shortEscape? {letter c : Char} (short : shortEscape? letter = some c)
    (here : Position) (rest : List Char) :
    ∃ there, scanEscape here (letter :: rest) = .ok (c, ⟨rest, there⟩) := by
  unfold shortEscape? at short
  split at short
  case h_9 => cases short
  all_goals
    cases short
    exact ⟨_, rfl⟩

/-- A part that denotes a character is read as this character, in one step. -/
theorem scanStringAfter_part {front : List Char} {c : Char} (part : StringPart front (charUnits c))
    (read : List Char) (here : Position) (fuel : Nat) (rest : List Char) :
    ∃ there, scanStringAfter read here (fuel + 1) (front ++ rest) =
      scanStringAfter (c :: read) there fuel rest := by
  generalize denoted : charUnits c = units at part
  cases part with
  | @plain d unescaped =>
      obtain ⟨rfl, _⟩ := charUnits_append_inj (congrArg (· ++ []) denoted)
      obtain ⟨visible, noQuote, noBackslash⟩ := isUnescaped_iff.mp unescaped
      exact ⟨here.after c,
        by simp [scanStringAfter, noQuote, noBackslash, Nat.not_lt.mpr visible]⟩
  | @escape letter d short =>
      obtain ⟨rfl, _⟩ := charUnits_append_inj (congrArg (· ++ []) denoted)
      obtain ⟨there, scanned⟩ := scanEscape_of_shortEscape? short (here.after '\\') rest
      exact ⟨there, by simp [scanStringAfter, scanned]⟩
  | @code digits unit value =>
      have single : c.toNat = unit := by
        by_cases small : c.toNat < 0x10000
        · rw [charUnits_of_lt small] at denoted
          exact (List.cons.inj denoted).1
        · simp [charUnits, small] at denoted
      rw [← single] at value
      obtain ⟨there, scanned⟩ :=
        scanCodeEscape_of_codeUnit? value ((here.after '\\').after 'u') rest
      exact ⟨there, by simp [scanStringAfter, scanEscape, scanned]⟩

theorem scanStringAfter_escaped (text rest read : List Char) (here : Position) {fuel : Nat}
    (enough : text.length < fuel) :
    ∃ there, scanStringAfter read here fuel (text.flatMap escapeChar ++ '"' :: rest) =
      .ok (String.ofList (read.reverse ++ text), ⟨rest, there⟩) := by
  induction text generalizing read here fuel with
  | nil =>
      obtain ⟨fuel, rfl⟩ := Nat.exists_eq_add_one.mpr enough
      exact ⟨here.after '"', by simp [scanStringAfter]⟩
  | cons c text ih =>
      obtain ⟨fuel, rfl⟩ := Nat.exists_eq_add_one.mpr (Nat.zero_lt_of_lt enough)
      obtain ⟨next, step⟩ := scanStringAfter_part (stringPart_escapeChar c) read here fuel
        (text.flatMap escapeChar ++ '"' :: rest)
      obtain ⟨there, run⟩ := ih (c :: read) next (Nat.lt_of_succ_lt_succ enough)
      refine ⟨there, ?_⟩
      rw [List.flatMap_cons, List.append_assoc, step, run]
      simp

theorem length_le_flatMap_escapeChar (text : List Char) :
    text.length ≤ (text.flatMap escapeChar).length := by
  induction text with
  | nil => simp
  | cons c text ih =>
      have some : 0 < (escapeChar c).length := by
        unfold escapeChar codeEscape
        split <;> simp
        split <;> simp
      rw [List.flatMap_cons, List.length_append, List.length_cons]
      omega

/-- A printed string is scanned from after its opening quote up to its closing one. -/
theorem scanString_printed (text : String) (rest : List Char) (here : Position) :
    ∃ there, scanString ⟨text.toList.flatMap escapeChar ++ '"' :: rest, here⟩ =
      .ok (text, ⟨rest, there⟩) := by
  have enough : text.toList.length <
      (text.toList.flatMap escapeChar ++ '"' :: rest).length + 1 := by
    have escaped := length_le_flatMap_escapeChar text.toList
    rw [List.length_append]
    omega
  simpa [scanString] using scanStringAfter_escaped text.toList rest [] here enough

/-- Whatever follows the text, it is read as one string of the given characters. -/
def ReadsAsString (text : List Char) (value : String) : Prop :=
  ∀ fuel depth here rest, ∃ next : Cursor,
    readTree (fuel + 1) depth ⟨text ++ rest, here⟩ =
        (.scalar here next.here (.string value), some next) ∧
      next.rest = rest

theorem readsAsString_quotedChars (value : String) :
    ReadsAsString (quotedChars value.toList) value := by
  intro fuel depth here rest
  obtain ⟨there, scanned⟩ := scanString_printed value rest (here.after '"')
  have whole : quotedChars value.toList ++ rest =
      '"' :: (value.toList.flatMap escapeChar ++ '"' :: rest) := by simp [quotedChars]
  refine ⟨⟨rest, there⟩, ?_, rfl⟩
  have visible : isSpace '"' = false := rfl
  simp [whole, readTree, Cursor.skipSpace, skipSpaceFrom, visible, readPlain, scanned, readScalar,
    Except.map]

theorem escapeChar_of_unescaped {c : Char} (unescaped : isUnescaped c = true) :
    escapeChar c = [c] := by
  obtain ⟨visible, noQuote, noBackslash⟩ := isUnescaped_iff.mp unescaped
  unfold escapeChar
  split
  case h_1 => exact absurd rfl noQuote
  case h_2 => exact absurd rfl noBackslash
  case h_8 => exact if_neg (Nat.not_lt.mpr visible)
  all_goals exact absurd visible (by decide)

/-- Of the characters with a short form only the slash, which needs no escape, has none. -/
theorem escapeChar_of_short {letter c : Char} (short : shortEscape? letter = some c)
    (needed : letter ≠ '/') : escapeChar c = ['\\', letter] := by
  unfold shortEscape? at short
  split at short
  case h_3 => exact absurd rfl needed
  case h_9 => cases short
  all_goals
    cases short
    rfl

theorem escapeChar_of_control {c : Char} (control : c.toNat < 0x20)
    (long : ∀ letter, shortEscape? letter ≠ some c) :
    ∃ high low, escapeChar c = ['\\', 'u', '0', '0', high, low] ∧
      high.isUpper = false ∧ low.isUpper = false ∧
      codeUnit? ['0', '0', high, low] = some c.toNat := by
  have coded : escapeChar c = codeEscape c := by
    unfold escapeChar
    split
    case h_1 => exact absurd rfl (long '"')
    case h_2 => exact absurd rfl (long '\\')
    case h_3 => exact absurd rfl (long 'b')
    case h_4 => exact absurd rfl (long 't')
    case h_5 => exact absurd rfl (long 'n')
    case h_6 => exact absurd rfl (long 'f')
    case h_7 => exact absurd rfl (long 'r')
    case h_8 => exact if_pos control
  have each : ∀ code < 0x20,
      List.replicate (4 - (Nat.toDigits 16 code).length) '0' ++ Nat.toDigits 16 code =
        ['0', '0', Nat.digitChar (code / 16), Nat.digitChar (code % 16)] ∧
      (Nat.digitChar (code / 16)).isUpper = false ∧
      (Nat.digitChar (code % 16)).isUpper = false ∧
      codeUnit? ['0', '0', Nat.digitChar (code / 16), Nat.digitChar (code % 16)] =
        some code := by decide
  obtain ⟨digits, others⟩ := each c.toNat control
  refine ⟨_, _, ?_, others⟩
  rw [coded, codeEscape, List.cons_append, List.cons_append, digits]

end ToolGrammar.Json
