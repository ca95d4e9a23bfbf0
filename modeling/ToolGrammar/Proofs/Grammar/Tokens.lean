import ToolGrammar.Proofs.Grammar.Resolution
import ToolGrammar.Proofs.Grammar.Texts

namespace ToolGrammar.Grammar

open Computability Schema Gbnf Text

theorem blanks_eq : blanks = (oneChar [' ', '\t', '\n'].contains)∗ := by
  ext text
  simp [mem_oneChar_kstar, mem_blanks_iff]

/-- A run of one character. -/
theorem le_and_le_eq (c d : Char) : (decide (d ≤ c) && decide (c ≤ d)) = (c == d) := by
  rw [Bool.eq_iff_iff]
  simp only [Bool.and_eq_true, decide_eq_true_eq, beq_iff_eq]
  exact ⟨fun within => Char.le_antisymm within.2 within.1, fun same => by simp [same]⟩

theorem control_iff (c : Char) : ('\x00' ≤ c ∧ c ≤ '\x1f') ↔ c.toNat < 0x20 := by
  rw [Char.le_def, Char.le_def, UInt32.le_iff_toNat_le, UInt32.le_iff_toNat_le]
  exact ⟨fun control => Nat.lt_succ_of_le control.2,
    fun control => ⟨Nat.zero_le _, Nat.le_of_lt_succ control⟩⟩

theorem contains_listed (listed : List Char) :
    CharClass.contains ⟨false, listed.map fun c => (c, c)⟩ = listed.contains := by
  funext c
  simp only [CharClass.contains, List.any_map, Function.comp_def, le_and_le_eq, Bool.bne_false,
    List.contains_eq_any_beq]

theorem contains_blankChars :
    CharClass.contains ⟨false, [(' ', ' '), ('\t', '\t'), ('\n', '\n')]⟩ =
      [' ', '\t', '\n'].contains :=
  contains_listed [' ', '\t', '\n']

theorem contains_digitChars : digitChars.contains = Char.isDigit := by
  funext c
  simp only [CharClass.contains, digitChars, List.any_cons, List.any_nil, Bool.or_false,
    Bool.bne_false]
  rfl

theorem contains_hexChars :
    CharClass.contains ⟨false, [('0', '9'), ('a', 'f'), ('A', 'F')]⟩ =
      fun c => (Json.hexDigit? c).isSome := by
  funext c
  rw [Bool.eq_iff_iff]
  simp only [CharClass.contains, List.any_cons, List.any_nil, Bool.or_false, Bool.bne_false,
    Bool.or_eq_true, Bool.and_eq_true, decide_eq_true_eq, Json.hexDigit?]
  split_ifs <;> simp_all

theorem contains_nonzeroChars :
    CharClass.contains ⟨false, [('1', '9')]⟩ = fun c => c.isDigit && c != '0' := by
  funext c
  have zero : c = '0' ↔ c.toNat = 48 := Char.toNat_inj.symm
  rw [Bool.eq_iff_iff]
  simp only [CharClass.contains, List.any_cons, List.any_nil, Bool.or_false, Bool.bne_false,
    Bool.and_eq_true, decide_eq_true_eq, Char.isDigit, bne_iff_ne, ne_eq, zero, Char.le_def,
    UInt32.le_iff_toNat_le, ge_iff_le]
  change 49 ≤ c.toNat ∧ c.toNat ≤ 57 ↔ (48 ≤ c.toNat ∧ c.toNat ≤ 57) ∧ ¬ c.toNat = 48
  omega

theorem contains_plainChars :
    CharClass.contains ⟨true, [('"', '"'), ('\\', '\\'), ('\x7f', '\x7f'), ('\x00', '\x1f')]⟩ =
      fun c => Json.isUnescaped c && c != '\x7f' := by
  funext c
  rw [Bool.eq_iff_iff]
  have control := control_iff c
  simp only [CharClass.contains, List.any_cons, le_and_le_eq, List.any_nil, Bool.or_false,
    Json.isUnescaped, Bool.bne_true, Bool.not_eq_true', Bool.or_eq_false_iff, beq_eq_false_iff_ne,
    Bool.and_eq_true, Bool.and_eq_false_iff, decide_eq_true_eq, decide_eq_false_iff_not, bne_iff_ne]
  rw [← not_and_or, control]
  constructor
  · intro outside
    obtain ⟨quote, backslash, delete, visible⟩ := outside
    exact ⟨⟨⟨Nat.le_of_not_lt visible, quote⟩, backslash⟩, delete⟩
  · intro plain
    obtain ⟨⟨⟨visible, quote⟩, backslash⟩, delete⟩ := plain
    exact ⟨quote, backslash, delete, Nat.not_lt_of_le visible⟩

theorem contains_escapeChars :
    CharClass.contains ⟨false, "\"\\/bfnrt".toList.map fun c => (c, c)⟩ =
      fun c => (Json.shortEscape? c).isSome := by
  funext c
  rw [contains_listed, Bool.eq_iff_iff, List.contains_iff_mem]
  unfold Json.shortEscape?
  split <;> simp_all

theorem contains_pair (c d : Char) :
    CharClass.contains ⟨false, [(c, c), (d, d)]⟩ = [c, d].contains :=
  contains_listed [c, d]

theorem oneChar_pair (c d : Char) : oneChar [c, d].contains = {[c]} + {[d]} := by
  ext text
  simp only [mem_oneChar, List.contains_iff_mem, List.mem_cons, List.not_mem_nil, or_false,
    or_and_right, exists_or, exists_eq_left, Language.mem_add]
  rfl

theorem digit_eq :
    oneChar Char.isDigit = {['0']} + oneChar fun c => c.isDigit && c != '0' := by
  ext text
  rw [Language.mem_add, mem_oneChar, mem_oneChar]
  constructor
  · intro single
    obtain ⟨c, isDigit, rfl⟩ := single
    by_cases zero : c = '0'
    · exact .inl (by rw [zero]; rfl)
    · exact .inr ⟨c, by simp [isDigit, zero], rfl⟩
  · intro either
    rcases either with rfl | ⟨c, isDigit, rfl⟩
    · exact ⟨'0', rfl, rfl⟩
    · exact ⟨c, (Bool.and_eq_true_iff.mp isDigit).1, rfl⟩

/-- A digit that no others follow may be a zero. -/
theorem wholeTexts_eq :
    oneChar Char.isDigit + oneChar (fun c => c.isDigit && c != '0') * (oneChar Char.isDigit)∗ =
      Json.wholeTexts := by
  rw [Json.wholeTexts, Json.digit]
  generalize long : oneChar (fun c => c.isDigit && c != '0') * (oneChar Char.isDigit)∗ = runs
  have within : oneChar (fun c => c.isDigit && c != '0') ≤ runs := by
    rw [← long]
    exact le_mul_of_one_le_right' one_le_kstar
  rw [digit_eq, add_assoc, add_eq_right_iff_le.mpr within]

/-- Where the rules of a registry are what their names refer to, its floats have their texts. -/
theorem Registry.language_float {registry : Registry} {productions : List Production}
    (resolve : ∀ rule ∈ registry.rules, language productions (.reference rule.id.text) =
      language productions (.group rule.body.alternatives))
    {precision : Precision} (used : precision ∈ registry.precisions) :
    language productions (Reference.float precision).item = fixedTexts precision := by
  have whole := resolve _ (Registry.mem_rules.mpr (.inl ⟨precision, used, .inl rfl⟩))
  have fraction := resolve _ (Registry.mem_rules.mpr (.inl ⟨precision, used, .inr rfl⟩))
  have integer := resolve _ (Registry.mem_rules.mpr (.inr ⟨List.ne_nil_of_mem used, rfl⟩))
  simp only [Body.alternatives, language_group_singleton, sequenceLanguage_cons,
    sequenceLanguage_nil, sequenceLanguage_replicate, language_literal, language_plus,
    language_oneOf, contains_digitChars, mul_one] at whole fraction integer
  rw [fraction, integer] at whole
  rw [fixedTexts, Json.digits, Json.digit, mul_assoc (_ * _)]
  exact whole

namespace Compiled

variable {functions : List FunctionSpec} {grammar : Grammar}

theorem language_space (compiled : Compiled functions grammar) :
    language grammar.productions spaceItem = blanks := by
  have defined := compiled.language_token ⟨space, _⟩ List.mem_cons_self
  simp only [language_group_singleton, language_optional, sequenceLanguage_cons,
    sequenceLanguage_nil, language_oneOf, contains_blankChars, mul_one] at defined
  -- White space mentions itself, so its language solves an equation that has one solution only.
  rw [add_comm] at defined
  have closed := (Language.self_eq_mul_add_iff (by simp [mem_oneChar])).mp defined
  rw [mul_one, ← blanks_eq] at closed
  exact closed

theorem language_string (compiled : Compiled functions grammar) :
    language grammar.productions Reference.string.item = stringTexts := by
  refine (compiled.language_token ⟨stringToken, _⟩
    (List.mem_cons_of_mem _ List.mem_cons_self)).trans ?_
  simp only [language_group_cons, language_group_nil, language_literal, language_star,
    language_oneOf, sequenceLanguage_cons, sequenceLanguage_nil, add_zero, mul_one,
    contains_plainChars, contains_escapeChars, contains_hexChars]
  simp only [stringTexts, plainTexts, escapeTexts, hexTexts, pow_succ, pow_zero, one_mul, mul_assoc]

theorem language_number (compiled : Compiled functions grammar) :
    language grammar.productions Reference.number.item = Json.numberTexts := by
  refine (compiled.language_token ⟨numberToken, _⟩
    (List.mem_cons_of_mem _ (List.mem_cons_of_mem _ List.mem_cons_self))).trans ?_
  simp only [language_group_cons, language_group_nil, language_literal, language_optional,
    language_star, language_plus, language_oneOf, sequenceLanguage_cons, sequenceLanguage_nil,
    add_zero, mul_one, contains_digitChars, contains_nonzeroChars, contains_pair, oneChar_pair,
    wholeTexts_eq]
  simp only [Json.numberTexts, Json.fractionTexts, Json.exponentTexts, Json.digits, Json.digit,
    mul_assoc]

theorem language_boolean (compiled : Compiled functions grammar) :
    language grammar.productions Reference.boolean.item = booleanTexts := by
  refine (compiled.language_token ⟨booleanToken, _⟩
    (List.mem_cons_of_mem _ (List.mem_cons_of_mem _ (List.mem_cons_of_mem _
      List.mem_cons_self)))).trans ?_
  simp only [language_group_cons, language_group_nil, language_literal, sequenceLanguage_cons,
    sequenceLanguage_nil, add_zero, mul_one, booleanTexts]

theorem language_fixed (compiled : Compiled functions grammar)
    (valid : ∀ function ∈ functions, function.Valid) {precision : Precision}
    (used : precision ∈ (floatRegistry functions).precisions) :
    language grammar.productions (Reference.float precision).item = fixedTexts precision :=
  Registry.language_float
    (fun _ float => compiled.language_rule valid (.inr (float_emitted float))) used

end Compiled

end ToolGrammar.Grammar
