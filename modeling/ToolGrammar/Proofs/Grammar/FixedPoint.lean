import ToolGrammar.Proofs.Grammar.Agreement
import ToolGrammar.Proofs.Grammar.Tokens

namespace ToolGrammar.Json

open Computability Text

/-- A zero at the start that another digit follows. -/
def NeedlessZero (text : List Char) : Prop :=
  ∃ c rest, c.isDigit = true ∧ text = '0' :: c :: rest

theorem mem_digits_iff {text : List Char} :
    text ∈ digits ↔ text ≠ [] ∧ ∀ c ∈ text, c.isDigit = true := by
  rw [digits, digit, Language.mem_mul]
  constructor
  · intro split
    obtain ⟨_, ⟨c, isDigit, rfl⟩, rest, inRest, rfl⟩ := split
    exact ⟨by simp, by simpa [isDigit] using mem_oneChar_kstar.mp inRest⟩
  · intro digits
    obtain ⟨nonempty, each⟩ := digits
    obtain ⟨c, rest, rfl⟩ := List.exists_cons_of_ne_nil nonempty
    obtain ⟨first, others⟩ := List.forall_mem_cons.mp each
    exact ⟨[c], ⟨c, first, rfl⟩, rest, mem_oneChar_kstar.mpr others, rfl⟩

theorem mem_wholeTexts_iff {text : List Char} :
    text ∈ wholeTexts ↔ text ∈ digits ∧ ¬ NeedlessZero text := by
  rw [wholeTexts, digit, Language.mem_add, Language.mem_mul, mem_digits_iff]
  constructor
  · intro either
    rcases either with rfl | ⟨_, ⟨c, leading, rfl⟩, rest, inRest, rfl⟩
    · exact ⟨by simp, by simp [NeedlessZero]⟩
    · rw [Bool.and_eq_true, bne_iff_ne] at leading
      refine ⟨⟨by simp, ?_⟩, ?_⟩
      · simpa [leading.1] using mem_oneChar_kstar.mp inRest
      · simp [NeedlessZero, leading.2]
  · intro number
    obtain ⟨⟨nonempty, each⟩, needed⟩ := number
    obtain ⟨c, rest, rfl⟩ := List.exists_cons_of_ne_nil nonempty
    obtain ⟨first, others⟩ := List.forall_mem_cons.mp each
    by_cases zero : c = '0'
    · cases rest with
      | nil => exact .inl (by rw [zero]; rfl)
      | cons next rest =>
          exact absurd ⟨next, rest, others next List.mem_cons_self, by rw [zero]⟩ needed
    · exact .inr ⟨[c], ⟨c, by simp [first, zero], rfl⟩, rest, mem_oneChar_kstar.mpr others, rfl⟩

theorem takeWhile_isDigit_append {front back : List Char} (digits : ∀ c ∈ front, c.isDigit = true)
    (ends : ∀ c ∈ back.head?, c.isDigit = false) : (front ++ back).takeWhile Char.isDigit = front := by
  rw [List.takeWhile_append_of_pos digits]
  cases back with
  | nil => simp
  | cons c back => simp [ends c rfl]

/-- No text of a fraction or of an exponent begins with a digit. -/
theorem not_isDigit_head_of_mem {text : List Char}
    (member : text ∈ (1 + fractionTexts) * (1 + exponentTexts)) :
    ∀ c ∈ text.head?, c.isDigit = false := by
  obtain ⟨_, fraction, _, power, rfl⟩ := member
  rcases fraction with rfl | ⟨_, rfl, places, _, rfl⟩
  · rcases power with rfl | ⟨_, ⟨_, letter, sign, _, rfl⟩, digits, _, rfl⟩
    · simp
    · rcases letter with rfl | rfl <;> simp
  · simp

/-- Digits with decimal places are a number where the digits before the point are a whole one. -/
theorem point_mem_numberTexts_iff {whole places : List Char} (inWhole : whole ∈ digits)
    (inPlaces : places ∈ digits) :
    whole ++ '.' :: places ∈ numberTexts ↔ whole ∈ wholeTexts := by
  have wholeDigits := (mem_digits_iff.mp inWhole).2
  constructor
  · intro number
    rw [numberTexts, mul_assoc] at number
    obtain ⟨_, ⟨sign, inSign, own, inOwn, rfl⟩, back, inBack, same⟩ := number
    have ownDigits := (mem_digits_iff.mp (mem_wholeTexts_iff.mp inOwn).1).2
    rcases inSign with rfl | rfl
    · have taken := congrArg (List.takeWhile Char.isDigit) same
      simp only [List.nil_append] at taken
      rw [takeWhile_isDigit_append ownDigits (not_isDigit_head_of_mem inBack),
        takeWhile_isDigit_append wholeDigits (by simp)] at taken
      exact taken ▸ inOwn
    · obtain ⟨c, rest, rfl⟩ := List.exists_cons_of_ne_nil (mem_digits_iff.mp inWhole).1
      obtain ⟨rfl, _⟩ := List.cons.inj same
      exact absurd (wholeDigits _ List.mem_cons_self) (by decide)
  · intro number
    have unsigned : whole ∈ (1 + {['-']}) * wholeTexts := ⟨[], .inl rfl, whole, number, rfl⟩
    have fraction : '.' :: places ∈ 1 + fractionTexts := .inr ⟨['.'], rfl, places, inPlaces, rfl⟩
    exact mem_mul_of_nil_mem (Language.append_mem_mul unsigned fraction) (.inl rfl)

end ToolGrammar.Json

namespace ToolGrammar.Grammar

open Computability Schema Gbnf Text

/-- Digits, a point, and so many decimal places; neither a sign nor an exponent. -/
def FixedPoint (places : Nat) (text : List Char) : Prop :=
  ∃ whole fraction, text = whole ++ '.' :: fraction ∧ whole ≠ [] ∧
    (∀ c ∈ whole, c.isDigit = true) ∧ fraction.length = places ∧ ∀ c ∈ fraction, c.isDigit = true

theorem mem_fixedTexts_iff {precision : Precision} {text : List Char} :
    text ∈ fixedTexts precision ↔ FixedPoint precision.digits text := by
  rw [fixedTexts, mul_assoc]
  constructor
  · intro split
    obtain ⟨whole, inWhole, _, ⟨_, rfl, fraction, inFraction, rfl⟩, rfl⟩ := split
    obtain ⟨nonempty, digits⟩ := Json.mem_digits_iff.mp inWhole
    obtain ⟨length, places⟩ := mem_oneChar_pow.mp inFraction
    exact ⟨whole, fraction, rfl, nonempty, digits, length, places⟩
  · intro fixed
    obtain ⟨whole, fraction, rfl, nonempty, digits, length, places⟩ := fixed
    exact ⟨whole, Json.mem_digits_iff.mpr ⟨nonempty, digits⟩, _,
      ⟨['.'], rfl, fraction, mem_oneChar_pow.mpr ⟨length, places⟩, rfl⟩, rfl⟩

theorem FixedPoint.mem_numberTexts_iff {places : Nat} {text : List Char}
    (fixed : FixedPoint places text) (some : 0 < places) :
    text ∈ Json.numberTexts ↔ ¬ Json.NeedlessZero text := by
  obtain ⟨whole, fraction, rfl, nonempty, digits, rfl, inside⟩ := fixed
  have inWhole := Json.mem_digits_iff.mpr ⟨nonempty, digits⟩
  have inFraction := Json.mem_digits_iff.mpr ⟨List.ne_nil_of_length_pos some, inside⟩
  rw [Json.point_mem_numberTexts_iff inWhole inFraction, Json.mem_wholeTexts_iff,
    and_iff_right inWhole]
  refine not_congr ?_
  -- A point is no digit, so a zero right before the point is not needless.
  obtain ⟨c, rest, rfl⟩ := List.exists_cons_of_ne_nil nonempty
  cases rest with
  | nil => simp [Json.NeedlessZero]
  | cons next rest => simp [Json.NeedlessZero]

namespace Registry

/-- A line for each rule. -/
def text (registry : Registry) : String :=
  "\n".intercalate (registry.rules.map Rule.render) ++ "\n"

def productions (registry : Registry) : List Production :=
  registry.rules.map Rule.production

theorem read?_text {registry : Registry} (some : registry.rules ≠ []) :
    read? registry.text.toList = .some registry.productions := by
  have lines : List.Forall₂ SpellsProduction ((registry.rules.map Rule.render).map String.toList)
      registry.productions := by
    rw [productions, List.map_map, List.forall₂_map_left_iff, List.forall₂_map_right_iff,
      List.forall₂_same]
    exact fun rule float => Rule.spells (proper_of_mem float)
  have whole := read?_lines lines (by simpa using some) []
  have ended : read? [] = .some [] := by cbv
  rw [ended] at whole
  simpa [text] using whole

theorem language_productions (registry : Registry) :
    ∀ rule ∈ registry.rules, language registry.productions (.reference rule.id.text) =
      language registry.productions (.group rule.body.alternatives) := by
  intro rule member
  have kept : rule.production ∈ registry.productions := List.mem_map_of_mem member
  refine language_reference kept fun other found same => ?_
  obtain ⟨own, inside, rfl⟩ := List.mem_map.mp found
  have named : own.id = rule.id := RuleId.text_inj.mp same
  rw [List.inj_on_of_nodup_map registry.nodup_ids inside member named]

theorem derives_iff {registry : Registry} {precision : Precision}
    (used : precision ∈ registry.precisions) {text : List Char} :
    Derives registry.productions (.reference (floatId precision).text) text ↔
      FixedPoint precision.digits text := by
  rw [← mem_fixedTexts_iff, ← mem_language]
  exact Set.ext_iff.mp (language_float registry.language_productions used) text

theorem rules_ne_nil {registry : Registry} {precision : Precision}
    (used : precision ∈ registry.precisions) : registry.rules ≠ [] :=
  List.ne_nil_of_mem (mem_rules.mpr (.inl ⟨precision, used, .inl rfl⟩))

end Registry

/-- Read as a grammar, the rules of a registry derive for each of its precisions exactly the numbers
with so many decimal places, among them those that JSON does not know for their leading zeros. -/
theorem float_derives_fixedPoint {registry : Registry} {precision : Precision}
    (used : precision ∈ registry.precisions) :
    ∃ productions, read? registry.text.toList = some productions ∧
      ∀ text,
        (Derives productions (.reference (floatId precision).text) text ↔
          FixedPoint precision.digits text) ∧
        (FixedPoint precision.digits text →
          (text ∈ Json.numberTexts ↔ ¬ Json.NeedlessZero text)) :=
  ⟨registry.productions, Registry.read?_text (Registry.rules_ne_nil used), fun _ =>
    ⟨Registry.derives_iff used, fun fixed => fixed.mem_numberTexts_iff precision.positive⟩⟩

def tenths : Precision :=
  ⟨1, Nat.one_pos, by decide⟩

theorem tenths_mem : tenths ∈ (Registry.empty.insert tenths).precisions :=
  Registry.mem_insert.mpr (.inl rfl)

theorem fixedPoint_needless : FixedPoint 1 "00.5".toList :=
  ⟨['0', '0'], ['5'], rfl, by simp, by simp, rfl, by simp⟩

theorem float_derives_fixedPoint_tenths :
    tenths ∈ (Registry.empty.insert tenths).precisions ∧
      ∃ productions, read? (Registry.empty.insert tenths).text.toList = some productions ∧
        ∀ text,
          (Derives productions (.reference (floatId tenths).text) text ↔ FixedPoint 1 text) ∧
          (FixedPoint 1 text → (text ∈ Json.numberTexts ↔ ¬ Json.NeedlessZero text)) :=
  ⟨tenths_mem, float_derives_fixedPoint tenths_mem⟩

/-- A derived text that is no JSON number: zeros may lead the digits before the point. -/
theorem needless_zero_derived :
    ∃ productions, read? (Registry.empty.insert tenths).text.toList = some productions ∧
      Derives productions (.reference "float-1") "00.5".toList ∧
      "00.5".toList ∉ Json.numberTexts := by
  refine ⟨_, Registry.read?_text (Registry.rules_ne_nil tenths_mem),
    (Registry.derives_iff tenths_mem).mpr fixedPoint_needless, fun number => ?_⟩
  exact (fixedPoint_needless.mem_numberTexts_iff tenths.positive).mp number
    ⟨'0', ['.', '5'], by decide, rfl⟩

end ToolGrammar.Grammar
