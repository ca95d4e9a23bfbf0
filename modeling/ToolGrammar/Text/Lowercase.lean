import ToolGrammar.Text.Letter

/-!
Lowercasing of whole texts. It is a map of characters save for the capital sigma, whose small form
depends on the letters around it: at the end of a word it is the final one. What ends words cuts
this context, so the texts on its two sides are lowercased each on its own.
-/
namespace ToolGrammar.Text

/-- Whether the first character that is not ignorable has case. -/
def leadsWithCased (text : List Char) : Bool :=
  match text.dropWhile isIgnorable with
  | c :: _ => isCased c
  | [] => false

/-- The small sigma between what was read, nearest character first, and what follows. -/
def smallSigma (read rest : List Char) : Char :=
  if leadsWithCased read && !leadsWithCased rest then 'ς' else 'σ'

/-- The small form of a text that follows `read`, whose nearest character comes first. -/
def lowercaseAfter (read : List Char) : List Char → List Char
  | [] => []
  | c :: rest =>
      (if c = 'Σ' then [smallSigma read rest] else smallForm c) ++ lowercaseAfter (c :: read) rest

def lowercase (text : String) : String :=
  String.ofList (lowercaseAfter [] text.toList)

/-- The character stays as it is, and no letter of one side counts on the other. -/
structure EndsWords (c : Char) : Prop where
  uncased : isCased c = false
  counted : isIgnorable c = false
  small : smallForm c = [c]

theorem endsWords_hyphen : EndsWords '-' where
  uncased := by decide +kernel
  counted := by decide +kernel
  small := by decide +kernel

section

variable {c : Char}

theorem EndsWords.ne_sigma (ends : EndsWords c) : c ≠ 'Σ' := by
  intro sigma
  have cased : isCased 'Σ' = true := by decide +kernel
  rw [← sigma, ends.uncased] at cased
  cases cased

/-- The search for a letter stops at the end of the word at the latest. -/
theorem leadsWithCased_append (ends : EndsWords c) (text beyond : List Char) :
    leadsWithCased (text ++ c :: beyond) = leadsWithCased text := by
  induction text with
  | nil => simp [leadsWithCased, ends.counted, ends.uncased]
  | cons first rest ih =>
      by_cases ignorable : isIgnorable first = true
      · simpa [leadsWithCased, ignorable] using ih
      · simp [leadsWithCased, ignorable]

theorem lowercaseAfter_append_left (ends : EndsWords c) (read beyond text : List Char) :
    lowercaseAfter (read ++ c :: beyond) text = lowercaseAfter read text := by
  induction text generalizing read with
  | nil => rfl
  | cons first rest ih =>
      rw [lowercaseAfter, lowercaseAfter, smallSigma, smallSigma, leadsWithCased_append ends,
        ← List.cons_append, ih]

theorem lowercaseAfter_append (ends : EndsWords c) (read before after : List Char) :
    lowercaseAfter read (before ++ c :: after) =
      lowercaseAfter read before ++ c :: lowercaseAfter [] after := by
  induction before generalizing read with
  | nil =>
      have fresh : lowercaseAfter (c :: read) after = lowercaseAfter [] after :=
        lowercaseAfter_append_left ends [] read after
      simp [lowercaseAfter, ends.ne_sigma, ends.small, fresh]
  | cons first rest ih =>
      rw [List.cons_append, lowercaseAfter, lowercaseAfter, smallSigma, smallSigma,
        leadsWithCased_append ends, ih, List.append_assoc]

theorem lowercase_append (ends : EndsWords c) (before after : String) :
    lowercase (before ++ String.singleton c ++ after) =
      lowercase before ++ String.singleton c ++ lowercase after := by
  rw [← String.toList_inj]
  simp [lowercase, lowercaseAfter_append ends]

end

end ToolGrammar.Text
