import ToolGrammar.Proofs.Text.Languages

namespace ToolGrammar.Gbnf

open Computability

/-- The characters within some run, or those within none. -/
structure CharClass where
  negated : Bool
  runs : List (Char × Char)
  deriving DecidableEq, Repr

def CharClass.contains (chars : CharClass) (c : Char) : Bool :=
  (chars.runs.any fun run => run.1 ≤ c && c ≤ run.2) != chars.negated

inductive Item where
  | literal (text : List Char)
  | oneOf (chars : CharClass)
  | reference (name : String)
  /-- One of several sequences. -/
  | group (alternatives : List (List Item))
  | optional (item : Item)
  | star (item : Item)
  | plus (item : Item)

structure Production where
  name : String
  alternatives : List (List Item)

section

variable (productions : List Production)

mutual

/-- The item derives the text by the productions. -/
inductive Derives : Item → List Char → Prop where
  | literal (text : List Char) : Derives (.literal text) text
  | oneOf {chars : CharClass} {c : Char} (contained : chars.contains c = true) :
      Derives (.oneOf chars) [c]
  | reference {production : Production} {text : List Char} (defined : production ∈ productions)
      (derived : Derives (.group production.alternatives) text) :
      Derives (.reference production.name) text
  | group {alternatives : List (List Item)} {items : List Item} {text : List Char}
      (member : items ∈ alternatives) (derived : DerivesAll items text) :
      Derives (.group alternatives) text
  | absent {item : Item} : Derives (.optional item) []
  | present {item : Item} {text : List Char} (derived : Derives item text) :
      Derives (.optional item) text
  | star {item : Item} {parts : List (List Char)} (each : ∀ part ∈ parts, Derives item part) :
      Derives (.star item) parts.flatten
  | plus {item : Item} {first : List Char} {parts : List (List Char)}
      (some : Derives item first) (each : ∀ part ∈ parts, Derives item part) :
      Derives (.plus item) (first ++ parts.flatten)

/-- The items derive the text one after another. -/
inductive DerivesAll : List Item → List Char → Prop where
  | nil : DerivesAll [] []
  | cons {item : Item} {items : List Item} {front back : List Char}
      (first : Derives item front) (others : DerivesAll items back) :
      DerivesAll (item :: items) (front ++ back)

end

def language (item : Item) : Language Char :=
  {text | Derives productions item text}

def sequenceLanguage (items : List Item) : Language Char :=
  (items.map (language productions)).prod

variable {productions}

theorem mem_language {item : Item} {text : List Char} :
    text ∈ language productions item ↔ Derives productions item text :=
  Iff.rfl

theorem derivesAll_iff_mem_sequenceLanguage {items : List Item} {text : List Char} :
    DerivesAll productions items text ↔ text ∈ sequenceLanguage productions items := by
  induction items generalizing text with
  | nil =>
      simp only [sequenceLanguage, List.map_nil, List.prod_nil, Language.mem_one]
      constructor
      · intro derived
        cases derived with
        | nil => rfl
      · intro empty
        cases empty
        exact .nil
  | cons item items ih =>
      simp only [sequenceLanguage, List.map_cons, List.prod_cons, Language.mem_mul] at ih ⊢
      constructor
      · intro derived
        cases derived with
        | cons first others => exact ⟨_, first, _, ih.mp others, rfl⟩
      · intro split
        obtain ⟨front, first, back, others, rfl⟩ := split
        exact .cons first (ih.mpr others)

@[simp] theorem language_literal (text : List Char) :
    language productions (.literal text) = {text} := by
  ext word
  constructor
  · intro derived
    cases derived with
    | literal => rfl
  · intro same
    cases same
    exact .literal text

theorem language_oneOf (chars : CharClass) :
    language productions (.oneOf chars) = Text.oneChar chars.contains := by
  ext word
  constructor
  · intro derived
    cases derived with
    | oneOf contained => exact ⟨_, contained, rfl⟩
  · intro single
    obtain ⟨c, contained, rfl⟩ := single
    exact .oneOf contained

theorem language_group (alternatives : List (List Item)) :
    language productions (.group alternatives) =
      (alternatives.map (sequenceLanguage productions)).sum := by
  ext word
  simp only [Text.mem_sum, List.mem_map, exists_exists_and_eq_and]
  constructor
  · intro derived
    cases derived with
    | group member derived =>
        exact ⟨_, member, derivesAll_iff_mem_sequenceLanguage.mp derived⟩
  · intro alternative
    obtain ⟨items, member, derived⟩ := alternative
    exact .group member (derivesAll_iff_mem_sequenceLanguage.mpr derived)

@[simp] theorem language_group_nil : language productions (.group []) = 0 := by
  rw [language_group, List.map_nil, List.sum_nil]

theorem language_group_cons (items : List Item) (alternatives : List (List Item)) :
    language productions (.group (items :: alternatives)) =
      sequenceLanguage productions items + language productions (.group alternatives) := by
  rw [language_group, language_group, List.map_cons, List.sum_cons]

@[simp] theorem language_group_singleton (items : List Item) :
    language productions (.group [items]) = sequenceLanguage productions items := by
  rw [language_group_cons, language_group_nil, add_zero]

@[simp] theorem language_optional (item : Item) :
    language productions (.optional item) = 1 + language productions item := by
  ext word
  rw [Language.mem_add, Language.mem_one]
  constructor
  · intro derived
    cases derived with
    | absent => exact .inl rfl
    | present derived => exact .inr derived
  · intro either
    rcases either with rfl | derived
    · exact .absent
    · exact .present derived

@[simp] theorem language_star (item : Item) :
    language productions (.star item) = (language productions item)∗ := by
  ext word
  rw [Language.mem_kstar]
  constructor
  · intro derived
    cases derived with
    | star each => exact ⟨_, rfl, each⟩
  · intro repeated
    obtain ⟨parts, rfl, each⟩ := repeated
    exact .star each

@[simp] theorem language_plus (item : Item) :
    language productions (.plus item) =
      language productions item * (language productions item)∗ := by
  ext word
  simp only [Language.mem_mul, Language.mem_kstar]
  constructor
  · intro derived
    cases derived with
    | plus some each => exact ⟨_, some, _, ⟨_, rfl, each⟩, rfl⟩
  · intro repeated
    obtain ⟨first, some, _, ⟨parts, rfl, each⟩, rfl⟩ := repeated
    exact .plus some each

/-- A name with one production has the texts of its alternatives. -/
theorem language_reference {production : Production} (defined : production ∈ productions)
    (unique : ∀ other ∈ productions, other.name = production.name → other = production) :
    language productions (.reference production.name) =
      language productions (.group production.alternatives) := by
  ext word
  constructor
  · intro derived
    generalize same : Item.reference production.name = item at derived
    cases derived with
    | reference other derived =>
        obtain rfl := unique _ other (Item.reference.inj same).symm
        exact derived
    | _ => cases same
  · exact .reference defined

@[simp] theorem sequenceLanguage_nil : sequenceLanguage productions [] = 1 :=
  rfl

@[simp] theorem sequenceLanguage_cons (item : Item) (items : List Item) :
    sequenceLanguage productions (item :: items) =
      language productions item * sequenceLanguage productions items :=
  rfl

theorem sequenceLanguage_replicate (n : Nat) (item : Item) :
    sequenceLanguage productions (List.replicate n item) = language productions item ^ n := by
  rw [sequenceLanguage, List.map_replicate, List.prod_replicate]

theorem sequenceLanguage_append (front back : List Item) :
    sequenceLanguage productions (front ++ back) =
      sequenceLanguage productions front * sequenceLanguage productions back := by
  simp [sequenceLanguage]

end

end ToolGrammar.Gbnf
