import Mathlib

namespace ToolGrammar.Text

open Computability

def oneChar (kind : Char → Bool) : Language Char :=
  {text | ∃ c, kind c = true ∧ text = [c]}

theorem mem_oneChar {kind : Char → Bool} {text : List Char} :
    text ∈ oneChar kind ↔ ∃ c, kind c = true ∧ text = [c] :=
  Iff.rfl

theorem mem_oneChar_kstar {kind : Char → Bool} {text : List Char} :
    text ∈ (oneChar kind)∗ ↔ ∀ c ∈ text, kind c = true := by
  rw [Language.mem_kstar]
  constructor
  · intro repeated c member
    obtain ⟨parts, rfl, each⟩ := repeated
    obtain ⟨part, found, inside⟩ := List.mem_flatten.mp member
    obtain ⟨d, ofKind, rfl⟩ := each part found
    rwa [List.mem_singleton.mp inside]
  · intro each
    refine ⟨text.map fun c => [c], (List.flatMap_singleton' text).symm, fun part member => ?_⟩
    obtain ⟨c, found, rfl⟩ := List.mem_map.mp member
    exact ⟨c, each c found, rfl⟩

theorem mem_oneChar_pow {kind : Char → Bool} {n : Nat} {text : List Char} :
    text ∈ oneChar kind ^ n ↔ text.length = n ∧ ∀ c ∈ text, kind c = true := by
  induction n generalizing text with
  | zero =>
      rw [pow_zero, Language.mem_one, List.length_eq_zero_iff]
      exact ⟨fun empty => ⟨empty, by simp [empty]⟩, fun empty => empty.1⟩
  | succ n ih =>
      rw [pow_succ', Language.mem_mul]
      constructor
      · intro split
        obtain ⟨_, ⟨c, ofKind, rfl⟩, rest, inRest, rfl⟩ := split
        obtain ⟨length, each⟩ := ih.mp inRest
        exact ⟨by simp [length], by simpa [ofKind] using each⟩
      · intro ofKind
        obtain ⟨length, each⟩ := ofKind
        cases text with
        | nil => cases length
        | cons c rest =>
            refine ⟨[c], ⟨c, each c List.mem_cons_self, rfl⟩, rest, ih.mpr ⟨?_, ?_⟩, rfl⟩
            · exact Nat.succ.inj length
            · exact fun d member => each d (List.mem_cons_of_mem c member)

theorem mem_sum {languages : List (Language Char)} {text : List Char} :
    text ∈ languages.sum ↔ ∃ language ∈ languages, text ∈ language := by
  induction languages with
  | nil => simp [Language.notMem_zero]
  | cons first rest ih => rw [List.sum_cons, Language.mem_add, ih, List.exists_mem_cons_iff]

theorem mem_self (text : List Char) : text ∈ ({text} : Language Char) :=
  rfl

/-- What may be empty may be left out. -/
theorem mem_mul_of_nil_mem {texts gap : Language Char} {text : List Char} (member : text ∈ texts)
    (empty : [] ∈ gap) : text ∈ texts * gap :=
  ⟨text, member, [], empty, List.append_nil text⟩

theorem singleton_append (front back : List Char) :
    ({front ++ back} : Language Char) = {front} * {back} := by
  ext text
  rw [Language.mem_mul]
  constructor
  · intro same
    cases same
    exact ⟨front, rfl, back, rfl, rfl⟩
  · intro split
    obtain ⟨_, rfl, _, rfl, rfl⟩ := split
    rfl

/-- The items in order with a separator between each two. -/
def joined (separator : Language Char) : List (Language Char) → Language Char
  | [] => 1
  | [item] => item
  | item :: rest => item * separator * joined separator rest

theorem joined_cons (separator item : Language Char) (rest : List (Language Char)) :
    joined separator (item :: rest) =
      item * (if rest.isEmpty then 1 else separator * joined separator rest) := by
  cases rest <;> simp [joined, mul_assoc]

theorem joined_replicate (separator item : Language Char) (n : Nat) :
    joined separator (List.replicate (n + 1) item) = item * (separator * item) ^ n := by
  induction n with
  | zero => simp [joined]
  | succ n ih =>
      rw [List.replicate_succ, joined_cons, ih, pow_succ', mul_assoc separator]
      rfl

/-- Any number of items with separators: none, or one and then others after a separator each. -/
theorem iSup_joined_replicate (separator item : Language Char) :
    ⨆ n, joined separator (List.replicate n item) = 1 + item * (separator * item)∗ := by
  ext text
  rw [Language.mem_iSup, Language.mem_add, Language.kstar_eq_iSup_pow, Language.mul_iSup,
    Language.mem_iSup]
  constructor
  · intro counted
    obtain ⟨n, member⟩ := counted
    cases n with
    | zero => exact .inl member
    | succ n => exact .inr ⟨n, joined_replicate separator item n ▸ member⟩
  · intro either
    rcases either with empty | ⟨n, member⟩
    · exact ⟨0, empty⟩
    · exact ⟨n + 1, joined_replicate separator item n ▸ member⟩

/-- Where each item has its texts among those of some `goal`, joined items have theirs among those
of joined goals. -/
theorem exists_joined {α β : Type} {separator other : Language Char} (wider : separator ≤ other)
    {goal : β → Language Char} {allowed : α → β → Prop} {items : List (Language Char)}
    {sources : List α}
    (each : List.Forall₂ (fun item source => ∀ text ∈ item, ∃ value, text ∈ goal value ∧
      allowed source value) items sources) {text : List Char}
    (member : text ∈ joined separator items) :
    ∃ values, List.Forall₂ allowed sources values ∧ text ∈ joined other (values.map goal) := by
  induction each generalizing text with
  | nil => exact ⟨[], .nil, member⟩
  | @cons item source items sources first later ih =>
      cases later with
      | nil =>
          obtain ⟨value, inside, fits⟩ := first text member
          exact ⟨[value], .cons fits .nil, inside⟩
      | cons next others =>
          obtain ⟨_, ⟨front, inFront, middle, inMiddle, rfl⟩, back, inBack, rfl⟩ := member
          obtain ⟨value, inside, fits⟩ := first front inFront
          obtain ⟨values, rest, joinedRest⟩ := ih inBack
          cases rest with
          | cons fitsNext fitsOthers =>
              exact ⟨value :: _ :: _, .cons fits (.cons fitsNext fitsOthers),
                Language.append_mem_mul (Language.append_mem_mul inside (wider inMiddle))
                  joinedRest⟩

theorem exists_joined_replicate {β : Type} {separator other item : Language Char}
    (wider : separator ≤ other) {goal : β → Language Char} {allowed : β → Prop}
    (each : ∀ text ∈ item, ∃ value, text ∈ goal value ∧ allowed value) (n : Nat)
    {text : List Char} (member : text ∈ joined separator (List.replicate n item)) :
    ∃ values : List β, text ∈ joined other (values.map goal) ∧ ∀ value ∈ values, allowed value := by
  have sources : ∀ n, List.Forall₂ (fun item (_ : Unit) => ∀ text ∈ item, ∃ value,
      text ∈ goal value ∧ allowed value) (List.replicate n item) (List.replicate n ()) := by
    intro n
    induction n with
    | zero => exact .nil
    | succ n ih => exact .cons each ih
  obtain ⟨values, fit, inside⟩ := exists_joined wider (sources n) member
  refine ⟨values, inside, ?_⟩
  generalize List.replicate n () = units at fit
  clear inside
  induction fit with
  | nil => simp
  | cons first _ ih => simpa [first] using ih

/-- The same for what stands between two other texts. -/
theorem exists_between {β : Type} {left left' right right' inner : Language Char}
    {goal : β → Language Char} {allowed : β → Prop} (lefts : left ≤ left') (rights : right ≤ right')
    (each : ∀ text ∈ inner, ∃ value, text ∈ goal value ∧ allowed value) {text : List Char}
    (member : text ∈ left * inner * right) :
    ∃ value, text ∈ left' * goal value * right' ∧ allowed value := by
  obtain ⟨_, ⟨front, inFront, middle, inMiddle, rfl⟩, back, inBack, rfl⟩ := member
  obtain ⟨value, inside, fits⟩ := each middle inMiddle
  exact ⟨value, Language.append_mem_mul (Language.append_mem_mul (lefts inFront) inside)
    (rights inBack), fits⟩

theorem intercalate_mem_joined {separator : Language Char} {between : List Char}
    (member : between ∈ separator) {texts : List (List Char)} {items : List (Language Char)}
    (each : List.Forall₂ (fun text item => text ∈ item) texts items) :
    between.intercalate texts ∈ joined separator items := by
  induction each with
  | nil => exact rfl
  | cons first later ih =>
      cases later with
      | nil => simpa [joined] using first
      | cons next others =>
          rw [List.intercalate_cons_cons]
          exact Language.append_mem_mul (Language.append_mem_mul first member) ih

end ToolGrammar.Text
