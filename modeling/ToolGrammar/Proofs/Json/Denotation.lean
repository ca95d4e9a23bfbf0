import ToolGrammar.Proofs.Json.Strings
import ToolGrammar.Proofs.Text.Languages

/-!
JSON texts by the grammar of RFC 8259, each with the value that it denotes. Members keep their
order and numbers their digits; a string denotes its UTF-16 code units.
-/
namespace ToolGrammar.Json

open Computability Text

/-- What texts denote, with strings of type `σ`. -/
inductive Content (σ : Type) where
  | null
  | bool (value : Bool)
  | number (text : List Char)
  | string (value : σ)
  | array (items : List (Content σ))
  | object (members : List (σ × Content σ))

def digit : Language Char :=
  oneChar Char.isDigit

def digits : Language Char :=
  digit * digit∗

/-- Digits without a needless zero before them. -/
def wholeTexts : Language Char :=
  {['0']} + oneChar (fun c => c.isDigit && c != '0') * digit∗

def fractionTexts : Language Char :=
  {['.']} * digits

def exponentTexts : Language Char :=
  ({['e']} + {['E']}) * (1 + ({['-']} + {['+']})) * digits

def numberTexts : Language Char :=
  (1 + {['-']}) * wholeTexts * (1 + fractionTexts) * (1 + exponentTexts)

def spaces : Language Char :=
  {text | ∀ c ∈ text, isSpace c = true}

/-- A bracket, brace, colon or comma, with white space around it. -/
def structural (c : Char) : Language Char :=
  spaces * {[c]} * spaces

def unitTexts (units : List Nat) : Language Char :=
  {text | DenotesUnits text units}

def wordTexts (word : String) : Language Char :=
  {word.toList}

mutual

def valueTexts : Content (List Nat) → Language Char
  | .null => wordTexts "null"
  | .bool value => wordTexts (if value then "true" else "false")
  | .number text => {given | given = text ∧ text ∈ numberTexts}
  | .string units => unitTexts units
  | .array items => structural '[' * joined (structural ',') (itemTexts items) * structural ']'
  | .object members =>
      structural '\x7b' * joined (structural ',') (memberTexts members) * structural '\x7d'
termination_by structural value => value

def itemTexts : List (Content (List Nat)) → List (Language Char)
  | [] => []
  | item :: rest => valueTexts item :: itemTexts rest
termination_by structural items => items

def memberTexts : List (List Nat × Content (List Nat)) → List (Language Char)
  | [] => []
  | (key, value) :: rest =>
      unitTexts key * structural ':' * valueTexts value :: memberTexts rest
termination_by structural members => members

end

/-- The JSON texts that denote a value. -/
def documentTexts (value : Content (List Nat)) : Language Char :=
  spaces * valueTexts value * spaces

theorem itemTexts_eq (items : List (Content (List Nat))) :
    itemTexts items = items.map valueTexts := by
  induction items with
  | nil => rfl
  | cons item rest ih => rw [itemTexts, ih, List.map_cons]

theorem memberTexts_eq (members : List (List Nat × Content (List Nat))) :
    memberTexts members = members.map fun member =>
      unitTexts member.1 * structural ':' * valueTexts member.2 := by
  induction members with
  | nil => rfl
  | cons member rest ih => rw [memberTexts, ih, List.map_cons]

theorem spaces_mul_spaces : spaces * spaces = spaces := by
  ext text
  constructor
  · intro split c member
    obtain ⟨front, inFront, back, inBack, rfl⟩ := split
    exact (List.mem_append.mp member).elim (inFront c) (inBack c)
  · intro member
    exact ⟨text, member, [], List.forall_mem_nil _, List.append_nil text⟩

theorem spaces_append_unique {front other rest otherRest : List Char} {c d : Char}
    (inFront : front ∈ spaces) (inOther : other ∈ spaces) (visible : isSpace c = false)
    (otherVisible : isSpace d = false) (same : front ++ c :: rest = other ++ d :: otherRest) :
    c :: rest = d :: otherRest := by
  induction front generalizing other with
  | nil =>
      cases other with
      | nil => exact same
      | cons e other =>
          obtain ⟨rfl, _⟩ := List.cons.inj same
          rw [inOther c List.mem_cons_self] at visible
          cases visible
  | cons e front ih =>
      cases other with
      | nil =>
          obtain ⟨rfl, _⟩ := List.cons.inj same
          rw [inFront e List.mem_cons_self] at otherVisible
          cases otherVisible
      | cons e' other =>
          exact ih (fun c member => inFront c (List.mem_cons_of_mem _ member))
            (fun c member => inOther c (List.mem_cons_of_mem _ member)) (List.cons.inj same).2

/-- A structural character before strings. -/
theorem structural_append_unique {c : Char} (visible : isSpace c = false)
    {front other text otherText rest otherRest : List Char} {units otherUnits : List Nat}
    (inFront : front ∈ structural c) (inOther : other ∈ structural c)
    (denotes : DenotesUnits text units) (otherDenotes : DenotesUnits otherText otherUnits)
    (same : front ++ (text ++ rest) = other ++ (otherText ++ otherRest)) :
    units = otherUnits ∧ rest = otherRest := by
  obtain ⟨_, ⟨before, inBefore, _, rfl, rfl⟩, after, inAfter, rfl⟩ := inFront
  obtain ⟨_, ⟨before', inBefore', _, rfl, rfl⟩, after', inAfter', rfl⟩ := inOther
  obtain ⟨body, _, quoted⟩ := id denotes
  obtain ⟨body', _, quoted'⟩ := id otherDenotes
  simp only [List.append_assoc, List.singleton_append] at same
  have tails := (List.cons.inj (spaces_append_unique inBefore inBefore' visible visible same)).2
  rw [quoted, quoted'] at tails
  have strings := spaces_append_unique inAfter inAfter' rfl rfl tails
  refine denotes.unique otherDenotes ?_
  rw [quoted, quoted']
  exact strings

/-- The value of the first member, if it is a string, is determined by the text of an object. -/
theorem firstMember_unique {key otherKey units otherUnits : List Nat}
    {rest otherRest : Language Char} {text : List Char}
    (left : text ∈ structural '\x7b' *
      (unitTexts key * (structural ':' * (unitTexts units * rest))))
    (right : text ∈ structural '\x7b' *
      (unitTexts otherKey * (structural ':' * (unitTexts otherUnits * otherRest)))) :
    units = otherUnits := by
  obtain ⟨opening, inOpening, _, ⟨name, inName, _, ⟨colon, inColon, _, ⟨value, inValue, after, _,
    rfl⟩, rfl⟩, rfl⟩, rfl⟩ := left
  obtain ⟨opening', inOpening', _, ⟨name', inName', _, ⟨colon', inColon', _, ⟨value', inValue',
    after', _, rfl⟩, rfl⟩, rfl⟩, same⟩ := right
  obtain ⟨_, tails⟩ := structural_append_unique rfl inOpening' inOpening inName' inName same
  exact (structural_append_unique rfl inColon inColon' inValue inValue' tails.symm).1

end ToolGrammar.Json
