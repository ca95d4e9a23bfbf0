import ToolGrammar.Grammar.Literal
import ToolGrammar.Json.Lexeme
import ToolGrammar.Proofs.Gbnf.Derivation

/-!
Reading of grammars. A text is cut into tokens; each line of tokens is a production, whose
alternatives are read from left to right with the unfinished groups on a stack.
-/
namespace ToolGrammar.Gbnf

open Grammar.Literal (decodeAfter escaped?)

inductive Token where
  | name (text : String)
  | literal (text : List Char)
  | oneOf (chars : CharClass)
  | defines
  | bar
  | opening
  | closing
  | optional
  | star
  | plus
  | lineEnd
  deriving DecidableEq, Repr

/-- The letters, digits and hyphens that names are made of. -/
def isNameChar (c : Char) : Bool :=
  c.isAlphanum || c == '-'

def isBlank (c : Char) : Bool :=
  c == ' ' || c == '\t'

def sign? : Char → Option Token
  | '|' => some .bar
  | '(' => some .opening
  | ')' => some .closing
  | '?' => some .optional
  | '*' => some .star
  | '+' => some .plus
  | '\n' => some .lineEnd
  | _ => none

/-- The characters of a class up to its end, escapes replaced, and what follows the end. A bare
hyphen, which may make a run of its neighbours, is kept apart as `none`. -/
def classChars? : List Char → Option (List (Option Char) × List Char)
  | [] => none
  | ']' :: rest => some ([], rest)
  | '\\' :: 'x' :: high :: low :: rest => do
      let high ← Json.hexDigit? high
      let low ← Json.hexDigit? low
      let (chars, after) ← classChars? rest
      return (some (Char.ofNat (16 * high + low)) :: chars, after)
  | '\\' :: c :: rest => do
      let decoded ← escaped? c
      let (chars, after) ← classChars? rest
      return (some decoded :: chars, after)
  | c :: rest => do
      let (chars, after) ← classChars? rest
      return ((if c = '-' then none else some c) :: chars, after)

/-- The runs of a class. A hyphen without a neighbour on both sides is a character. -/
def classRuns : List (Option Char) → List (Char × Char)
  | some first :: none :: some last :: rest => (first, last) :: classRuns rest
  | char :: rest => (char.getD '-', char.getD '-') :: classRuns rest
  | [] => []

def classAfter (negated : Bool) (text : List Char) : Option (Token × List Char) :=
  (classChars? text).map fun (chars, after) => (.oneOf ⟨negated, classRuns chars⟩, after)

def token? (c : Char) (rest : List Char) : Option (Token × List Char) :=
  if isNameChar c then
    some (.name (String.ofList (c :: rest.takeWhile isNameChar)), rest.dropWhile isNameChar)
  else
    match c, rest with
    | '"', rest => (decodeAfter rest).map fun (text, after) => (.literal text, after)
    | '[', '^' :: rest => classAfter true rest
    | '[', rest => classAfter false rest
    | ':', ':' :: '=' :: rest => some (.defines, rest)
    | c, rest => (sign? c).map (·, rest)

theorem decodeAfter_shorter {text decoded after : List Char}
    (read : decodeAfter text = some (decoded, after)) : after.length < text.length := by
  induction text using Grammar.Literal.decodeAfter.induct generalizing decoded with
  | case1 => simp [decodeAfter] at read
  | case2 rest =>
      simp only [decodeAfter, Option.some.injEq, Prod.mk.injEq] at read
      simp [read.2]
  | case3 c rest ih =>
      simp only [decodeAfter, bind, Option.bind_eq_some_iff] at read
      obtain ⟨_, _, ⟨text, later⟩, tail, read⟩ := read
      cases read
      have shorter := ih tail
      simp only [List.length_cons] at shorter ⊢
      omega
  | case4 => simp [decodeAfter] at read
  | case5 c rest quote escape ending ih =>
      rw [decodeAfter] at read
      · simp only [bind, Option.bind_eq_some_iff] at read
        obtain ⟨⟨text, later⟩, tail, read⟩ := read
        cases read
        have shorter := ih tail
        simp only [List.length_cons] at shorter ⊢
        omega
      all_goals assumption

theorem classChars?_shorter {text after : List Char} {chars : List (Option Char)}
    (read : classChars? text = some (chars, after)) : after.length < text.length := by
  induction text using classChars?.induct generalizing chars with
  | case1 => simp [classChars?] at read
  | case2 rest =>
      simp only [classChars?, Option.some.injEq, Prod.mk.injEq] at read
      simp [read.2]
  | case3 high low rest ih =>
      simp only [classChars?, bind, Option.bind_eq_some_iff] at read
      obtain ⟨_, _, _, _, ⟨chars, later⟩, tail, read⟩ := read
      cases read
      have shorter := ih tail
      simp only [List.length_cons] at shorter ⊢
      omega
  | case4 c rest code ih =>
      rw [classChars?] at read
      · simp only [bind, Option.bind_eq_some_iff] at read
        obtain ⟨_, _, ⟨chars, later⟩, tail, read⟩ := read
        cases read
        have shorter := ih tail
        simp only [List.length_cons] at shorter ⊢
        omega
      all_goals assumption
  | case5 c rest ending code escape ih =>
      rw [classChars?] at read
      · simp only [bind, Option.bind_eq_some_iff] at read
        obtain ⟨⟨chars, later⟩, tail, read⟩ := read
        cases read
        have shorter := ih tail
        simp only [List.length_cons] at shorter ⊢
        omega
      all_goals assumption

theorem classAfter_shorter {negated : Bool} {text after : List Char} {token : Token}
    (read : classAfter negated text = some (token, after)) : after.length < text.length := by
  simp only [classAfter, Option.map_eq_some_iff, Prod.mk.injEq] at read
  obtain ⟨⟨chars, later⟩, inner, _, rfl⟩ := read
  exact classChars?_shorter inner

theorem token?_shorter {c : Char} {rest after : List Char} {token : Token}
    (read : token? c rest = some (token, after)) : after.length ≤ rest.length := by
  unfold token? at read
  split at read
  · simp only [Option.some.injEq, Prod.mk.injEq] at read
    rw [← read.2]
    exact (List.dropWhile_suffix _).length_le
  · split at read
    · simp only [Option.map_eq_some_iff, Prod.mk.injEq] at read
      obtain ⟨⟨text, later⟩, inner, _, rfl⟩ := read
      exact (decodeAfter_shorter inner).le
    · have shorter := classAfter_shorter read
      simp only [List.length_cons]
      omega
    · exact (classAfter_shorter read).le
    · simp only [Option.some.injEq, Prod.mk.injEq] at read
      simp only [← read.2, List.length_cons]
      omega
    · simp only [Option.map_eq_some_iff, Prod.mk.injEq] at read
      obtain ⟨_, _, _, rfl⟩ := read
      exact le_rfl

/-- The tokens of a text, blanks left out. -/
def tokens? (text : List Char) : Option (List Token) :=
  match text with
  | [] => some []
  | c :: rest =>
      if isBlank c then tokens? rest
      else
        match _read : token? c rest with
        | some (token, after) => (tokens? after).map (token :: ·)
        | none => none
termination_by text.length
decreasing_by
  · simp
  · exact Nat.lt_succ_of_le (token?_shorter _read)

/-- An unfinished group: its finished alternatives and the items of the next one, the latest
first. -/
structure Frame where
  finished : List (List Item)
  items : List Item

namespace Frame

def fresh : Frame :=
  ⟨[], []⟩

def push (item : Item) (frame : Frame) : Frame :=
  { frame with items := item :: frame.items }

/-- Ends an alternative. -/
def next (frame : Frame) : Frame :=
  ⟨frame.items.reverse :: frame.finished, []⟩

/-- Puts an operator on the latest item. -/
def modify? (operator : Item → Item) (frame : Frame) : Option Frame :=
  match frame.items with
  | [] => none
  | item :: items => some { frame with items := operator item :: items }

def alternatives (frame : Frame) : List (List Item) :=
  frame.next.finished.reverse

end Frame

/-- The alternatives that the tokens complete, `outer` being the groups around the frame. -/
def alternatives? (frame : Frame) (outer : List Frame) :
    List Token → Option (List (List Item))
  | [] => if outer.isEmpty then some frame.alternatives else none
  | .name text :: rest => alternatives? (frame.push (.reference text)) outer rest
  | .literal text :: rest => alternatives? (frame.push (.literal text)) outer rest
  | .oneOf chars :: rest => alternatives? (frame.push (.oneOf chars)) outer rest
  | .bar :: rest => alternatives? frame.next outer rest
  | .opening :: rest => alternatives? .fresh (frame :: outer) rest
  | .closing :: rest =>
      match outer with
      | [] => none
      | around :: outer => alternatives? (around.push (.group frame.alternatives)) outer rest
  | .optional :: rest => (frame.modify? .optional).bind fun frame => alternatives? frame outer rest
  | .star :: rest => (frame.modify? .star).bind fun frame => alternatives? frame outer rest
  | .plus :: rest => (frame.modify? .plus).bind fun frame => alternatives? frame outer rest
  | .defines :: _ | .lineEnd :: _ => none

/-- The production of a line. -/
def production? : List Token → Option Production
  | .name name :: .defines :: body => (alternatives? .fresh [] body).map (⟨name, ·⟩)
  | _ => none

def productions? (tokens : List Token) : Option (List Production) :=
  ((tokens.splitOn .lineEnd).filter fun line => !line.isEmpty).mapM production?

/-- The grammar that a text holds. -/
def read? (text : List Char) : Option (List Production) :=
  (tokens? text).bind productions?

end ToolGrammar.Gbnf
