import ToolGrammar.Text.Pieces

namespace ToolGrammar.Snapshot

/-- A line, counted from one, with what each text has there. -/
structure Difference where
  line : Nat
  expected : Option String
  actual : Option String
  deriving DecidableEq, Repr

/-- The first difference of two lists of lines that are not the same. -/
def differenceFrom (line : Nat) : List String → List String → Difference
  | expected :: others, actual :: rest =>
      if expected = actual then differenceFrom (line + 1) others rest
      else ⟨line, some expected, some actual⟩
  | expected, actual => ⟨line, expected.head?, actual.head?⟩

def firstDifference (expected actual : String) : Option Difference :=
  if expected = actual then none
  else some (differenceFrom 1 (Text.pieces '\n' expected) (Text.pieces '\n' actual))

theorem firstDifference_eq_none {expected actual : String} :
    firstDifference expected actual = none ↔ expected = actual := by
  rw [firstDifference]
  split <;> simp_all

/-- The three lines that tell of a difference. -/
def Difference.describe (difference : Difference) : String :=
  "line " ++ toString difference.line ++
    "\n     expected: " ++ difference.expected.getD "<eof>" ++
    "\n     actual:   " ++ difference.actual.getD "<eof>"

end ToolGrammar.Snapshot
