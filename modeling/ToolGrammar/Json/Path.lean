namespace ToolGrammar.Json

inductive Step where
  | member (name : String)
  | item (index : Nat)
  /-- A member whose name could not be read. -/
  | unknown
  deriving DecidableEq, Repr

abbrev Path := List Step

def Step.text : Step → String
  | .member name => name
  | .item index => "[" ++ toString index ++ "]"
  | .unknown => "?"

/-- Steps after the first one; an item needs no dot before its bracket. -/
def Path.rest : Path → String
  | [] => ""
  | .item index :: steps => (Step.item index).text ++ Path.rest steps
  | step :: steps => "." ++ step.text ++ Path.rest steps

/-- The root is written as a dot. -/
def Path.display : Path → String
  | [] => "."
  | step :: steps => step.text ++ Path.rest steps

end ToolGrammar.Json
