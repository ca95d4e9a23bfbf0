namespace ToolGrammar.Json

structure Position where
  line : Nat
  column : Nat
  deriving DecidableEq, Repr

def Position.origin : Position :=
  ⟨1, 0⟩

def Position.after (here : Position) (c : Char) : Position :=
  if c = '\n' then ⟨here.line + 1, 0⟩ else ⟨here.line, here.column + c.utf8Size⟩

/-- After the first byte of the text that follows; the end of the text stays where it is. -/
def Position.peek (here : Position) : List Char → Position
  | [] => here
  | c :: _ => if c = '\n' then ⟨here.line + 1, 0⟩ else ⟨here.line, here.column + 1⟩

/-- After so many bytes of the text that follows, the last of them possibly inside a character. -/
def Position.skip (here : Position) : Nat → List Char → Position
  | 0, _ | _, [] => here
  | bytes, c :: rest =>
      if bytes < c.utf8Size then ⟨here.line, here.column + bytes⟩
      else (here.after c).skip (bytes - c.utf8Size) rest

def Position.endOf (here : Position) (text : List Char) : Position :=
  text.foldl Position.after here

def Position.describe (here : Position) : String :=
  " at line " ++ toString here.line ++ " column " ++ toString here.column

end ToolGrammar.Json
