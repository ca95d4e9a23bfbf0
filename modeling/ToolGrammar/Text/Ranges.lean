namespace ToolGrammar.Text

/-- Whether some run spans the character's code. -/
def spanned (runs : List (Nat × Nat)) (c : Char) : Bool :=
  runs.any fun run => run.1 ≤ c.toNat && c.toNat ≤ run.2

end ToolGrammar.Text
