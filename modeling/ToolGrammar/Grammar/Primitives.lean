namespace ToolGrammar.Grammar

def primitiveLines : List String := [
  "ws ::= ([ \\t\\n] ws)?",
  "string ::= \"\\\"\" ( [^\"\\\\\\x7F\\x00-\\x1F] | \"\\\\\" ([\"\\\\/bfnrt] | \"u\" [0-9a-fA-F] [0-9a-fA-F] [0-9a-fA-F] [0-9a-fA-F]) )* \"\\\"\"",
  "number ::= \"-\"? ([0-9] | [1-9] [0-9]*) (\".\" [0-9]+)? ([eE] [-+]? [0-9]+)?",
  "boolean ::= \"true\" | \"false\""]

def primitiveGrammar : String :=
  "\n".intercalate primitiveLines ++ "\n"

end ToolGrammar.Grammar
