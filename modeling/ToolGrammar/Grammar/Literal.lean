import ToolGrammar.Json.Printer

namespace ToolGrammar.Grammar.Literal

def escapeChar (c : Char) : List Char :=
  match c with
  | '\\' => ['\\', '\\']
  | '"' => ['\\', '"']
  | '\n' => ['\\', 'n']
  | '\r' => ['\\', 'r']
  | '\t' => ['\\', 't']
  | _ => [c]

def encode (text : List Char) : List Char :=
  '"' :: text.flatMap escapeChar ++ ['"']

/-- The character that an escape stands for. -/
def escaped? (c : Char) : Option Char :=
  match c with
  | '\\' => some '\\'
  | '"' => some '"'
  | 'n' => some '\n'
  | 'r' => some '\r'
  | 't' => some '\t'
  | _ => none

/-- The text of a literal whose opening quote has been read, and what follows its closing quote. -/
def decodeAfter : List Char → Option (List Char × List Char)
  | [] => none
  | '"' :: rest => some ([], rest)
  | '\\' :: c :: rest => do
      let decoded ← escaped? c
      let (text, rest) ← decodeAfter rest
      return (decoded :: text, rest)
  | '\\' :: [] => none
  | c :: rest => do
      let (text, rest) ← decodeAfter rest
      return (c :: text, rest)

/-- The text of the literal at the start of a text, and what follows it. -/
def decode? : List Char → Option (List Char × List Char)
  | '"' :: rest => decodeAfter rest
  | _ => none

def ofText (text : String) : String :=
  String.ofList (encode text.toList)

def jsonString (text : String) : String :=
  ofText (Json.quoted text)

/-- The JSON string that denotes a name, and the colon after a key. -/
def objectKey (name : String) : String :=
  ofText (Json.quoted name ++ ":")

/-- The JSON string that denotes a function's name, and the comma after it. -/
def functionName (name : String) : String :=
  ofText (Json.quoted name ++ ",")

end ToolGrammar.Grammar.Literal
