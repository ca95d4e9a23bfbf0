import ToolGrammar.Json.Value
import ToolGrammar.Text.Escaped

namespace ToolGrammar.Json

/-- The escape of a control character without a short form: four digits in base sixteen. -/
def codeEscape (c : Char) : List Char :=
  let digits := Nat.toDigits 16 c.toNat
  '\\' :: 'u' :: List.replicate (4 - digits.length) '0' ++ digits

/-- The characters that stand for one character inside a JSON string. -/
def escapeChar (c : Char) : List Char :=
  match c with
  | '"' => ['\\', '"']
  | '\\' => ['\\', '\\']
  | '\x08' => ['\\', 'b']
  | '\t' => ['\\', 't']
  | '\n' => ['\\', 'n']
  | '\x0c' => ['\\', 'f']
  | '\r' => ['\\', 'r']
  | _ => if c.toNat < 0x20 then codeEscape c else [c]

def quotedChars (text : List Char) : List Char :=
  '"' :: text.flatMap escapeChar ++ ['"']

def quoted (text : String) : String :=
  String.ofList (quotedChars text.toList)

/-- Numbers from `0.00001` up to sixteen digits before the point are written positionally, and an
exponent has a sign. -/
def numberStyle : Decimal.Style where
  leastPoint := -4
  greatestPoint := 16
  plusSign := true

/-- An infinite number, and what is no number, has no JSON text of its own and is written `null`. -/
def Number.render : Number → String
  | .integer value => toString value
  | .real value => (numberStyle.text? value).getD "null"

mutual

def Value.render : Value → String
  | .null => "null"
  | .bool value => if value then "true" else "false"
  | .number value => value.render
  | .string value => quoted value
  | .array items => "[" ++ ",".intercalate (renderItems items) ++ "]"
  | .object members => "\x7b" ++ ",".intercalate (renderMembers members) ++ "\x7d"
termination_by structural value => value

def renderItems : List Value → List String
  | [] => []
  | item :: rest => item.render :: renderItems rest
termination_by structural items => items

def renderMembers : List (String × Value) → List String
  | [] => []
  | (name, value) :: rest => (quoted name ++ ":" ++ value.render) :: renderMembers rest
termination_by structural members => members

end

end ToolGrammar.Json
