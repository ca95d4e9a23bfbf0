import ToolGrammar.Json.Value
import ToolGrammar.Keyed
import ToolGrammar.Text.Pieces

namespace ToolGrammar.Json

/-- A token as it is meant; a tilde before any other character stands for itself. -/
def unescapeToken : List Char → List Char
  | '~' :: '1' :: rest => '/' :: unescapeToken rest
  | '~' :: '0' :: rest => '~' :: unescapeToken rest
  | char :: rest => char :: unescapeToken rest
  | [] => []

/-- The tokens of a pointer; the empty pointer has none. -/
def pointerTokens? (pointer : String) : Option (List String) :=
  if pointer = "" then some []
  else
    match pointer.toList.splitOn '/' with
    | [] :: tokens => some (tokens.map fun token => String.ofList (unescapeToken token))
    | _ => none

def digitsValue (digits : List Char) : Nat :=
  digits.foldl (fun value digit => 10 * value + (digit.toNat - '0'.toNat)) 0

def tokenPosition? (token : String) : Option Nat :=
  match token.toList with
  | [] => none
  | ['0'] => some 0
  | '0' :: _ => none
  | digits => if digits.all Char.isDigit then some (digitsValue digits) else none

def Value.step? (value : Value) (token : String) : Option Value :=
  match value with
  | .object members => Keyed.lookup? token members
  | .array items => (tokenPosition? token).bind (items[·]?)
  | _ => none

def Value.pointer? (value : Value) (pointer : String) : Option Value := do
  (← pointerTokens? pointer).foldlM Value.step? value

end ToolGrammar.Json
