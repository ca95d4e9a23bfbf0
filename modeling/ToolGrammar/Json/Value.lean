import ToolGrammar.Decimal.Shortest

namespace ToolGrammar.Json

/-- A number is an integer of at most 64 bits or a binary64 number. -/
inductive Number where
  | integer (value : Int)
  | real (value : Decimal.Binary64)
  deriving DecidableEq, Repr

inductive Value where
  | null
  | bool (value : Bool)
  | number (value : Number)
  | string (value : String)
  | array (items : List Value)
  | object (members : List (String × Value))
  deriving Repr

end ToolGrammar.Json
