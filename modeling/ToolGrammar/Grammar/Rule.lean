import ToolGrammar.Grammar.Literal
import ToolGrammar.Grammar.RuleId
import ToolGrammar.Schema.Parameter

/-!
Grammar rules. A body is kept as what it describes; its text is a sequence of words with one space
between them.
-/
namespace ToolGrammar.Grammar

open Schema (Precision)

/-- What a body mentions in place of a value: a token of the primitive fragment or another rule. -/
inductive Reference where
  | string
  | number
  | boolean
  | float (precision : Precision)
  | rule (id : RuleId)
  deriving DecidableEq, Repr

/-- Optional white space, a token of the primitive fragment. -/
def space : String := "ws"

def stringToken : String := "string"

def numberToken : String := "number"

def booleanToken : String := "boolean"

/-- The tokens that the primitive fragment has to define. -/
def primitiveTokens : List String :=
  [stringToken, numberToken, booleanToken, space]

def floatId (precision : Precision) : RuleId :=
  ⟨"float-" ++ toString precision.digits⟩

def fractionId (precision : Precision) : RuleId :=
  ⟨"fractional-part-" ++ toString precision.digits⟩

def integerPartId : RuleId :=
  ⟨"integer-part"⟩

def Reference.text : Reference → String
  | .string => stringToken
  | .number => numberToken
  | .boolean => booleanToken
  | .float precision => (floatId precision).text
  | .rule id => id.text

inductive Body where
  | choice (ids : List RuleId)
  /-- A call of the function with the name: an object of its name and its parameters. -/
  | call (name : String) (params : RuleId)
  /-- An object with the given keys in order, each with a value of its reference. -/
  | object (fields : List (String × Reference))
  | array (item : Reference)
  | enum (values : List String)
  /-- Digits, a point, and as many decimal places as the precision asks for. -/
  | fixedPoint (precision : Precision)
  | fraction (precision : Precision)
  | integerPart
  deriving DecidableEq, Repr

def digitClass : String := "[0-9]"

/-- The words of an object's fields, a comma before each field but the first. -/
def fieldWords : List (String × Reference) → List String
  | [] => []
  | [(name, reference)] => [Literal.objectKey name, space, reference.text]
  | (name, reference) :: rest =>
      [Literal.objectKey name, space, reference.text, Literal.ofText ",", space] ++ fieldWords rest

/-- Alternatives with bars between them. -/
def alternatives (words : List String) : List String :=
  words.intersperse "|"

def Body.words : Body → List String
  | .choice ids => alternatives (ids.map (·.text))
  | .call name params =>
      [Literal.ofText "\x7b", space, Literal.objectKey "function", space,
        Literal.functionName name, space, Literal.objectKey "params", space, params.text,
        Literal.ofText "\x7d"]
  | .object fields =>
      [Literal.ofText "\x7b", space] ++ fieldWords fields ++
        (if fields.isEmpty then [] else [space]) ++ [Literal.ofText "\x7d"]
  | .array item =>
      [Literal.ofText "[", space, "(", item.text, "(" ++ Literal.ofText ",", space,
        item.text ++ ")*", ")?", space, Literal.ofText "]"]
  | .enum values => alternatives (values.map Literal.jsonString)
  | .fixedPoint precision =>
      [integerPartId.text, Literal.ofText ".", (fractionId precision).text]
  | .fraction precision => List.replicate precision.digits digitClass
  | .integerPart => [digitClass ++ "+"]

def Body.render (body : Body) : String :=
  " ".intercalate body.words

structure Rule where
  id : RuleId
  body : Body
  deriving DecidableEq, Repr

def Rule.render (rule : Rule) : String :=
  rule.id.text ++ " ::= " ++ rule.body.render

end ToolGrammar.Grammar
