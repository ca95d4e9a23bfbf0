import ToolGrammar.Proofs.Grammar.Reading
import ToolGrammar.Proofs.Json.Denotation

namespace ToolGrammar.Grammar

open Computability Schema Text

def blanks : Language Char :=
  {text | ∀ c ∈ text, c = ' ' ∨ c = '\t' ∨ c = '\n'}

theorem mem_blanks_iff {text : List Char} :
    text ∈ blanks ↔ ∀ c ∈ text, c = ' ' ∨ c = '\t' ∨ c = '\n' :=
  Iff.rfl

def commaTexts : Language Char :=
  {[',']} * blanks

def booleanTexts : Language Char :=
  {"true".toList} + {"false".toList}

/-- The characters that may stand for themselves: those of JSON but the one at U+007F. -/
def plainTexts : Language Char :=
  oneChar fun c => Json.isUnescaped c && c != '\x7f'

def hexTexts : Language Char :=
  oneChar fun c => (Json.hexDigit? c).isSome

def escapeTexts : Language Char :=
  {['\\']} * (oneChar (fun c => (Json.shortEscape? c).isSome) + {['u']} * hexTexts ^ 4)

def stringTexts : Language Char :=
  {['"']} * (plainTexts + escapeTexts)∗ * {['"']}

/-- Digits, a point, and as many decimal places as the precision asks for. -/
def fixedTexts (precision : Precision) : Language Char :=
  Json.digits * {['.']} * Json.digit ^ precision.digits

def enumTexts (values : List String) : Language Char :=
  {text | ∃ value ∈ values, text = stringText value}

theorem mem_enumTexts {values : List String} {text : List Char} :
    text ∈ enumTexts values ↔ ∃ value ∈ values, text = stringText value :=
  Iff.rfl

/-- Any number of elements. -/
def arrayTexts (element : Language Char) : Language Char :=
  {['[']} * blanks * (⨆ n, joined commaTexts (List.replicate n element)) * blanks * {[']']}

def objectTexts (members : List (Language Char)) : Language Char :=
  {['\x7b']} * blanks * joined commaTexts members * (if members.isEmpty then 1 else blanks) *
    {['\x7d']}

def memberTexts (name : String) (value : Language Char) : Language Char :=
  {keyText name} * blanks * value

mutual

def parameterTexts : Parameter → Language Char
  | .string _ => stringTexts
  | .boolean _ => booleanTexts
  | .integer .. | .float _ none => Json.numberTexts
  | .float _ (some precision) => fixedTexts precision
  | .enum _ values => enumTexts values.values
  | .array _ element => arrayTexts (parameterTexts element)
  | .object _ fields => objectTexts (fieldTexts fields)
termination_by structural parameter => parameter

def fieldTexts : Fields → List (Language Char)
  | [] => []
  | (name, parameter) :: rest => memberTexts name (parameterTexts parameter) :: fieldTexts rest
termination_by structural fields => fields

end

def callTexts (function : FunctionSpec) : Language Char :=
  {['\x7b']} * blanks * {keyText "function"} * blanks * {stringText function.name ++ [',']} *
    blanks * memberTexts "params" (objectTexts (fieldTexts function.parameters)) * {['\x7d']}

end ToolGrammar.Grammar
