import ToolGrammar.Json.Printer

namespace ToolGrammar.Filter

open Decimal (Binary64)

inductive Numeral where
  | whole (value : Int)
  | written (text : String)
  | real (value : Binary64)
  deriving DecidableEq, Repr

namespace Numeral

def ofNat (n : Nat) : Numeral :=
  .whole n

def fits (value : Int) : Bool :=
  -(Nat.pow 2 63 : Int) ≤ value && value < (Nat.pow 2 63 : Int)

def digitsValue (digits : List Char) : Nat :=
  digits.foldl (fun value digit => 10 * value + (digit.toNat - '0'.toNat)) 0

/-- The numeral of a text: whole if it has digits only and not too many. -/
def ofText (text : String) : Numeral :=
  let digits := text.toList
  if digits.all Char.isDigit && fits (digitsValue digits) then .whole (digitsValue digits)
  else .written text

def ofJson : Json.Number → Numeral
  | .integer value => if fits value then .whole value else .written (toString value)
  | .real value => .written (Json.Number.real value).render

def signedValue (text : List Char) : Int :=
  match text with
  | '-' :: digits => -digitsValue digits
  | '+' :: digits => digitsValue digits
  | digits => digitsValue digits

/-- The binary64 number nearest to what a text denotes: digits, places and an exponent. -/
def realOfText (text : String) : Binary64 :=
  let negative := text.toList.head? == some '-'
  let unsigned := if negative then text.toList.drop 1 else text.toList
  let digits := unsigned.takeWhile Char.isDigit
  let rest := unsigned.drop digits.length
  let places := if rest.head? == some '.' then (rest.drop 1).takeWhile Char.isDigit else []
  let power := (rest.dropWhile fun c => c ≠ 'e' ∧ c ≠ 'E').drop 1
  .ofDecimal negative (digitsValue (digits ++ places)) (signedValue power - places.length)

def toReal : Numeral → Binary64
  | .whole value => .ofInt value
  | .written text => realOfText text
  | .real value => value

/-- Sums of computed numbers have an exponent without a plus sign. -/
def style : Decimal.Style where
  leastPoint := -3
  greatestPoint := 16
  plusSign := false

/-- What is no finite number is written `null`. -/
def text : Numeral → String
  | .whole value => toString value
  | .written text => text
  | .real value => (style.text? value).getD "null"

def plus : Numeral → Numeral → Numeral
  | .whole a, .whole b =>
      if fits (a + b) then .whole (a + b) else .real ((Binary64.ofInt a).plus (.ofInt b))
  | a, b => .real (a.toReal.plus b.toReal)

/-- The least integer has no counterpart of 64 bits and stays what it is. -/
def wrapped (value : Int) : Int :=
  if fits value then value else -value

def negate : Numeral → Numeral
  | .whole value => .whole (wrapped (-value))
  | numeral => .real numeral.toReal.negate

def magnitude : Numeral → Numeral
  | .whole value => .whole (wrapped value.natAbs)
  | numeral => .real (match numeral.toReal with
      | .finite _ significand exponent => .finite false significand exponent
      | .infinite _ => .infinite false
      | .nan => .nan)

/-- Whole numbers are compared exactly, others as binary64 numbers. -/
def same : Numeral → Numeral → Bool
  | .whole a, .whole b => a == b
  | a, b => a.toReal.same b.toReal

end Numeral

end ToolGrammar.Filter
