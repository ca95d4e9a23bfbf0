import ToolGrammar.Filter.Numeral
import ToolGrammar.Json.Tree
import ToolGrammar.Keyed

namespace ToolGrammar.Filter

inductive Datum where
  | null
  | bool (value : Bool)
  | number (value : Numeral)
  | string (value : String)
  | array (items : List Datum)
  | object (members : List (String × Datum))
  deriving Repr

namespace Datum

def natural (n : Nat) : Datum :=
  .number (.ofNat n)

mutual

def ofJson : Json.Value → Datum
  | .null => .null
  | .bool value => .bool value
  | .number value => .number (.ofJson value)
  | .string value => .string value
  | .array items => .array (ofItems items)
  | .object members => .object (ofMembers members)
termination_by structural value => value

def ofItems : List Json.Value → List Datum
  | [] => []
  | item :: rest => ofJson item :: ofItems rest
termination_by structural items => items

def ofMembers : List (String × Json.Value) → List (String × Datum)
  | [] => []
  | (name, value) :: rest => (name, ofJson value) :: ofMembers rest
termination_by structural members => members

end

def escapeChar (c : Char) : List Char :=
  match c with
  | '\x08' | '\x0c' => Json.codeEscape c
  | _ => Json.escapeChar c

def quoted (text : String) : String :=
  String.ofList ('"' :: text.toList.flatMap escapeChar ++ ['"'])

mutual

def text : Datum → String
  | .null => "null"
  | .bool value => if value then "true" else "false"
  | .number value => value.text
  | .string value => quoted value
  | .array items => "[" ++ ",".intercalate (itemTexts items) ++ "]"
  | .object members => "\x7b" ++ ",".intercalate (memberTexts members) ++ "\x7d"
termination_by structural value => value

def itemTexts : List Datum → List String
  | [] => []
  | item :: rest => item.text :: itemTexts rest
termination_by structural items => items

def memberTexts : List (String × Datum) → List String
  | [] => []
  | (name, value) :: rest => (quoted name ++ ":" ++ value.text) :: memberTexts rest
termination_by structural members => members

end

/-- The JSON value that the text of a value denotes. Some numbers have no JSON text, and a text may
be nested too deeply. -/
def toJson (value : Datum) : Except Json.Fault Json.Value :=
  (Json.Value.ofText value.text).mapError (·.2)

/-- Everything but `null` and `false` counts as true. -/
def isTruthy : Datum → Bool
  | .null | .bool false => false
  | _ => true

mutual

/-- Equality of values; objects are compared member by member whatever their order. -/
def same : Datum → Datum → Bool
  | .null, .null => true
  | .bool a, .bool b => a == b
  | .number a, .number b => a.same b
  | .string a, .string b => a == b
  | .array items, .array others => sameItems items others
  | .object members, .object others => members.length == others.length && sameMembers members others
  | _, _ => false
termination_by structural value => value

def sameItems : List Datum → List Datum → Bool
  | [], [] => true
  | item :: rest, other :: others => same item other && sameItems rest others
  | _, _ => false
termination_by structural items => items

def sameMembers : List (String × Datum) → List (String × Datum) → Bool
  | [], _ => true
  | (name, value) :: rest, others =>
      match Keyed.lookup? name others with
      | some other => same value other && sameMembers rest others
      | none => false
termination_by structural members => members

end

mutual

/-- The value and everything in it, each container before its contents. -/
def descendants : Datum → List Datum
  | .array items => .array items :: descendantItems items
  | .object members => .object members :: descendantMembers members
  | value => [value]
termination_by structural value => value

def descendantItems : List Datum → List Datum
  | [] => []
  | item :: rest => descendants item ++ descendantItems rest
termination_by structural items => items

def descendantMembers : List (String × Datum) → List Datum
  | [] => []
  | (_, value) :: rest => descendants value ++ descendantMembers rest
termination_by structural members => members

end

def typeName : Datum → String
  | .null => "null"
  | .bool _ => "boolean"
  | .number _ => "number"
  | .string _ => "string"
  | .array _ => "array"
  | .object _ => "object"

end Datum

inductive Failure where
  | notIndexable
  | notIterable
  | notSliceable
  | notAddable
  | notNegatable
  | noLength
  | noKeys
  | badKey
  | unknownName
  | raised (value : Datum)
  deriving Repr

abbrev Result := Except Failure Datum

namespace Datum

/-- A number, text, array or object with another one of its kind; `null` adds nothing. -/
def plus : Datum → Datum → Result
  | .null, value | value, .null => .ok value
  | .number a, .number b => .ok (.number (a.plus b))
  | .string a, .string b => .ok (.string (a ++ b))
  | .array items, .array others => .ok (.array (items ++ others))
  | .object members, .object others =>
      .ok (.object (others.foldl (fun sum member => Keyed.put member.1 member.2 sum) members))
  | _, _ => .error .notAddable

def negate : Datum → Result
  | .number value => .ok (.number value.negate)
  | _ => .error .notNegatable

/-- A position counted from the end when negative, nothing before the start. -/
def wrap? (position : Int) (length : Nat) : Option Nat :=
  if 0 ≤ position then some position.toNat
  else if 0 ≤ length + position then some (length + position).toNat
  else none

/-- The member of a name, or the item at a position; `null` where there is none. -/
def index : Datum → Datum → Result
  | .object members, .string name => .ok ((Keyed.lookup? name members).getD .null)
  | .array items, .number (.whole position) =>
      .ok (((wrap? position items.length).bind (items[·]?)).getD .null)
  | _, _ => .error .notIndexable

/-- A bound of a slice, kept within the length. -/
def boundOf (length : Nat) : Datum → Except Failure Nat
  | .number (.whole position) => .ok (min ((wrap? position length).getD 0) length)
  | _ => .error .notSliceable

def between {α : Type} (items : List α) (lower upper : Option Datum) :
    Except Failure (List α) := do
  let start ← (lower.map (boundOf items.length)).getD (.ok 0)
  let stop ← (upper.map (boundOf items.length)).getD (.ok items.length)
  return (items.drop start).take (stop - start)

def slice (value : Datum) (lower upper : Option Datum) : Result :=
  match value with
  | .array items => (between items lower upper).map .array
  | .string text =>
      (between text.toList lower upper).map fun part => .string (String.ofList part)
  | _ => .error .notSliceable

/-- The items of an array or the values of an object. -/
def contents : Datum → Except Failure (List Datum)
  | .array items => .ok items
  | .object members => .ok (members.map (·.2))
  | _ => .error .notIterable

def length : Datum → Result
  | .null => .ok (natural 0)
  | .bool _ => .error .noLength
  | .number value => .ok (.number value.magnitude)
  | .string text => .ok (natural text.length)
  | .array items => .ok (natural items.length)
  | .object members => .ok (natural members.length)

/-- The positions of an array, or the names of an object in their order. -/
def keysUnsorted : Datum → Except Failure (List Datum)
  | .array items => .ok ((List.range items.length).map natural)
  | .object members => .ok (members.map fun member => .string member.1)
  | _ => .error .noKeys

def keys : Datum → Result
  | .object members =>
      .ok (.array (((members.map (·.1)).mergeSort (fun a b => a ≤ b)).map .string))
  | value => (keysUnsorted value).map .array

def entries (value : Datum) : Result := do
  let entries ← (← keysUnsorted value).mapM fun key => do
    return Datum.object [("key", key), ("value", ← value.index key)]
  return .array entries

def hasKey : Datum → Datum → Result
  | .array items, .number (.whole position) =>
      if 0 ≤ position then .ok (.bool (position.toNat < items.length)) else .error .badKey
  | .object members, .string name => .ok (.bool (Keyed.lookup? name members).isSome)
  | _, _ => .error .badKey

/-- A text stands for itself. -/
def plainText : Datum → String
  | .string value => value
  | value => value.text

/-- The texts with the separator after each of them but the last, added up; `null` for none. -/
def joinTexts (separator sum : Datum) : List String → Result
  | [] => .ok sum
  | [last] => sum.plus (.string last)
  | text :: rest => do
      joinTexts separator (← sum.plus (← (Datum.string text).plus separator)) rest

def join (value separator : Datum) : Result := do
  joinTexts separator .null ((← value.contents).map plainText)

def entry : Datum → Datum → Result
  | .string name, value => .ok (.object [(name, value)])
  | _, _ => .error .badKey

end Datum

end ToolGrammar.Filter
