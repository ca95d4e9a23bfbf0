import ToolGrammar.Json.Fault
import ToolGrammar.Json.Value

namespace ToolGrammar.Json

/-- Text still to be read, and where it begins. -/
structure Cursor where
  rest : List Char
  here : Position
  deriving DecidableEq, Repr

namespace Cursor

def start (text : String) : Cursor :=
  ⟨text.toList, .origin⟩

def fault (cursor : Cursor) (cause : Fault.Cause) : Fault :=
  ⟨cause, cursor.here⟩

/-- A fault found by looking at the next byte. -/
def peekFault (cursor : Cursor) (cause : Fault.Cause) : Fault :=
  ⟨cause, cursor.here.peek cursor.rest⟩

end Cursor

def isSpace (c : Char) : Bool :=
  c == ' ' || c == '\t' || c == '\n' || c == '\r'

def isDigit (c : Char) : Bool :=
  '0' ≤ c && c ≤ '9'

def digitValue (c : Char) : Nat :=
  c.toNat - '0'.toNat

/-- The cursor past all white space. -/
def skipSpaceFrom (here : Position) : List Char → Cursor
  | [] => ⟨[], here⟩
  | c :: rest => if isSpace c then skipSpaceFrom (here.after c) rest else ⟨c :: rest, here⟩

def Cursor.skipSpace (cursor : Cursor) : Cursor :=
  skipSpaceFrom cursor.here cursor.rest

/-- Reads the letters of a word one by one. -/
def scanWord (here : Position) : (word text : List Char) → Except Fault Cursor
  | [], text => .ok ⟨text, here⟩
  | _ :: _, [] => .error ⟨.endInValue, here⟩
  | letter :: word, c :: rest =>
      if c = letter then scanWord (here.after c) word rest
      else .error ⟨.expectedWord, here.peek (c :: rest)⟩

def hexDigit? (c : Char) : Option Nat :=
  if '0' ≤ c ∧ c ≤ '9' then some (c.toNat - '0'.toNat)
  else if 'a' ≤ c ∧ c ≤ 'f' then some (c.toNat - 'a'.toNat + 10)
  else if 'A' ≤ c ∧ c ≤ 'F' then some (c.toNat - 'A'.toNat + 10)
  else none

/-- The code written by the next four bytes. -/
def scanUnit (here : Position) (text : List Char) : Except Fault (Nat × Cursor) :=
  if String.utf8ByteSize (String.ofList (text.take 4)) < 4 then
    .error ⟨.endInString, here.endOf text⟩
  else
    match text with
    | a :: b :: c :: d :: rest =>
        match hexDigit? a, hexDigit? b, hexDigit? c, hexDigit? d with
        | some a', some b', some c', some d' =>
            .ok (((a' * 16 + b') * 16 + c') * 16 + d', ⟨rest, here.skip 4 text⟩)
        | _, _, _, _ => .error ⟨.invalidEscape, here.skip 4 text⟩
    | _ => .error ⟨.invalidEscape, here.skip 4 text⟩

def isHighSurrogate (unit : Nat) : Bool :=
  0xD800 ≤ unit && unit ≤ 0xDBFF

def isLowSurrogate (unit : Nat) : Bool :=
  0xDC00 ≤ unit && unit ≤ 0xDFFF

/-- The character of a code escape whose letter has been read; a high surrogate needs the escape
of a low one right after it. -/
def scanCodeEscape (here : Position) (text : List Char) : Except Fault (Char × Cursor) := do
  let (unit, next) ← scanUnit here text
  if isLowSurrogate unit then
    throw (next.fault .loneSurrogate)
  if isHighSurrogate unit then
    match next.rest with
    | [] => throw (next.fault .endInString)
    | '\\' :: [] => throw ⟨.endInString, next.here.after '\\'⟩
    | '\\' :: 'u' :: rest =>
        let (low, last) ← scanUnit ((next.here.after '\\').after 'u') rest
        if isLowSurrogate low then
          return (Char.ofNat (0x10000 + (unit - 0xD800) * 0x400 + (low - 0xDC00)), last)
        throw (last.fault .loneSurrogate)
    | '\\' :: rest => throw ⟨.brokenSurrogatePair, (next.here.after '\\').peek rest⟩
    | _ => throw (next.peekFault .brokenSurrogatePair)
  return (Char.ofNat unit, next)

/-- The character of an escape whose backslash has been read. -/
def scanEscape (here : Position) : List Char → Except Fault (Char × Cursor)
  | [] => .error ⟨.endInString, here⟩
  | '"' :: rest => .ok ('"', ⟨rest, here.after '"'⟩)
  | '\\' :: rest => .ok ('\\', ⟨rest, here.after '\\'⟩)
  | '/' :: rest => .ok ('/', ⟨rest, here.after '/'⟩)
  | 'b' :: rest => .ok ('\x08', ⟨rest, here.after 'b'⟩)
  | 'f' :: rest => .ok ('\x0c', ⟨rest, here.after 'f'⟩)
  | 'n' :: rest => .ok ('\n', ⟨rest, here.after 'n'⟩)
  | 'r' :: rest => .ok ('\r', ⟨rest, here.after 'r'⟩)
  | 't' :: rest => .ok ('\t', ⟨rest, here.after 't'⟩)
  | 'u' :: rest => scanCodeEscape (here.after 'u') rest
  | c :: rest => .error ⟨.invalidEscape, here.peek (c :: rest)⟩

/-- The rest of a string whose opening quote has been read, `read` being its characters so far,
the last one first. -/
def scanStringAfter (read : List Char) (here : Position) :
    (fuel : Nat) → (text : List Char) → Except Fault (String × Cursor)
  | 0, _ | _, [] => .error ⟨.endInString, here⟩
  | fuel + 1, c :: rest =>
      if c = '"' then .ok (String.ofList read.reverse, ⟨rest, here.after c⟩)
      else if c = '\\' then
        match scanEscape (here.after c) rest with
        | .error fault => .error fault
        | .ok (decoded, next) => scanStringAfter (decoded :: read) next.here fuel next.rest
      else if c.toNat < 0x20 then .error ⟨.controlCharacter, here.peek (c :: rest)⟩
      else scanStringAfter (c :: read) (here.after c) fuel rest

/-- A string whose opening quote has been read. Every step reads a character, so there are at most
as many steps as characters. -/
def scanString (cursor : Cursor) : Except Fault (String × Cursor) :=
  scanStringAfter [] cursor.here (cursor.rest.length + 1) cursor.rest

/-- The greatest significand that is kept digit by digit. -/
def greatestSignificand : Nat := Nat.pow 2 64 - 1

/-- The greatest exponent that is kept digit by digit. -/
def greatestPower : Nat := Nat.pow 2 31 - 1

/-- The digits of a number as they are read: `significand · 10 ^ shift`. Once a digit no longer
fits, it only counts towards the shift. -/
structure Mantissa where
  significand : Nat
  shift : Int
  full : Bool

def Mantissa.whole (mantissa : Mantissa) (digit : Nat) : Mantissa :=
  let extended := mantissa.significand * 10 + digit
  if mantissa.full || greatestSignificand < extended then
    { mantissa with shift := mantissa.shift + 1, full := true }
  else { mantissa with significand := extended }

/-- One more digit after the point; those from the first that does not fit on are dropped. -/
def Mantissa.place (mantissa : Mantissa) (digit : Nat) : Mantissa :=
  let extended := mantissa.significand * 10 + digit
  if mantissa.full || greatestSignificand < extended then { mantissa with full := true }
  else { mantissa with significand := extended, shift := mantissa.shift - 1 }

def powerOfTen (exponent : Nat) : Decimal.Binary64 :=
  .nearest false (Nat.pow 10 exponent) 1

/-- Divides by powers of ten until the whole exponent is spent, at most `10 ^ 308` at a time. -/
def scaleDown (value : Decimal.Binary64) (exponent : Nat) : Decimal.Binary64 :=
  if small : exponent ≤ 308 then value.dividedBy (powerOfTen exponent)
  else
    let scaled := value.dividedBy (powerOfTen 308)
    if scaled = .zero false then scaled else scaleDown scaled (exponent - 308)
termination_by exponent

/-- The binary64 number of a significand and a power of ten, rounded after each of its steps;
nothing where it is infinite. -/
def scaled? (significand : Nat) (exponent : Int) : Option Decimal.Binary64 :=
  let value := Decimal.Binary64.ofNat significand
  if significand = 0 then some value
  else if exponent < 0 then some (scaleDown value exponent.natAbs)
  else if 308 < exponent then none
  else
    match value.times (powerOfTen exponent.toNat) with
    | .finite negative digits power => some (.finite negative digits power)
    | _ => none

def signedReal (negative : Bool) (mantissa : Mantissa) (exponent : Int) (next : Cursor) :
    Except Fault (Number × Cursor) :=
  match scaled? mantissa.significand exponent with
  | none => .error (next.fault .numberOutOfRange)
  | some value => .ok (.real (if negative then value.negate else value), next)

/-- Further digits of an exponent. One that no longer fits makes the number zero or too large. -/
def scanPower (negative : Bool) (mantissa : Mantissa) (down : Bool) (power : Nat)
    (here : Position) : List Char → Except Fault (Number × Cursor)
  | [] => finish ⟨[], here⟩
  | c :: rest =>
      if !isDigit c then finish ⟨c :: rest, here⟩
      else
        let extended := power * 10 + digitValue c
        if extended ≤ greatestPower then
          scanPower negative mantissa down extended (here.after c) rest
        else if mantissa.significand ≠ 0 ∧ !down then
          .error ⟨.numberOutOfRange, here.after c⟩
        else
          .ok (.real (.zero negative),
            ⟨rest.dropWhile isDigit, (here.after c).endOf (rest.takeWhile isDigit)⟩)
where
  finish (next : Cursor) : Except Fault (Number × Cursor) :=
    signedReal negative mantissa (mantissa.shift + (if down then -(power : Int) else power)) next

def scanExponent (negative : Bool) (mantissa : Mantissa) (here : Position) (text : List Char) :
    Except Fault (Number × Cursor) :=
  let down := text.head? == some '-'
  let signed := down || text.head? == some '+'
  let digits := if signed then text.drop 1 else text
  let here := if signed then ⟨here.line, here.column + 1⟩ else here
  match digits with
  | [] => .error ⟨.endInValue, here⟩
  | c :: rest =>
      if isDigit c then scanPower negative mantissa down (digitValue c) (here.after c) rest
      else .error ⟨.invalidNumber, here.peek (c :: rest)⟩

def isExponentLetter (c : Char) : Bool :=
  c == 'e' || c == 'E'

/-- The places after the point, of which there is at least one. Whether a place fits has nothing to
do with the digits before the point, so one may be kept where a digit before the point was not. -/
def scanPlaces (negative : Bool) (mantissa : Mantissa) (here : Position) (text : List Char) :
    Except Fault (Number × Cursor) :=
  let digits := text.takeWhile isDigit
  let next : Cursor := ⟨text.dropWhile isDigit, here.endOf digits⟩
  let mantissa := digits.foldl (fun mantissa c => mantissa.place (digitValue c))
    { mantissa with full := false }
  match digits, next.rest with
  | [], [] => .error (next.peekFault .endInValue)
  | [], _ :: _ => .error (next.peekFault .invalidNumber)
  | _ :: _, c :: rest =>
      if isExponentLetter c then scanExponent negative mantissa (next.here.after c) rest
      else signedReal negative mantissa mantissa.shift next
  | _ :: _, [] => signedReal negative mantissa mantissa.shift next

/-- A whole number that fits 64 bits stays one; minus zero does not. -/
def wholeNumber (negative : Bool) (mantissa : Mantissa) (next : Cursor) :
    Except Fault (Number × Cursor) :=
  if mantissa.full then signedReal negative mantissa mantissa.shift next
  else if !negative then .ok (.integer mantissa.significand, next)
  else if 0 < mantissa.significand ∧ mantissa.significand ≤ Nat.pow 2 63 then
    .ok (.integer (-mantissa.significand), next)
  else .ok (.real (Decimal.Binary64.ofNat mantissa.significand).negate, next)

def scanDigits (negative : Bool) (here : Position) (text : List Char) :
    Except Fault (Number × Cursor) :=
  match text with
  | [] => .error ⟨.endInValue, here⟩
  | first :: more =>
      if !isDigit first then .error ⟨.invalidNumber, here.peek text⟩
      else
        match first, more with
        | '0', c :: rest =>
            if isDigit c then .error ⟨.invalidNumber, (here.after first).peek (c :: rest)⟩
            else continueFrom [first] more
        | _, _ => continueFrom (first :: more.takeWhile isDigit) (more.dropWhile isDigit)
where
  continueFrom (digits rest : List Char) : Except Fault (Number × Cursor) :=
    let mantissa :=
      digits.foldl (fun mantissa c => mantissa.whole (digitValue c)) (Mantissa.mk 0 0 false)
    let here := here.endOf digits
    match rest with
    | '.' :: places => scanPlaces negative mantissa (here.after '.') places
    | c :: power =>
        if isExponentLetter c then scanExponent negative mantissa (here.after c) power
        else wholeNumber negative mantissa ⟨rest, here⟩
    | [] => wholeNumber negative mantissa ⟨rest, here⟩

def scanNumber (cursor : Cursor) : Except Fault (Number × Cursor) :=
  match cursor.rest with
  | '-' :: rest => scanDigits true (cursor.here.after '-') rest
  | text => scanDigits false cursor.here text

end ToolGrammar.Json
