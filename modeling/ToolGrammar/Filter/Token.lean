import ToolGrammar.Text.Escaped

namespace ToolGrammar.Filter

inductive Token where
  | word (source : String)
  /-- A name with a dollar sign before it. -/
  | variable (source : String)
  /-- A name with an at sign before it. -/
  | format (source : String)
  | number (source : String)
  | quoted (source content : String)
  /-- An operator, a separator, or a dot, with a name right after it or without one. -/
  | symbol (source : String)
  | block (source : String) (inside : List Token)
  deriving Repr

def Token.source : Token → String
  | .word source | .variable source | .format source | .number source | .quoted source _
  | .symbol source | .block source _ => source

namespace Token

inductive Missing where
  | digit
  | name
  | closing (opening : Char)
  | escape
  | code
  | token
  deriving DecidableEq, Repr

def Missing.text : Missing → String
  | .digit => "Digit"
  | .name => "Ident"
  | .closing opening => "Delim(" ++ Text.escaped opening.toString ++ ")"
  | .escape => "Escape"
  | .code => "Unicode"
  | .token => "Token"

structure Complaint where
  missing : Missing
  rest : String
  deriving DecidableEq, Repr

def Complaint.text (complaint : Complaint) : String :=
  "(" ++ complaint.missing.text ++ ", " ++ Text.escaped complaint.rest ++ ")"

def complainAt (missing : Missing) (rest : List Char) : Complaint :=
  ⟨missing, String.ofList rest⟩

/-- The outcome of reading some part: the part, what follows it, and the complaints about it. -/
abbrev Scanned (α : Type) := α × List Char × List Complaint

def isNameStart (c : Char) : Bool :=
  c.isAlpha || c == '_'

def isNameChar (c : Char) : Bool :=
  c.isAlphanum || c == '_'

def isBlank (c : Char) : Bool :=
  c == ' ' || c == '\t' || c == '\n' || c == '\x0c' || c == '\r'

/-- What follows a comment whose first character has been read. It goes on in the next line while a
line ends with an odd number of backslashes. -/
def skipComment (odd : Bool) : List Char → List Char
  | [] => []
  | '\n' :: rest => if odd then skipComment false rest else rest
  | '\r' :: '\n' :: rest => if odd then skipComment false rest else rest
  | c :: rest => skipComment (c == '\\' && !odd) rest

/-- What follows white space and comments. The fuel is the number of characters. -/
def skipBlank : (fuel : Nat) → List Char → List Char
  | 0, text => text
  | fuel + 1, text =>
      match text.dropWhile isBlank with
      | '#' :: rest => skipBlank fuel (skipComment false rest)
      | rest => rest

def skipBlanks (text : List Char) : List Char :=
  skipBlank text.length text

def sourceBefore (text rest : List Char) : String :=
  String.ofList (text.take (text.length - rest.length))

/-- What follows a name, of which there has to be at least one character. -/
def scanName (text : List Char) : List Char × List Complaint :=
  match text with
  | c :: rest =>
      if isNameStart c then (rest.dropWhile isNameChar, []) else (text, [complainAt .name text])
  | [] => ([], [complainAt .name []])

/-- What follows digits, of which there has to be at least one. -/
def scanDigits (text : List Char) : List Char × List Complaint :=
  match text with
  | c :: rest =>
      if c.isDigit then (rest.dropWhile Char.isDigit, []) else (text, [complainAt .digit text])
  | [] => ([], [complainAt .digit []])

/-- What follows a number: digits, and possibly places and an exponent. -/
def scanNumber (text : List Char) : List Char × List Complaint :=
  let (rest, complaints) :=
    match text.dropWhile Char.isDigit with
    | '.' :: places => scanDigits places
    | rest => (rest, [])
  match rest with
  | 'e' :: power | 'E' :: power =>
      let (rest, more) :=
        match power with
        | '+' :: digits | '-' :: digits => scanDigits digits
        | digits => scanDigits digits
      (rest, complaints ++ more)
  | _ => (rest, complaints)

def hexDigit? (c : Char) : Option Nat :=
  if c.isDigit then some (c.toNat - '0'.toNat)
  else if 'a' ≤ c ∧ c ≤ 'f' then some (c.toNat - 'a'.toNat + 10)
  else if 'A' ≤ c ∧ c ≤ 'F' then some (c.toNat - 'A'.toNat + 10)
  else none

/-- The number that the next so many digits denote, or the place where one is missing. -/
def scanCode : (digits value : Nat) → List Char → Except (List Char) (Nat × List Char)
  | 0, value, text => .ok (value, text)
  | _ + 1, _, [] => .error []
  | digits + 1, value, c :: rest =>
      match hexDigit? c with
      | some digit => scanCode digits (16 * value + digit) rest
      | none => .error (c :: rest)

/-- The character of an escape whose backslash has been read. -/
def scanEscape (text : List Char) : Scanned (Option Char) :=
  match text with
  | '"' :: rest => (some '"', rest, [])
  | '\\' :: rest => (some '\\', rest, [])
  | '/' :: rest => (some '/', rest, [])
  | 'b' :: rest => (some '\x08', rest, [])
  | 'f' :: rest => (some '\x0c', rest, [])
  | 'n' :: rest => (some '\n', rest, [])
  | 'r' :: rest => (some '\r', rest, [])
  | 't' :: rest => (some '\t', rest, [])
  | 'u' :: digits =>
      match scanCode 4 0 digits with
      | .error rest => (none, rest, [complainAt .code rest])
      | .ok (code, rest) =>
          if 0xD800 ≤ code ∧ code ≤ 0xDFFF then (none, digits, [complainAt .code digits])
          else (some (Char.ofNat code), rest, [])
  | _ => (none, text, [complainAt .escape text])

/-- The characters of a text whose opening quote has been read, after those already read, the last
one first. Every character but a quote and a backslash stands for itself. -/
def scanText (read : List Char) : (fuel : Nat) → List Char → Scanned String
  | 0, rest => (String.ofList read.reverse, rest, [complainAt (.closing '"') rest])
  | _ + 1, [] => (String.ofList read.reverse, [], [complainAt (.closing '"') []])
  | fuel + 1, c :: rest =>
      if c = '"' then (String.ofList read.reverse, rest, [])
      else if c = '\\' then
        let (decoded, rest, complaints) := scanEscape rest
        let (content, rest, more) := scanText (decoded.toList ++ read) fuel rest
        (content, rest, complaints ++ more)
      else scanText (c :: read) fuel rest

def isOperator (c : Char) : Bool :=
  ['|', '=', '!', '<', '>', '+', '-', '*', '/', '%'].contains c

def isSeparator (c : Char) : Bool :=
  [':', ';', ',', '?'].contains c

/-- The bracket that closes another one. -/
def closing? : Char → Option Char
  | '(' => some ')'
  | '[' => some ']'
  | '\x7b' => some '\x7d'
  | _ => none

def scanPlain (c : Char) (rest : List Char) : Option (Scanned Token) :=
  let text := c :: rest
  let named (make : String → Token) (outcome : List Char × List Complaint) : Scanned Token :=
    (make (sourceBefore text outcome.1), outcome)
  if isNameStart c then some (named .word (rest.dropWhile isNameChar, []))
  else if c = '$' then some (named .variable (scanName rest))
  else if c = '@' then some (named .format (scanName rest))
  else if c.isDigit then some (named .number (scanNumber rest))
  else if isOperator c then some (named .symbol (rest.dropWhile fun c => c = '=' ∨ c = '/', []))
  else if c = '.' then
    match rest with
    | '.' :: rest => some (named .symbol (rest, []))
    | second :: more =>
        some (named .symbol (if isNameStart second then more.dropWhile isNameChar else rest, []))
    | [] => some (named .symbol ([], []))
  else if isSeparator c then some (named .symbol (rest, []))
  else if c = '"' then
    let (content, left, complaints) := scanText [] (rest.length + 1) rest
    some (.quoted (sourceBefore text left) content, left, complaints)
  else none

mutual

/-- The tokens of a text up to a place where none begins. -/
def scanTokens (fuel : Nat) (text : List Char) : Scanned (List Token) :=
  match fuel with
  | 0 => ([], text, [])
  | fuel + 1 =>
      match skipBlanks text with
      | [] => ([], [], [])
      | c :: rest =>
          match scanToken fuel c rest with
          | none => ([], c :: rest, [])
          | some (token, left, complaints) =>
              let (tokens, left, more) := scanTokens fuel left
              (token :: tokens, left, complaints ++ more)
termination_by structural fuel

/-- The token that begins with a character. Of this call and the one for the tokens around it one
reads a character, so two for each character are fuel enough. -/
def scanToken (fuel : Nat) (c : Char) (rest : List Char) : Option (Scanned Token) :=
  match fuel with
  | 0 => none
  | fuel + 1 =>
      match closing? c with
      | none => scanPlain c rest
      | some closing =>
          let (inside, left, complaints) := scanTokens fuel rest
          if left.head? = some closing then
            let left := left.drop 1
            some (.block (sourceBefore (c :: rest) left) (inside ++ [.symbol closing.toString]),
              left, complaints)
          else
            some (.block (sourceBefore (c :: rest) left) inside, left,
              complaints ++ [complainAt (.closing c) left])
termination_by structural fuel

end

def ofText (text : String) : Except (List Complaint) (List Token) :=
  let (tokens, left, complaints) := scanTokens (2 * text.length + 2) text.toList
  let complaints := if left.isEmpty then complaints else complaints ++ [complainAt .token left]
  if complaints.isEmpty then .ok tokens else .error complaints

end Token

end ToolGrammar.Filter
