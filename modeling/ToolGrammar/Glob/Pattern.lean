import ToolGrammar.Text.Pieces

namespace ToolGrammar.Glob

inductive PatternError.Cause where
  | wildcards
  | recursive
  | range
  deriving DecidableEq, Repr

def PatternError.Cause.message : PatternError.Cause → String
  | .wildcards => "wildcards are either regular `*` or recursive `**`"
  | .recursive => "recursive wildcards must form a single path component"
  | .range => "invalid range pattern"

/-- The number of characters before the place of an error, and its cause. -/
structure PatternError where
  position : Nat
  cause : PatternError.Cause
  deriving DecidableEq, Repr

def PatternError.message (error : PatternError) : String :=
  "Pattern syntax error near position " ++ toString error.position ++ ": " ++ error.cause.message

/-- A set of characters, by its runs from a first to a last one. -/
abbrev CharSet := List (Char × Char)

def CharSet.contains (set : CharSet) (char : Char) : Bool :=
  set.any fun run => run.1 ≤ char && char ≤ run.2

def CharSet.ofChars : List Char → CharSet
  | first :: '-' :: last :: rest => (first, last) :: ofChars rest
  | char :: rest => (char, char) :: ofChars rest
  | [] => []

inductive Token where
  | char (char : Char)
  | anyChar
  | anyRun
  | within (set : CharSet)
  | outside (set : CharSet)
  | anyNames
  deriving DecidableEq, Repr

/-- The characters of a set up to its closing bracket, and what follows it; a bracket at the start
is a member. -/
def readSet? : List Char → Option (CharSet × List Char)
  | [] => none
  | first :: rest =>
      if ']' ∈ rest then
        some (.ofChars (first :: rest.takeWhile (· ≠ ']')), (rest.dropWhile (· ≠ ']')).drop 1)
      else none

/-- The token at the start of a pattern, and what follows it. -/
def readToken (position : Nat) (previous : Option Char) (char : Char) (rest : List Char) :
    Except PatternError (Token × List Char) :=
  match char, rest with
  | '?', rest => .ok (.anyChar, rest)
  | '*', '*' :: '*' :: _ => .error ⟨position + 2, .wildcards⟩
  | '*', '*' :: rest =>
      if previous = none ∨ previous = some '/' then
        match rest with
        | [] => .ok (.anyNames, [])
        | '/' :: rest => .ok (.anyNames, rest)
        | _ => .error ⟨position + 2, .recursive⟩
      else .error ⟨position - 1, .recursive⟩
  | '*', rest => .ok (.anyRun, rest)
  | '[', '!' :: rest =>
      match readSet? rest with
      | some (set, rest) => .ok (.outside set, rest)
      | none => .error ⟨position, .range⟩
  | '[', rest =>
      match readSet? rest with
      | some (set, rest) => .ok (.within set, rest)
      | none => .error ⟨position, .range⟩
  | char, rest => .ok (.char char, rest)

/-- All tokens of a pattern that is left at a position after a character; the budget is the number
of characters left. -/
def readTokens (budget position : Nat) (previous : Option Char) :
    List Char → Except PatternError (List Token)
  | [] => .ok []
  | char :: rest =>
      match budget with
      | 0 => .ok []
      | budget + 1 => do
          let (token, left) ← readToken position previous char rest
          let taken := rest.length + 1 - left.length
          let last := ((char :: rest).take taken).getLast?
          return token :: (← readTokens budget (position + taken) last left)

def tokensOf (pattern : List Char) : Except PatternError (List Token) :=
  readTokens pattern.length 0 none pattern

/-- Whether a token stands for a character, and for no other text with it. -/
def Token.accepts (token : Token) (char : Char) : Bool :=
  match token with
  | .char same => same == char
  | .anyChar => true
  | .within set => set.contains char
  | .outside set => !set.contains char
  | .anyRun | .anyNames => false

/-- For every place of a list, whether something holds there or at a later one. -/
def hereOrLater : List Bool → List Bool
  | [] => []
  | here :: rest => (here || rest.any id) :: hereOrLater rest

/-- For a name, and for what is left of it after each of its characters, whether tokens stand for
it. -/
def matchesFrom (name : List Char) : List Token → List Bool
  | [] => name.map (fun _ => false) ++ [true]
  | .anyRun :: tokens | .anyNames :: tokens => hereOrLater (matchesFrom name tokens)
  | token :: tokens =>
      List.zipWith (fun char after => token.accepts char && after) name
        (matchesFrom name tokens).tail ++ [false]

def isMatch (tokens : List Token) (name : List Char) : Bool :=
  (matchesFrom name tokens).head?.getD false

/-- What stands for one name of a path, or for any number of them. -/
inductive Component where
  | name (text : String)
  | wildcard (tokens : List Token)
  | anyNames
  deriving DecidableEq, Repr

def Token.char? : Token → Option Char
  | .char same => some same
  | _ => none

def Component.ofChars (chars : List Char) : Except PatternError Component := do
  let tokens ← tokensOf chars
  if tokens = [.anyNames] then return .anyNames
  match tokens.mapM Token.char? with
  | some text => return .name (String.ofList text)
  | none => return .wildcard tokens

def Component.accepts (component : Component) (name : String) : Bool :=
  match component with
  | .name text => text == name
  | .wildcard tokens => isMatch tokens name.toList
  | .anyNames => true

/-- A wildcard stands for `.` or `..` only if it starts with a dot itself. -/
def Component.acceptsSpecial (component : Component) (name : String) : Bool :=
  match component with
  | .wildcard (.char '.' :: tokens) => isMatch (.char '.' :: tokens) name.toList
  | _ => false

/-- A pattern from the root or from the current directory, of all nodes or of directories only. -/
structure Pattern where
  isAbsolute : Bool
  components : List Component
  directoriesOnly : Bool
  deriving DecidableEq, Repr

/-- Whether a text is a pattern and not the path of one file. -/
def isPattern (text : String) : Bool :=
  text.toList.any fun char => char == '*' || char == '?' || char == '[' || char == '\x7b'

/-- The pattern that a text describes. The whole text is checked before its components are. -/
def Pattern.ofText (text : String) : Except PatternError Pattern := do
  let chars := text.toList
  let _ ← tokensOf chars
  let isAbsolute := chars.head? == some '/'
  let directoriesOnly := chars.getLast? == some '/'
  let pieces := (if isAbsolute then chars.drop 1 else chars).splitOn '/'
  let components ← (if directoriesOnly then pieces.dropLast else pieces).mapM Component.ofChars
  return { isAbsolute, components, directoriesOnly }

end ToolGrammar.Glob
