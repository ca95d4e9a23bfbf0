import ToolGrammar.Filter.Term
import ToolGrammar.Filter.Token

namespace ToolGrammar.Filter

/-- What is missing at some token. -/
inductive Missing where
  | term
  | key
  | elseOrEnd
  | symbol (source : String)
  | nothing
  deriving DecidableEq, Repr

def Missing.text : Missing → String
  | .term => "Term"
  | .key => "Key"
  | .elseOrEnd => "ElseOrEnd"
  | .symbol source => "Just(" ++ Text.escaped source ++ ")"
  | .nothing => "Nothing"

/-- What is missing, and the source of the token found instead; the end has none. -/
structure Complaint where
  missing : Missing
  found : String
  deriving DecidableEq, Repr

def Complaint.text (complaint : Complaint) : String :=
  "(" ++ complaint.missing.text ++ ", " ++ Text.escaped complaint.found ++ ")"

structure ReaderState where
  tokens : List Token
  complaints : List Complaint

/-- Readers, which a complaint stops. -/
abbrev Reader := ExceptT Complaint (StateM ReaderState)

namespace Reader

def next : Reader (Option Token) := do
  let state ← get
  set { state with tokens := state.tokens.drop 1 }
  return state.tokens.head?

def peek : Reader (Option Token) := do
  return (← get).tokens.head?

def complain {α : Type} (missing : Missing) (found : Option Token) : Reader α :=
  throw ⟨missing, (found.map Token.source).getD ""⟩

def isSymbol (source : String) : Option Token → Bool
  | some (.symbol found) => found == source
  | _ => false

def accept (source : String) : Reader Bool := do
  if isSymbol source (← peek) then
    let _ ← next
    return true
  return false

def expect (source : String) : Reader Unit := do
  let found ← next
  if found.map Token.source ≠ some source then complain (.symbol source) found

def finish : Reader Unit := do
  if let some token ← next then complain .nothing (some token)

/-- Reads all question marks, and tells whether there are any. -/
def questioned : Reader Bool := do
  let state ← get
  let rest := state.tokens.dropWhile fun token => isSymbol "?" (some token)
  set { state with tokens := rest }
  return rest.length < state.tokens.length

/-- Reads the tokens inside a bracket to the end. If something is wrong with them, a default takes
the place of what they say. -/
def inside {α : Type} (tokens : List Token) (closing : String) (default : α) (read : Reader α) :
    Reader α := do
  let outer := (← get).tokens
  modify fun state => { state with tokens }
  let value ←
    try
      let value ← read
      expect closing
      pure value
    catch complaint =>
      modify fun state => { state with complaints := state.complaints ++ [complaint] }
      pure default
  modify fun state => { state with tokens := outer }
  return value

end Reader

def keywords : List String :=
  ["if", "then", "elif", "else", "end", "and", "or", "as", "def", "reduce", "foreach", "try",
    "catch", "label", "break", "import", "include"]

inductive Bracket where
  | all
  | member (key : Term)
  | between (lower upper : Term)
  | start (lower : Term)
  | stop (upper : Term)

def Bracket.steps (lenient : Bool) (rest : Steps) : Bracket → Steps
  | .all => .iterate lenient rest
  | .member key => .index key lenient rest
  | .between lower upper => .slice lower upper lenient rest
  | .start lower => .sliceFrom lower lenient rest
  | .stop upper => .sliceTo upper lenient rest

def comparison? : Option Token → Option Binary
  | some (.symbol "==") => some .equal
  | some (.symbol "!=") => some .different
  | _ => none

def dottedName? (source : String) : Option String :=
  match source.toList with
  | '.' :: c :: rest => if c = '.' then none else some (String.ofList (c :: rest))
  | _ => none

def emptyObject : Term :=
  .literal (.object [])

def memberOf (name : String) : Term :=
  .path .identity (.index (.literal (.string name)) false .done)

open Reader

mutual

def readPipe (fuel : Nat) (commas : Bool) : Reader Term :=
  match fuel with
  | 0 => complain .term none
  | fuel + 1 => do
      let first ← if commas then readBoth fuel else readOtherwise fuel
      if ← accept "|" then return .pipe first (← readPipe fuel commas)
      return first
termination_by structural fuel

def readBoth (fuel : Nat) : Reader Term :=
  match fuel with
  | 0 => complain .term none
  | fuel + 1 => do
      let first ← readOtherwise fuel
      if ← accept "," then return .both first (← readBoth fuel)
      return first
termination_by structural fuel

def readOtherwise (fuel : Nat) : Reader Term :=
  match fuel with
  | 0 => complain .term none
  | fuel + 1 => do
      let first ← readComparison fuel
      if ← accept "//" then return .otherwise first (← readOtherwise fuel)
      return first
termination_by structural fuel

def readComparison (fuel : Nat) : Reader Term :=
  match fuel with
  | 0 => complain .term none
  | fuel + 1 => do readCompared fuel (← readSum fuel)
termination_by structural fuel

/-- Comparisons with what has been read already, from the left to the right. -/
def readCompared (fuel : Nat) (first : Term) : Reader Term :=
  match fuel with
  | 0 => complain .term none
  | fuel + 1 => do
      match comparison? (← peek) with
      | some operation =>
          let _ ← next
          readCompared fuel (.binary operation first (← readSum fuel))
      | none => return first
termination_by structural fuel

def readSum (fuel : Nat) : Reader Term :=
  match fuel with
  | 0 => complain .term none
  | fuel + 1 => do readSummands fuel (← readAtom fuel)
termination_by structural fuel

/-- Summands after the first ones, which have been added up already. -/
def readSummands (fuel : Nat) (sum : Term) : Reader Term :=
  match fuel with
  | 0 => complain .term none
  | fuel + 1 => do
      if ← accept "+" then readSummands fuel (.binary .plus sum (← readAtom fuel))
      else return sum
termination_by structural fuel

/-- A term with the question marks and the steps that follow it. A question mark after a step
belongs to the step. -/
def readAtom (fuel : Nat) : Reader Term :=
  match fuel with
  | 0 => complain .term none
  | fuel + 1 => do
      let token ← next
      match token with
      | some (.symbol source) =>
          if let some name := dottedName? source then
            let lenient ← questioned
            return .path .identity
              (.index (.literal (.string name)) lenient (← readSteps fuel))
          if source == "." then
            if let some (.quoted _ name) ← peek then
              let _ ← next
              let lenient ← questioned
              return .path .identity
                (.index (.literal (.string name)) lenient (← readSteps fuel))
      | _ => pure ()
      let term ← readPrimary fuel token
      let lenient ← questioned
      return (if lenient then .attempt term else term).along (← readSteps fuel)
termination_by structural fuel

def readPrimary (fuel : Nat) (token : Option Token) : Reader Term :=
  match fuel with
  | 0 => complain .term token
  | fuel + 1 =>
      match token with
      | some (.symbol ".") => return .identity
      | some (.symbol "..") => return .descend
      | some (.symbol "-") => do return .negate (← readAtom fuel)
      | some (.number source) => return .literal (.number (.ofText source))
      | some (.quoted _ content) => return .literal (.string content)
      | some (.variable source) => return .unknown source []
      | some (.word "if") => readChoice fuel
      | some (.word name) =>
          if name ∈ keywords then complain .term token
          else do
            match ← peek with
            | some (.block source tokens) =>
                if source.startsWith "(" then
                  let _ ← next
                  return .call name (← inside tokens ")" [] (readArguments fuel))
                return .call name []
            | _ => return .call name []
      | some (.block source tokens) =>
          if source.startsWith "(" then inside tokens ")" .identity (readPipe fuel true)
          else if source.startsWith "[" then
            if tokens.length = 1 then return .literal (.array [])
            else do return .collect (← inside tokens "]" .identity (readPipe fuel true))
          else if tokens.length = 1 then return emptyObject
          else inside tokens "\x7d" .identity do readEntries fuel (← readEntry fuel)
      | _ => complain .term token
termination_by structural fuel

def readSteps (fuel : Nat) : Reader Steps :=
  match fuel with
  | 0 => complain .term none
  | fuel + 1 => do
      let indexed (name : String) : Reader Steps := do
        let lenient ← questioned
        return .index (.literal (.string name)) lenient (← readSteps fuel)
      match ← peek with
      | some (.block source tokens) =>
          if !source.startsWith "[" then return .done
          let _ ← next
          let bracket ← inside tokens "]" .all (readBracket fuel)
          let lenient ← questioned
          return bracket.steps lenient (← readSteps fuel)
      | some (.symbol source) =>
          if source == "." then
            let _ ← next
            match ← next with
            | some (.quoted _ name) => indexed name
            | found => complain .key found
          else
            match dottedName? source with
            | some name =>
                let _ ← next
                indexed name
            | none => return .done
      | _ => return .done
termination_by structural fuel

def readBracket (fuel : Nat) : Reader Bracket :=
  match fuel with
  | 0 => complain .term none
  | fuel + 1 => do
      if isSymbol "]" (← peek) then return .all
      if ← accept ":" then return .stop (← readPipe fuel true)
      let lower ← readPipe fuel true
      if ← accept ":" then
        if isSymbol "]" (← peek) then return .start lower
        return .between lower (← readPipe fuel true)
      return .member lower
termination_by structural fuel

def readArguments (fuel : Nat) : Reader (List Term) :=
  match fuel with
  | 0 => complain .term none
  | fuel + 1 => do
      let first ← readPipe fuel true
      if ← accept ";" then return first :: (← readArguments fuel)
      return [first]
termination_by structural fuel

/-- A conditional whose first word has been read. Without a last alternative the value itself is
kept. -/
def readChoice (fuel : Nat) : Reader Term :=
  match fuel with
  | 0 => complain .term none
  | fuel + 1 => do
      let condition ← readPipe fuel true
      expect "then"
      let yes ← readPipe fuel true
      match ← next with
      | some (.word "elif") => return .choose condition yes (← readChoice fuel)
      | some (.word "else") =>
          let no ← readPipe fuel true
          expect "end"
          return .choose condition yes no
      | some (.word "end") => return .choose condition yes .identity
      | found => complain .elseOrEnd found
termination_by structural fuel

/-- A member of an object. A key that stands alone takes the member of its name. -/
def readEntry (fuel : Nat) : Reader Term :=
  match fuel with
  | 0 => complain .key none
  | fuel + 1 => do
      let named (key : Term) (alone : Term) : Reader Term := do
        if ← accept ":" then return .entry key (← readPipe fuel false)
        return .entry key alone
      match ← next with
      | some (.word name) => named (.literal (.string name)) (memberOf name)
      | some (.quoted _ name) => named (.literal (.string name)) (memberOf name)
      | some (.variable source) =>
          named (.literal (.string (source.drop 1).toString)) (.unknown source [])
      | some (.block source tokens) =>
          if !source.startsWith "(" then complain .key (some (.block source tokens))
          let key ← inside tokens ")" .identity (readPipe fuel true)
          expect ":"
          return .entry key (← readPipe fuel false)
      | found => complain .key found
termination_by structural fuel

/-- Members after the first ones, which have been added up already. A comma may follow the last
one. -/
def readEntries (fuel : Nat) (sum : Term) : Reader Term :=
  match fuel with
  | 0 => complain .key none
  | fuel + 1 => do
      if !(← accept ",") then return sum
      if isSymbol "\x7d" (← peek) then return sum
      readEntries fuel (.binary .plus sum (← readEntry fuel))
termination_by structural fuel

end

/-- What is wrong with a filter text: its tokens, or their order. -/
inductive Unreadable where
  | tokens (complaints : List Token.Complaint)
  | order (complaints : List Complaint)
  deriving DecidableEq, Repr

def Unreadable.text : Unreadable → String
  | .tokens complaints => "Lex([" ++ ", ".intercalate (complaints.map (·.text)) ++ "])"
  | .order complaints => "Parse([" ++ ", ".intercalate (complaints.map (·.text)) ++ "])"

/-- The filter of a text. Every token takes fewer than a dozen calls that lead to one another. -/
def Term.ofText (text : String) : Except Unreadable Term := do
  let tokens ← (Token.ofText text).mapError .tokens
  let whole : Reader Term := do
    let term ← readPipe (12 * text.length + 12) true
    finish
    return term
  match whole.run.run ⟨tokens, []⟩ with
  | (.error complaint, state) => throw (.order (state.complaints ++ [complaint]))
  | (.ok term, state) =>
      if state.complaints.isEmpty then return term else throw (.order state.complaints)

end ToolGrammar.Filter
