namespace ToolGrammar.CommandLine

/-- Why the words ask for no run. -/
inductive Stop where
  | help
  | version
  | nothingAsked
  | missingCommand
  | unknownCommand
  | unknownArgument
  | invalidValue
  | repeatedArgument
  | unneededValue
  | missingArgument
  deriving DecidableEq, Repr

/-- Whoever asks for help or for the version is served. -/
def Stop.exitCode : Stop → Nat
  | .help | .version => 0
  | _ => 2

inductive Takes where
  | nothing
  | text
  /-- A text that is not empty. -/
  | path
  /-- One text or more, at every use. -/
  | texts
  | stop (reason : Stop)
  deriving DecidableEq, Repr

def Takes.isFlag : Takes → Bool
  | .nothing | .stop _ => true
  | _ => false

structure OptionSpec where
  long : String
  short : Option Char
  takes : Takes
  deriving DecidableEq, Repr

structure Catalog (ω : Type) where
  options : List ω
  spec : ω → OptionSpec

/-- Options read so far, each with its values; the last one may still be taking values. -/
structure Reading (ω : Type) where
  given : List (ω × List String)
  pending : Option (ω × List String)
  /-- Whether `--` has been read. -/
  isTrailing : Bool

variable {ω : Type} [DecidableEq ω]

namespace Reading

def empty : Reading ω :=
  ⟨[], none, false⟩

def has (reading : Reading ω) (option : ω) : Bool :=
  reading.given.any (·.1 = option)

def values (reading : Reading ω) (option : ω) : List String :=
  reading.given.flatMap fun use => if use.1 = option then use.2 else []

def value? (reading : Reading ω) (option : ω) : Option String :=
  (reading.values option).head?

variable (catalog : Catalog ω)

def use (option : ω) (values : List String) (reading : Reading ω) : Except Stop (Reading ω) :=
  let added := { reading with given := reading.given ++ [(option, values)] }
  match (catalog.spec option).takes with
  | .stop reason => .error reason
  | .nothing => if reading.has option then .error .repeatedArgument else .ok added
  | .texts => if values.isEmpty then .error .invalidValue else .ok added
  | .text =>
      if values.isEmpty then .error .invalidValue
      else if reading.has option then .error .repeatedArgument
      else .ok added
  | .path =>
      if values.isEmpty then .error .invalidValue
      else if reading.has option then .error .repeatedArgument
      else if "" ∈ values then .error .invalidValue
      else .ok added

/-- Ends the use of the pending option. -/
def settle (reading : Reading ω) : Except Stop (Reading ω) :=
  match reading.pending with
  | none => .ok reading
  | some (option, values) => use catalog option values { reading with pending := none }

/-- Whether the pending option takes the next word. -/
def isOpen (reading : Reading ω) : Bool :=
  match reading.pending with
  | none => false
  | some (option, values) => values.isEmpty || (catalog.spec option).takes = .texts

def start (option : ω) (reading : Reading ω) : Except Stop (Reading ω) := do
  let reading ← reading.settle catalog
  if (catalog.spec option).takes.isFlag then use catalog option [] reading
  else return { reading with pending := some (option, []) }

def attach (option : ω) (text : String) (reading : Reading ω) : Except Stop (Reading ω) := do
  if (catalog.spec option).takes.isFlag then throw .unneededValue
  use catalog option [text] (← reading.settle catalog)

def readLong (chars : List Char) (reading : Reading ω) : Except Stop (Reading ω) :=
  let name := String.ofList (chars.takeWhile (· ≠ '='))
  match catalog.options.find? fun option => (catalog.spec option).long = name with
  | none => .error .unknownArgument
  | some option =>
      match chars.dropWhile (· ≠ '=') with
      | [] => start catalog option reading
      | _ :: text => attach catalog option (String.ofList text) reading

/-- Letters after a single dash: flags, and at the end an option whose value may follow at once or
after `=`. -/
def readShort : List Char → Reading ω → Except Stop (Reading ω)
  | [], reading => .ok reading
  | letter :: rest, reading =>
      match catalog.options.find? fun option => (catalog.spec option).short = some letter with
      | none => .error .unknownArgument
      | some option =>
          if (catalog.spec option).takes.isFlag then do
            readShort rest (← start catalog option reading)
          else
            match rest with
            | [] => start catalog option reading
            | '=' :: text | text => attach catalog option (String.ofList text) reading

/-- Reads a word, unless it is no option and no option takes it. -/
def readWord? (word : String) (reading : Reading ω) : Option (Except Stop (Reading ω)) :=
  if reading.isTrailing then none
  else
    match word.toList with
    | ['-', '-'] => some (.ok { reading with isTrailing := true })
    | '-' :: '-' :: chars => some (readLong catalog chars reading)
    | '-' :: letter :: chars => some (readShort catalog (letter :: chars) reading)
    | _ =>
        match reading.pending with
        | some (option, values) =>
            if isOpen catalog reading then
              some (.ok { reading with pending := some (option, values ++ [word]) })
            else none
        | none => none

/-- Reads words that may be nothing but options and their values. -/
def readAll (reading : Reading ω) : List String → Except Stop (Reading ω)
  | [] => reading.settle catalog
  | word :: rest =>
      match reading.readWord? catalog word with
      | none => .error .unknownArgument
      | some read => do readAll (← read) rest

end Reading

end ToolGrammar.CommandLine
