import ToolGrammar.Keyed
import ToolGrammar.Storage.AccessError
import ToolGrammar.Storage.PathText

/-!
Files and directories under locations. A location is the list of names from the root; a path text
leads to a location through directories that exist, so that `a/../b` needs the directory `a`. No
operation changes what lies outside the location that its path text leads to, but for the missing
directories above it that `makeDirectories` makes.
-/
namespace ToolGrammar.Storage

/-- The names from the root down. -/
abbrev Location := List String

inductive Node where
  | file (content : ByteArray)
  | directory

/-- The nodes below the root, and the directory at which relative paths start. -/
structure FileSystem where
  current : Location
  nodes : List (Location × Node)

/-- Where a path text leads: to a directory that exists, or to a name within one. -/
inductive Target where
  | directory (location : Location)
  | entry (location : Location) (isOpen : Bool)
  deriving DecidableEq, Repr

namespace FileSystem

/-- The root is always a directory. -/
def node? (files : FileSystem) (location : Location) : Option Node :=
  if location = [] then some .directory else Keyed.lookup? location files.nodes

def put (location : Location) (node : Node) (files : FileSystem) : FileSystem :=
  { files with nodes := Keyed.put location node files.nodes }

/-- The node at a location, whose last name must not be too long. -/
def lookUp (files : FileSystem) (location : Location) : Except AccessError (Option Node) :=
  if location.getLast?.any (255 < ·.utf8ByteSize) then .error .nameTooLong
  else .ok (files.node? location)

def enter (files : FileSystem) (location : Location) (name : String) :
    Except AccessError Location :=
  if name = "." then .ok location
  else if name = ".." then .ok location.dropLast
  else do
    match ← files.lookUp (location ++ [name]) with
    | none => throw .missing
    | some (.file _) => throw .notDirectory
    | some .directory => return location ++ [name]

/-- Where a path text leads, the last name not looked up. -/
def target (files : FileSystem) (path : String) : Except AccessError Target := do
  if path = "" then throw .missing
  if '\x00' ∈ path.toList then throw .badPath
  if 4096 ≤ path.utf8ByteSize then throw .nameTooLong
  let names := PathText.names path
  let start := if PathText.isAbsolute path then [] else files.current
  let above ← names.dropLast.foldlM files.enter start
  match names.getLast? with
  | none | some "." => return .directory above
  | some ".." => return .directory above.dropLast
  | some name => return .entry (above ++ [name]) (PathText.isOpen path)

def look (files : FileSystem) (path : String) : Except AccessError (Location × Node) := do
  match ← files.target path with
  | .directory location => return (location, .directory)
  | .entry location isOpen =>
      match ← files.lookUp location with
      | none => throw .missing
      | some .directory => return (location, .directory)
      | some (.file content) =>
          if isOpen then throw .notDirectory else return (location, .file content)

def read (files : FileSystem) (path : String) : Except AccessError String := do
  match ← files.look path with
  | (_, .directory) => throw .isDirectory
  | (_, .file content) =>
      match String.fromUTF8? content with
      | none => throw .notText
      | some text => return text

/-- The name of a location directly below a directory. -/
def childName? (directory location : Location) : Option String :=
  if location.dropLast = directory then location.getLast? else none

/-- The names in a directory, sorted. -/
def list (files : FileSystem) (path : String) : Except AccessError (List String) := do
  match ← files.look path with
  | (_, .file _) => throw .notDirectory
  | (location, .directory) =>
      return (files.nodes.filterMap fun entry => childName? location entry.1).mergeSort
        fun a b => a ≤ b

/-- Replaces the content of a file, or makes the file. -/
def write (files : FileSystem) (path text : String) : Except AccessError FileSystem := do
  match ← files.target path with
  | .directory _ | .entry _ true => throw .isDirectory
  | .entry location false =>
      match ← files.lookUp location with
      | some .directory => throw .isDirectory
      | _ => return files.put location (.file text.toUTF8)

def isDirectory (files : FileSystem) (path : String) : Bool :=
  match files.look path with
  | .ok (_, .directory) => true
  | _ => false

def makeDirectory (files : FileSystem) (path : String) : Except AccessError FileSystem := do
  match ← files.target path with
  | .directory _ => throw .occupied
  | .entry location _ =>
      match ← files.lookUp location with
      | some _ => throw .occupied
      | none => return files.put location .directory

/-- A directory that is there already is as good as one that is made. -/
def settleDirectory (files : FileSystem) (path : String) : Except AccessError Unit × FileSystem :=
  match files.makeDirectory path with
  | .ok made => (.ok (), made)
  | .error reason => (if files.isDirectory path then .ok () else .error reason, files)

/-- Makes the first of the path texts a directory, each of the others being the parent of the one
before it and made only if needed. Directories made before a failure stay. -/
def makeUpward (files : FileSystem) : List String → Except AccessError Unit × FileSystem
  | [] => (.error .missing, files)
  | path :: above =>
      if path = "" then (.ok (), files)
      else
        match files.makeDirectory path with
        | .error .missing =>
            match files.makeUpward above with
            | (.ok (), made) => made.settleDirectory path
            | failed => failed
        | _ => files.settleDirectory path

/-- Makes a directory and all directories above it that are missing. -/
def makeDirectories (files : FileSystem) (path : String) : Except AccessError Unit × FileSystem :=
  files.makeUpward (path :: PathText.parents path)

theorem node?_put (files : FileSystem) (location other : Location) (node : Node)
    (below : location ≠ []) :
    (files.put location node).node? other =
      if other = location then some node else files.node? other := by
  by_cases root : other = []
  · simp [node?, root, Ne.symm below]
  · simp [node?, put, root, Keyed.lookup?_put]

end FileSystem

end ToolGrammar.Storage
