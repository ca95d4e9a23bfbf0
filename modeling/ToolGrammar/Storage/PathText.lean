import ToolGrammar.Text.Pieces

namespace ToolGrammar.Storage.PathText

def isAbsolute (path : String) : Bool :=
  path.toList.head? == some '/'

/-- Ends in a slash, and so can only mean a directory. -/
def isOpen (path : String) : Bool :=
  path.toList.getLast? == some '/'

/-- The names that lead to what the path text means, with `.` and `..`. -/
def names (path : String) : List String :=
  (Text.pieces '/' path).filter (· ≠ "")

/-- A name that counts for nothing within a path. -/
def isIdle (name : String) : Bool :=
  name == "" || name == "."

/-- What a path text starts with that is no name: a slash, or a `.` of its own. -/
def lead (path : String) : String :=
  if isAbsolute path then "/"
  else if (Text.pieces '/' path).head? = some "." then "."
  else ""

/-- The pieces after the lead, the last one first. -/
def body (path : String) : List String :=
  (Text.pieces '/' (String.ofList (path.toList.drop (lead path).length))).reverse

/-- Means the current directory and says nothing else. -/
def isCurrent (path : String) : Bool :=
  lead path == "." && (body path).all isIdle

/-- The path text that has these pieces after its lead, the last one first. -/
def build (lead : String) (pieces : List String) : String :=
  lead ++ "/".intercalate pieces.reverse

/-- All parents, the nearest one first: the root is its own end, and a relative path ends in the
empty one. -/
def parentsFrom (lead : String) : List String → List String
  | [] => if lead = "." then [""] else []
  | name :: above =>
      if isIdle name then parentsFrom lead above
      else build lead (above.dropWhile isIdle) :: parentsFrom lead above

def parents (path : String) : List String :=
  parentsFrom (lead path) (body path)

def parent? (path : String) : Option String :=
  (parents path).head?

/-- The last name, unless the path text ends in `..` or has no name. -/
def fileName? (path : String) : Option String :=
  match (body path).dropWhile isIdle with
  | [] | ".." :: _ => none
  | name :: _ => some name

/-- A file name without what follows its last dot; a dot at its start is part of the name. -/
def stemOf (name : String) : String :=
  let cut := name.toList.reverse.dropWhile (· ≠ '.')
  match cut with
  | [] | [_] => name
  | _ :: before => String.ofList before.reverse

def stem? (path : String) : Option String :=
  (fileName? path).map stemOf

def join (directory name : String) : String :=
  if isAbsolute name then name
  else if directory = "" ∨ isOpen directory then directory ++ name
  else directory ++ "/" ++ name

end ToolGrammar.Storage.PathText
