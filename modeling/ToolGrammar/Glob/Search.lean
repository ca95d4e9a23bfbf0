import ToolGrammar.Glob.Pattern
import ToolGrammar.Script

/-!
The paths that a pattern stands for, in alphabetical order within each directory, a directory
before what it holds. Path texts are written as the pattern leads to them; in the current directory
they are bare names.
-/
namespace ToolGrammar.Glob

open Storage

structure SearchError where
  path : String
  reason : AccessError
  deriving DecidableEq, Repr

def SearchError.message (error : SearchError) : String :=
  "attempting to read `" ++ error.path ++ "` resulted in an error: " ++ error.reason.message

abbrev Search := ExceptT SearchError Script

structure Place where
  path : String
  isDirectory : Bool

def Place.ofPath (path : String) : Search Place := do
  return ⟨path, ← Script.request (.isDirectory path)⟩

def Place.below (place : Place) (name : String) : String :=
  if PathText.isCurrent place.path then name else PathText.join place.path name

def Place.names (place : Place) : Search (List String) :=
  ExceptT.mk do return (← Script.request (.list place.path)).mapError (⟨place.path, ·⟩)

variable (directoriesOnly : Bool) (fill : List Component → Place → Search (List String))

def arrive (place : Place) : List String :=
  if directoriesOnly && !place.isDirectory then [] else [place.path]

/-- Goes on from a path that a component has led to. -/
def goOn (components : List Component) (path : String) : Search (List String) := do
  let place ← Place.ofPath path
  if components.isEmpty then return arrive directoriesOnly place else fill components place

/-- Goes on from a place if the first component accepts its name. -/
def goOnIfAccepted (components : List Component) (name : String) (place : Place) :
    Search (List String) :=
  match components with
  | [] => return []
  | component :: others =>
      if !component.accepts name then return []
      else if others.isEmpty then return arrive directoriesOnly place
      else fill others place

/-- Visits a node listed in a directory. -/
def visit (components : List Component) (name : String) (place : Place) : Search (List String) :=
  match components with
  | .anyNames :: others => do
      let others := others.dropWhile (· = .anyNames)
      let here ←
        if !others.isEmpty then goOnIfAccepted directoriesOnly fill others name place
        else if place.isDirectory then pure [place.path]
        else pure []
      if place.isDirectory then return here ++ (← fill (.anyNames :: others) place) else return here
  | components => goOnIfAccepted directoriesOnly fill components name place

/-- Visits all that a directory holds, after the directory itself and its parent where the component
asks for them. -/
def visitAll (component : Component) (others : List Component) (place : Place) :
    Search (List String) := do
  if !place.isDirectory then return []
  let names ← place.names
  let special ← ["..", "."].mapM fun name =>
    if component.acceptsSpecial name then
      goOn directoriesOnly fill others (PathText.join place.path name)
    else pure []
  let children ← names.mapM fun name => do
    visit directoriesOnly fill (component :: others) name (← Place.ofPath (place.below name))
  return special.flatten ++ children.flatten

/-- Finds a name without a look at the directory. -/
def visitName (name : String) (others : List Component) (place : Place) :
    Search (List String) := do
  let path := place.below name
  if name = "." ∨ name = ".." then
    if place.isDirectory then goOn directoriesOnly fill others path else return []
  else if ← Script.request (.isDirectory path) then goOn directoriesOnly fill others path
  else if ← Script.request (.isFile path) then goOn directoriesOnly fill others path
  else return []

/-- The paths from a place by way of some components, no deeper than the budget allows. -/
def searchFrom (directoriesOnly : Bool) : Nat → List Component → Place → Search (List String)
  | 0, _, _ | _, [], _ => return []
  | budget + 1, .name text :: others, place =>
      visitName directoriesOnly (searchFrom directoriesOnly budget) text others place
  | budget + 1, component :: others, place =>
      visitAll directoriesOnly (searchFrom directoriesOnly budget) component others place

/-- More names than any path text can hold. -/
def greatestDepth : Nat := 4096

def search (pattern : Pattern) : Search (List String) := do
  let start ← Place.ofPath (if pattern.isAbsolute then "/" else ".")
  searchFrom pattern.directoriesOnly (greatestDepth + pattern.components.length)
    pattern.components start

end ToolGrammar.Glob
