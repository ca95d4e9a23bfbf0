import ToolGrammar.Filter.Datum

namespace ToolGrammar.Filter

inductive Constant where
  | null
  | true
  | false
  | nan
  | infinite
  | empty
  | error
  | length
  | keys
  | toEntries
  | type
  | not
  deriving DecidableEq, Repr

def Constant.name : Constant → String
  | .null => "null"
  | .true => "true"
  | .false => "false"
  | .nan => "nan"
  | .infinite => "infinite"
  | .empty => "empty"
  | .error => "error"
  | .length => "length"
  | .keys => "keys"
  | .toEntries => "to_entries"
  | .type => "type"
  | .not => "not"

def Constant.all : List Constant :=
  [.null, .true, .false, .nan, .infinite, .empty, .error, .length, .keys, .toEntries, .type, .not]

inductive Operator where
  | select
  | map
  | has
  | join
  | error
  deriving DecidableEq, Repr

def Operator.name : Operator → String
  | .select => "select"
  | .map => "map"
  | .has => "has"
  | .join => "join"
  | .error => "error"

def Operator.all : List Operator :=
  [.select, .map, .has, .join, .error]

inductive Binary where
  | plus
  | equal
  | different
  deriving DecidableEq, Repr

mutual

inductive Term where
  | identity
  /-- The value and everything in it, each container before its contents. -/
  | descend
  | literal (value : Datum)
  | collect (term : Term)
  | entry (key value : Term)
  | negate (term : Term)
  | pipe (first second : Term)
  | both (first second : Term)
  /-- The values of the first filter other than `null` and `false`, or else those of the second. -/
  | otherwise (first second : Term)
  | binary (operation : Binary) (first second : Term)
  | choose (condition yes no : Term)
  /-- The values of a filter up to its first failure. -/
  | attempt (term : Term)
  | path (head : Term) (steps : Steps)
  | constant (name : Constant)
  | apply (name : Operator) (argument : Term)
  | unknown (name : String) (arguments : List Term)
  deriving Repr

/-- Steps from a value into it. A lenient step that fails leads nowhere. -/
inductive Steps where
  | done
  | index (key : Term) (lenient : Bool) (rest : Steps)
  | slice (lower upper : Term) (lenient : Bool) (rest : Steps)
  | sliceFrom (lower : Term) (lenient : Bool) (rest : Steps)
  | sliceTo (upper : Term) (lenient : Bool) (rest : Steps)
  | iterate (lenient : Bool) (rest : Steps)
  deriving Repr

end

def Term.call (name : String) (arguments : List Term) : Term :=
  match arguments with
  | [] =>
      match Constant.all.find? (·.name == name) with
      | some found => .constant found
      | none => .unknown name []
  | [argument] =>
      match Operator.all.find? (·.name == name) with
      | some found => .apply found argument
      | none => .unknown name [argument]
  | _ => .unknown name arguments

/-- A term with steps from each of its values. -/
def Term.along (head : Term) : Steps → Term
  | .done => head
  | steps => .path head steps

mutual

/-- The names that a term uses and nothing defines, in the order of their use. Of a choice the last
alternative comes first. -/
def Term.unknownNames : Term → List String
  | .identity | .descend | .literal _ | .constant _ => []
  | .collect term | .negate term | .attempt term | .apply _ term => term.unknownNames
  | .entry first second | .pipe first second | .both first second | .otherwise first second
  | .binary _ first second => first.unknownNames ++ second.unknownNames
  | .choose condition yes no => no.unknownNames ++ condition.unknownNames ++ yes.unknownNames
  | .path head steps => head.unknownNames ++ steps.unknownNames
  | .unknown name arguments => unknownIn arguments ++ [name]
termination_by structural term => term

def Steps.unknownNames : Steps → List String
  | .done => []
  | .index term _ rest | .sliceFrom term _ rest | .sliceTo term _ rest =>
      term.unknownNames ++ rest.unknownNames
  | .slice lower upper _ rest =>
      lower.unknownNames ++ upper.unknownNames ++ rest.unknownNames
  | .iterate _ rest => rest.unknownNames
termination_by structural steps => steps

def unknownIn : List Term → List String
  | [] => []
  | term :: rest => term.unknownNames ++ unknownIn rest
termination_by structural terms => terms

end

end ToolGrammar.Filter
