import ToolGrammar.Filter.Reader

/-!
Running filters. They are the part of the jq language that schemas are picked out of larger
documents with: paths, `|`, `,`, `//`, `==`, `!=`, `+`, conditionals, and the functions of
`Constant` and `Operator`. A program of the full language that goes beyond this part is unreadable
or has unknown names here.

A filter yields a sequence of values and failures; a failure takes the place of the value it
prevents, and only the caller decides that one failure spoils the whole run.
-/
namespace ToolGrammar.Filter

def Binary.run : Binary → Datum → Datum → Result
  | .plus, a, b => a.plus b
  | .equal, a, b => .ok (.bool (a.same b))
  | .different, a, b => .ok (.bool !(a.same b))

def Constant.run : Constant → Datum → List Result
  | .null, _ => [.ok .null]
  | .true, _ => [.ok (.bool Bool.true)]
  | .false, _ => [.ok (.bool Bool.false)]
  | .nan, _ => [.ok (.number (.real .nan))]
  | .infinite, _ => [.ok (.number (.real (.infinite Bool.false)))]
  | .empty, _ => []
  | .error, value => [.error (.raised value)]
  | .length, value => [value.length]
  | .keys, value => [value.keys]
  | .toEntries, value => [value.entries]
  | .type, value => [.ok (.string value.typeName)]
  | .not, value => [.ok (.bool (!value.isTruthy))]

/-- Continues with every value and keeps every failure. -/
def thenEach (results : List Result) (next : Datum → List Result) : List Result :=
  results.flatMap fun result =>
    match result with
    | .ok value => next value
    | .error failure => [.error failure]

/-- Every pair of results, the first sequence being the outer one. -/
def combine (firsts seconds : List Result) (operation : Datum → Datum → Result) : List Result :=
  firsts.flatMap fun first => seconds.map fun second => do operation (← first) (← second)

/-- One list of all values, or the first failure. -/
def gather (results : List Result) : Result :=
  (results.mapM id).map .array

/-- Counts as true, as a failure does. -/
def truthyResult : Result → Bool
  | .ok value => value.isTruthy
  | .error _ => true

def contentResults (value : Datum) : List Result :=
  match value.contents with
  | .ok values => values.map .ok
  | .error failure => [.error failure]

/-- A step whose keys are known. -/
inductive Step where
  | index (key : Datum)
  | slice (lower upper : Option Datum)
  | iterate

def Step.run (value : Datum) : Step → List Result
  | .index key => [value.index key]
  | .slice lower upper => [value.slice lower upper]
  | .iterate => contentResults value

abbrev Stride := Step × Bool

def follow (value : Datum) : List Stride → List Result
  | [] => [.ok value]
  | (step, lenient) :: rest =>
      let reached := step.run value
      thenEach (if lenient then reached.filter (·.isOk) else reached) fun next => follow next rest

/-- One path for each value of a key, or for each failure to have one. -/
def strideEach (keys : List Result) (lenient : Bool) (paths : List (Except Failure (List Stride)))
    (step : Datum → Step) : List (Except Failure (List Stride)) :=
  keys.flatMap fun key =>
    match key with
    | .ok value => paths.map (·.map ((step value, lenient) :: ·))
    | .error failure => [.error failure]

mutual

def Term.run (input : Datum) : Term → List Result
  | .identity => [.ok input]
  | .descend => input.descendants.map .ok
  | .literal value => [.ok value]
  | .collect term => [gather (term.run input)]
  | .entry key value => combine (key.run input) (value.run input) Datum.entry
  | .negate term => thenEach (term.run input) fun value => [value.negate]
  | .pipe first second => thenEach (first.run input) fun value => second.run value
  | .both first second => first.run input ++ second.run input
  | .otherwise first second =>
      let kept := (first.run input).filter truthyResult
      if kept.isEmpty then second.run input else kept
  | .binary operation first second =>
      combine (first.run input) (second.run input) operation.run
  | .choose condition yes no =>
      thenEach (condition.run input) fun value =>
        if value.isTruthy then yes.run input else no.run input
  | .attempt term => (term.run input).takeWhile (·.isOk)
  | .path head steps =>
      let paths := steps.paths input
      thenEach (head.run input) fun value =>
        paths.flatMap fun path =>
          match path with
          | .ok strides => follow value strides
          | .error failure => [.error failure]
  | .constant name => name.run input
  | .apply .select argument =>
      thenEach (argument.run input) fun value => if value.isTruthy then [.ok input] else []
  | .apply .map argument =>
      [gather (thenEach (contentResults input) fun item => argument.run item)]
  | .apply .has argument => thenEach (argument.run input) fun key => [input.hasKey key]
  | .apply .join argument =>
      thenEach (argument.run input) fun separator => [input.join separator]
  | .apply .error argument =>
      match argument.run input with
      | [] => [.ok input]
      | .ok value :: _ => [.error (.raised value)]
      | .error failure :: _ => [.error failure]
  | .unknown .. => [.error .unknownName]
termination_by structural term => term

/-- The paths that steps describe, one for each choice of their keys. The keys are values at the
input, wherever the steps lead, and the keys of the first step vary last. -/
def Steps.paths (input : Datum) : Steps → List (Except Failure (List Stride))
  | .done => [.ok []]
  | .index key lenient rest =>
      strideEach (key.run input) lenient (rest.paths input) .index
  | .sliceFrom lower lenient rest =>
      strideEach (lower.run input) lenient (rest.paths input) fun lower => .slice (some lower) none
  | .sliceTo upper lenient rest =>
      strideEach (upper.run input) lenient (rest.paths input) fun upper => .slice none (some upper)
  | .slice lower upper lenient rest =>
      (lower.run input).flatMap fun lower =>
        strideEach (upper.run input) lenient (rest.paths input) fun upper =>
          .slice lower.toOption (some upper)
  | .iterate lenient rest =>
      (rest.paths input).map (·.map ((.iterate, lenient) :: ·))
termination_by structural steps => steps

end

inductive FilterError where
  | unreadable (reason : Unreadable)
  | undefined (names : List String)
  | failed (failure : Failure)
  | noJson (fault : Json.Fault)
  deriving Repr

def FilterError.message (text : String) : FilterError → String
  | .unreadable reason => "cannot parse jq expression for schema selection: " ++ reason.text
  | .undefined names =>
      "jq expression for schema selection uses undefined " ++
        ", ".intercalate (names.map fun name => "`" ++ name ++ "`")
  | .failed _ => "jq filter `" ++ text ++ "` failed"
  | .noJson fault =>
      "jq filter `" ++ text ++ "` produced non-JSON output: " ++ fault.message

def Result.toJson : Result → Except FilterError Json.Value
  | .ok value => value.toJson.mapError .noJson
  | .error failure => .error (.failed failure)

def runText (text : String) (input : Json.Value) : Except FilterError (List Json.Value) := do
  let term ← (Term.ofText text).mapError .unreadable
  if !term.unknownNames.isEmpty then throw (.undefined term.unknownNames)
  (term.run (.ofJson input)).mapM Result.toJson

end ToolGrammar.Filter
