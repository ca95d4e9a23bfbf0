import ToolGrammar.Journal.Event
import ToolGrammar.Text.Alphanumeric
import ToolGrammar.Text.Blank
import ToolGrammar.Text.Pieces

/-!
Which events are shown. A threshold is a list of directives, separated by commas in its text. A
directive sets a verbosity for all events, or for those whose source starts as it says, or for those
that have the field it names. Of the directives that apply to an event the most specific one
decides: the one with the longest start, then one that names a field, then the one that was given
last.
-/
namespace ToolGrammar.Journal

inductive Directive where
  | verbosity (start field : Option String) (verbosity : Nat)
  /-- A directive about spans of work or the values of their fields, of which this program has
  none. -/
  | span
  deriving DecidableEq, Repr

structure Threshold where
  directives : List Directive
  deriving DecidableEq, Repr

/-- A whole number of digits, which a plus sign may precede. -/
def countOf? (text : List Char) : Option Nat :=
  let digits := if text.head? = some '+' then text.drop 1 else text
  if digits.isEmpty || !digits.all Char.isDigit then none
  else some (digits.foldl (fun count digit => 10 * count + (digit.toNat - '0'.toNat)) 0)

/-- A verbosity by its number, or by its name in any case. -/
def verbosityOf? (text : List Char) : Option Nat :=
  match countOf? text with
  | some count => if count ≤ 5 then some count else none
  | none =>
      match String.ofList (text.map Char.toLower) with
      | "off" => some 0
      | "error" => some 1
      | "warn" => some 2
      | "info" => some 3
      | "debug" => some 4
      | "trace" => some 5
      | _ => none

namespace Directive

/-- What follows so many bytes of a text, unless that is in the middle of a character. -/
def dropBytes? : Nat → List Char → Option (List Char)
  | 0, text => some text
  | _ + 1, [] => none
  | bytes + 1, c :: rest =>
      if bytes + 1 < c.utf8Size then none else dropBytes? (bytes + 1 - c.utf8Size) rest

/-- So many bytes of a text, unless they end in the middle of a character. -/
def takeBytes? : Nat → List Char → Option (List Char)
  | 0, _ => some []
  | _ + 1, [] => none
  | bytes + 1, c :: rest =>
      if bytes + 1 < c.utf8Size then none
      else (takeBytes? (bytes + 1 - c.utf8Size) rest).map (c :: ·)

def byteLength (text : List Char) : Nat :=
  (String.ofList text).utf8ByteSize

/-- May start a directive: a letter or number of any script, or one of three other characters. -/
def isStart (c : Char) : Bool :=
  c == '-' || c == ':' || c == '_' || Text.isAlphanumeric c

variable (text : List Char)

def part? (start stop : Nat) : Option (List Char) := do
  takeBytes? (stop - start) (← dropBytes? start text)

/-- The verbosity that begins at a number of bytes; the greatest one where there is none. -/
def verbosityFrom? (start : Nat) : Option Nat := do
  match ← dropBytes? start text with
  | [] => some 5
  | name => verbosityOf? name

/-- What follows the closing bracket: nothing, or `=` and a verbosity. -/
def afterBracket? (offset : Nat) : List Char → Option Nat
  | [] => some 5
  | '=' :: _ => verbosityFrom? text (offset + 1)
  | _ => none

/-- A directive whose opening bracket has been read. Within the brackets stand the name of a span
or, in braces, the name of a field, which `=` and a value may follow. -/
def bracketed? (start : Option String) (offset : Nat) (inside : List Char) : Option Directive := do
  let name := inside.takeWhile fun c => c ≠ ']' ∧ c ≠ '\x7b'
  let stop := offset + byteLength name
  match inside.drop name.length with
  | ']' :: after =>
      let _ ← part? text offset stop
      let _ ← afterBracket? text (stop + 1) after
      return .span
  | '\x7b' :: rest =>
      let spanName ← part? text offset stop
      let field := rest.takeWhile (· ≠ '\x7d')
      let fieldStop := stop + 1 + byteLength field
      match rest.drop field.length with
      | '\x7d' :: ']' :: after =>
          let field ← part? text (stop + 1) fieldStop
          if field.isEmpty then none
          let shown ← afterBracket? text (fieldStop + 2) after
          if spanName.isEmpty && '=' ∉ field then
            return .verbosity start (some (String.ofList field)) shown
          else return .span
      | _ => none
  | _ => none

def ofChars? : Option Directive :=
  match Text.trimmed text with
  | [] => none
  | '[' :: inside => bracketed? text none 1 inside
  | first :: rest => do
      if !isStart first then none
      let name := (first :: rest).takeWhile fun c => c ≠ '=' ∧ c ≠ '['
      let stop := byteLength name
      match (first :: rest).drop name.length with
      | [] =>
          match verbosityOf? text with
          | some shown => return .verbosity none none shown
          | none => return .verbosity (some (String.ofList text)) none 5
      | '=' :: _ =>
          let start ← part? text 0 stop
          let shown ← verbosityFrom? text (stop + 1)
          return .verbosity (some (String.ofList start)) none shown
      | _ :: inside =>
          let start ← part? text 0 stop
          bracketed? text (some (String.ofList start)) (stop + 1) inside

def ofText? (text : String) : Option Directive :=
  ofChars? text.toList

end Directive

namespace Threshold

/-- The texts of the directives, nothing between two commas being none. -/
def directiveTexts (text : String) : List String :=
  (Text.pieces ',' text).filter (· ≠ "")

/-- Every directive that is one, others being passed over; only errors are shown if there is
none. -/
def ofText (text : String) : Threshold :=
  match (directiveTexts text).filterMap Directive.ofText? with
  | [] => ⟨[.verbosity none none Level.error.verbosity]⟩
  | directives => ⟨directives⟩

/-- All directives, if each is one; nothing is shown if there is none. -/
def ofText? (text : String) : Option Threshold :=
  ((directiveTexts text).mapM Directive.ofText?).map Threshold.mk

/-- The threshold of a run: the one asked for, else that of the environment if it can be read, else
the one that shows what is at least informative. -/
def choose (asked environment : Option String) : Threshold :=
  match asked with
  | some text => ofText text
  | none => (environment.bind ofText?).getD ⟨[.verbosity none none Level.info.verbosity]⟩

/-- How specific a directive is. -/
structure Rank where
  start : Nat
  field : Option String
  deriving DecidableEq, Repr

def Rank.atMost (rank other : Rank) : Bool :=
  rank.start < other.start ||
    rank.start == other.start &&
      match rank.field, other.field with
      | none, _ => true
      | some _, none => false
      | some name, some other => name ≤ other

/-- The rank of a directive that applies to an event; a start counts even if it is empty. -/
def rankFor? (event : Event) : Directive → Option (Rank × Nat)
  | .span => none
  | .verbosity start field shown =>
      let named := (start.map String.toList).getD []
      if named.isPrefixOf event.source.text.toList && field.all event.hasField then
        some (⟨(start.map (·.utf8ByteSize + 1)).getD 0, field⟩, shown)
      else none

/-- The more specific of the best directive so far and the next one. -/
def decide (event : Event) (best : Option (Rank × Nat)) (directive : Directive) :
    Option (Rank × Nat) :=
  match rankFor? event directive, best with
  | none, best => best
  | some next, none => some next
  | some next, some best => some (if best.1.atMost next.1 then next else best)

def shows (threshold : Threshold) (event : Event) : Bool :=
  ((threshold.directives.foldl (decide event) none).map (·.2)).any (event.level.verbosity ≤ ·)

end Threshold

end ToolGrammar.Journal
