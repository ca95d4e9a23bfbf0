import ToolGrammar.Json.Lexeme
import ToolGrammar.Json.Path
import ToolGrammar.Keyed

/-!
The located tree of a JSON text. Reading never fails as a whole: a fault becomes part of the tree
at the point where it was found, and whatever follows it is not read. A decoder that walks the tree
in text order therefore meets a fault exactly when it needs what the fault hides.
-/
namespace ToolGrammar.Json

inductive Scalar where
  | null
  | bool (value : Bool)
  | number (value : Number)
  | string (value : String)
  deriving DecidableEq, Repr

mutual

/-- A value of the text. `start` is the position before its first character, `stop` the one after
its last. -/
inductive Tree where
  | scalar (start stop : Position) (value : Scalar)
  | array (start : Position) (items : Items)
  | object (start : Position) (members : Members)
  | broken (start : Position) (fault : Fault)
  deriving Repr

/-- What stands in an array from some point on. -/
inductive Items where
  /-- The closing bracket, and the position after it. -/
  | close (stop : Position)
  | item (value : Tree) (rest : Items)
  /-- Neither an item nor the closing bracket; `here` is where white space ended. -/
  | broken (here : Position) (fault : Fault)
  deriving Repr

/-- What stands in an object from some point on. -/
inductive Members where
  /-- The closing brace, and the position after it. -/
  | close (stop : Position)
  /-- A member. `before` is the position of the comma that announces it, or of the first key;
  `keyStop` is the position after its key, and `colon` that of its colon. -/
  | member (before : Position) (name : String) (keyStop colon : Position) (value : Tree)
      (rest : Members)
  /-- A key that no colon follows; `here` is where white space after the key ended, or the position
  after a brace found there. -/
  | bare (before : Position) (name : String) (keyStop here : Position) (fault : Fault)
  /-- Neither a member nor the closing brace; `here` is where white space ended. -/
  | broken (here : Position) (fault : Fault)
  deriving Repr

end

/-- Containers that may be open at one time. -/
def depthLimit : Nat := 127

def Tree.start : Tree → Position
  | .scalar start .. | .array start _ | .object start _ | .broken start _ => start

/-- The position after the first byte of a value. -/
def Tree.peek (tree : Tree) : Position :=
  ⟨tree.start.line, tree.start.column + 1⟩

/-- A tree and, unless a fault ended the reading, what follows it. -/
abbrev Reading (α : Type) := α × Option Cursor

def readScalar (start : Position) : Except Fault (Scalar × Cursor) → Reading Tree
  | .ok (value, next) => (.scalar start next.here value, some next)
  | .error fault => (.broken start fault, none)

def readPlain (cursor : Cursor) : Reading Tree :=
  match cursor.rest with
  | [] => (.broken cursor.here (cursor.fault .endInValue), none)
  | c :: rest =>
      let next : Cursor := ⟨rest, cursor.here.after c⟩
      let word (letters : List Char) (value : Scalar) :=
        readScalar cursor.here ((scanWord next.here letters rest).map (value, ·))
      if c = 'n' then word ['u', 'l', 'l'] .null
      else if c = 't' then word ['r', 'u', 'e'] (.bool true)
      else if c = 'f' then word ['a', 'l', 's', 'e'] (.bool false)
      else if c = '"' then
        readScalar cursor.here ((scanString next).map fun (text, next) => (.string text, next))
      else if c = '-' || isDigit c then
        readScalar cursor.here ((scanNumber cursor).map fun (value, next) => (.number value, next))
      else (.broken cursor.here (cursor.peekFault .expectedValue), none)

/-- What follows an item: the closing bracket, or a comma and the place of the next item. -/
inductive AfterItem where
  | close (next : Cursor)
  | more (next : Cursor)
  | broken (here : Position) (fault : Fault)

def afterItem (cursor : Cursor) : AfterItem :=
  let cursor := cursor.skipSpace
  match cursor.rest with
  | [] => .broken cursor.here (cursor.fault .endInArray)
  | ']' :: rest => .close ⟨rest, cursor.here.after ']'⟩
  | ',' :: rest =>
      let next := Cursor.skipSpace ⟨rest, cursor.here.after ','⟩
      match next.rest with
      | [] => .broken next.here (next.fault .endInValue)
      | ']' :: _ => .broken next.here (next.peekFault .trailingComma)
      | _ => .more next
  | _ => .broken cursor.here (cursor.peekFault .expectedArrayEnd)

/-- What follows a member: the closing brace, or a comma and the opening quote of the next key. -/
inductive AfterMember where
  | close (next : Cursor)
  | key (before : Position) (next : Cursor)
  | broken (here : Position) (fault : Fault)

def afterMember (cursor : Cursor) : AfterMember :=
  let cursor := cursor.skipSpace
  match cursor.rest with
  | [] => .broken cursor.here (cursor.fault .endInObject)
  | '\x7d' :: rest => .close ⟨rest, cursor.here.after '\x7d'⟩
  | ',' :: rest =>
      let next := Cursor.skipSpace ⟨rest, cursor.here.after ','⟩
      match next.rest with
      | [] => .broken cursor.here (next.fault .endInValue)
      | '"' :: rest => .key cursor.here ⟨rest, next.here.after '"'⟩
      | '\x7d' :: _ => .broken cursor.here (next.peekFault .trailingComma)
      | _ => .broken cursor.here (next.peekFault .keyNotString)
  | _ => .broken cursor.here (cursor.peekFault .expectedObjectEnd)

/-- What follows a key: the place of its value after the colon. -/
inductive AfterKey where
  | colon (colon : Position) (next : Cursor)
  | bare (here : Position) (fault : Fault)

def afterKey (cursor : Cursor) : AfterKey :=
  let cursor := cursor.skipSpace
  match cursor.rest with
  | [] => .bare cursor.here (cursor.fault .endInObject)
  | ':' :: rest => .colon cursor.here ⟨rest, cursor.here.after ':'⟩
  | '\x7d' :: _ => .bare (cursor.here.after '\x7d') (cursor.peekFault .expectedColon)
  | _ => .bare cursor.here (cursor.peekFault .expectedColon)

mutual

/-- Reads a value after white space. `depth` containers may still be opened. Of three calls that
follow one another one reads a character, so three for each character are fuel enough. -/
def readTree (fuel depth : Nat) (cursor : Cursor) : Reading Tree :=
  match fuel with
  | 0 => (.broken cursor.here (cursor.fault .endInValue), none)
  | fuel + 1 =>
      let cursor := cursor.skipSpace
      match cursor.rest with
      | '[' :: rest =>
          if depth = 0 then
            (.array cursor.here (.broken cursor.here (cursor.peekFault .nestedTooDeeply)), none)
          else
            let (items, next) := readItems fuel (depth - 1) ⟨rest, cursor.here.after '['⟩
            (.array cursor.here items, next)
      | '\x7b' :: rest =>
          if depth = 0 then
            (.object cursor.here (.broken cursor.here (cursor.peekFault .nestedTooDeeply)), none)
          else
            let (members, next) := readMembers fuel (depth - 1) ⟨rest, cursor.here.after '\x7b'⟩
            (.object cursor.here members, next)
      | _ => readPlain cursor
termination_by structural fuel

/-- The items of an array whose bracket has been read. -/
def readItems (fuel depth : Nat) (cursor : Cursor) : Reading Items :=
  match fuel with
  | 0 => (.broken cursor.here (cursor.fault .endInArray), none)
  | fuel + 1 =>
      let cursor := cursor.skipSpace
      match cursor.rest with
      | [] => (.broken cursor.here (cursor.fault .endInArray), none)
      | ']' :: rest =>
          let stop := cursor.here.after ']'
          (.close stop, some ⟨rest, stop⟩)
      | _ => readItem fuel depth cursor
termination_by structural fuel

def readItem (fuel depth : Nat) (cursor : Cursor) : Reading Items :=
  match fuel with
  | 0 => (.broken cursor.here (cursor.fault .endInArray), none)
  | fuel + 1 =>
      match readTree fuel depth cursor with
      | (value, none) => (.item value (.broken cursor.here (cursor.fault .endInArray)), none)
      | (value, some next) =>
          match afterItem next with
          | .close next => (.item value (.close next.here), some next)
          | .broken here fault => (.item value (.broken here fault), none)
          | .more next =>
              let (rest, last) := readItem fuel depth next
              (.item value rest, last)
termination_by structural fuel

/-- The members of an object whose brace has been read. -/
def readMembers (fuel depth : Nat) (cursor : Cursor) : Reading Members :=
  match fuel with
  | 0 => (.broken cursor.here (cursor.fault .endInObject), none)
  | fuel + 1 =>
      let cursor := cursor.skipSpace
      match cursor.rest with
      | [] => (.broken cursor.here (cursor.fault .endInObject), none)
      | '\x7d' :: rest =>
          let stop := cursor.here.after '\x7d'
          (.close stop, some ⟨rest, stop⟩)
      | '"' :: rest => readMember fuel depth cursor.here ⟨rest, cursor.here.after '"'⟩
      | _ => (.broken cursor.here (cursor.peekFault .keyNotString), none)
termination_by structural fuel

/-- A member whose opening quote has been read, and all that follows it. -/
def readMember (fuel depth : Nat) (before : Position) (cursor : Cursor) : Reading Members :=
  match fuel with
  | 0 => (.broken cursor.here (cursor.fault .endInObject), none)
  | fuel + 1 =>
      match scanString cursor with
      | .error fault => (.broken before fault, none)
      | .ok (name, next) =>
          let keyStop := next.here
          match afterKey next with
          | .bare here fault => (.bare before name keyStop here fault, none)
          | .colon colon next =>
              match readTree fuel depth next with
              | (value, none) =>
                  (.member before name keyStop colon value
                    (.broken next.here (next.fault .endInObject)), none)
              | (value, some next) =>
                  let (rest, last) : Reading Members :=
                    match afterMember next with
                    | .close next => (.close next.here, some next)
                    | .broken here fault => (.broken here fault, none)
                    | .key before next => readMember fuel depth before next
                  (.member before name keyStop colon value rest, last)
termination_by structural fuel

end

/-- The tree of the first value of a text; what follows that value is not read. -/
def Tree.ofText (text : String) : Tree :=
  (readTree (3 * text.length + 3) depthLimit (.start text)).1

mutual

/-- The first fault of a tree in text order, and the path to it. -/
def Tree.fault? : Tree → Option (Path × Fault)
  | .scalar .. => none
  | .broken _ fault => some ([], fault)
  | .array _ items => items.fault? 0
  | .object _ members => members.fault?
termination_by structural tree => tree

def Items.fault? (index : Nat) : Items → Option (Path × Fault)
  | .close _ => none
  | .broken _ fault => some ([], fault)
  | .item value rest =>
      match value.fault? with
      | some (path, fault) => some (.item index :: path, fault)
      | none => rest.fault? (index + 1)
termination_by structural items => items

def Members.fault? : Members → Option (Path × Fault)
  | .close _ => none
  | .bare _ _ _ _ fault => some ([], fault)
  | .broken _ fault =>
      some (if fault.cause = .nestedTooDeeply then [] else [.unknown], fault)
  | .member _ name _ _ value rest =>
      match value.fault? with
      | some (path, fault) => some (.member name :: path, fault)
      | none => rest.fault?
termination_by structural members => members

end

def Scalar.value : Scalar → Value
  | .null => .null
  | .bool value => .bool value
  | .number value => .number value
  | .string value => .string value

mutual

/-- The value of a tree without faults. -/
def Tree.value : Tree → Value
  | .scalar _ _ value => value.value
  | .broken .. => .null
  | .array _ items => .array items.values
  | .object _ members => .object (Keyed.settle members.values)
termination_by structural tree => tree

def Items.values : Items → List Value
  | .close _ | .broken .. => []
  | .item value rest => value.value :: rest.values
termination_by structural items => items

/-- All members as they are written, repeated names included. -/
def Members.values : Members → List (String × Value)
  | .close _ | .bare .. | .broken .. => []
  | .member _ name _ _ value rest => (name, value.value) :: rest.values
termination_by structural members => members

end

/-- The value of the first value of a text, or its first fault with the path to it. -/
def Value.ofText (text : String) : Except (Path × Fault) Value :=
  let tree := Tree.ofText text
  match tree.fault? with
  | some found => .error found
  | none => .ok tree.value

end ToolGrammar.Json
