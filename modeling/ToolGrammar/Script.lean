import ToolGrammar.Journal.Event
import ToolGrammar.Storage.FileSystem

/-!
Scripts: work described by the requests that it makes, each followed by what the script does with
the answer. Nothing else of the world reaches a script, so its outcome on a machine is a function of
the machine, and several scripts can be run request by request in any order.
-/
namespace ToolGrammar

open Storage (AccessError FileSystem)
open Journal (Event)

inductive Request where
  | read (path : String)
  | isFile (path : String)
  | isDirectory (path : String)
  | list (path : String)
  | makeDirectories (path : String)
  | write (path text : String)
  | print (text : String)
  | note (event : Event)
  deriving Repr

/-- What the answer to a request tells. -/
abbrev Request.Answer : Request → Type
  | .read _ => Except AccessError String
  | .isFile _ | .isDirectory _ => Bool
  | .list _ => Except AccessError (List String)
  | .makeDirectories _ | .write .. => Except AccessError Unit
  | .print _ | .note _ => Unit

inductive Script (α : Type) where
  | done (value : α)
  | ask (request : Request) (next : request.Answer → Script α)

namespace Script

variable {α β : Type}

protected def bind : Script α → (α → Script β) → Script β
  | .done value, after => after value
  | .ask request next, after => .ask request fun answer => (next answer).bind after

instance : Monad Script where
  pure := .done
  bind := Script.bind

@[simp]
theorem pure_bind (value : α) (after : α → Script β) : (pure value >>= after) = after value :=
  rfl

@[simp]
theorem ask_bind (request : Request) (next : request.Answer → Script α) (after : α → Script β) :
    (ask request next >>= after) = ask request fun answer => next answer >>= after :=
  rfl

theorem bind_done (script : Script α) : script >>= Script.done = script := by
  induction script with
  | done value => rfl
  | ask request next ih => rw [ask_bind]; exact congrArg _ (funext ih)

theorem bind_assoc {γ : Type} (script : Script α) (first : α → Script β) (second : β → Script γ) :
    script >>= first >>= second = script >>= fun value => first value >>= second := by
  induction script with
  | done value => rfl
  | ask request next ih => rw [ask_bind, ask_bind, ask_bind]; exact congrArg _ (funext ih)

instance : LawfulMonad Script :=
  LawfulMonad.mk' Script bind_done (fun _ _ => rfl) bind_assoc

theorem done_bind (value : α) (after : α → Script β) : (done value >>= after) = after value :=
  rfl

theorem lift_run {ε : Type} (script : Script α) :
    (liftM script : ExceptT ε Script α).run = script >>= fun value => .done (.ok value) :=
  rfl

theorem adapt_run {ε ε' : Type} (tell : ε → ε') (work : ExceptT ε Script α) :
    (ExceptT.adapt tell work).run = work.run >>= fun outcome => .done (outcome.mapError tell) :=
  rfl

def request (request : Request) : Script request.Answer :=
  .ask request .done

def noteAll : List Event → Script Unit
  | [] => return ()
  | event :: rest => do
      request (.note event)
      noteAll rest

end Script

/-- A file system, what has been printed, and what has been noted, the first event first. -/
structure Machine where
  files : FileSystem
  printed : String
  events : List Event

namespace Machine

def serve (machine : Machine) : (request : Request) → request.Answer × Machine
  | .read path => (machine.files.read path, machine)
  | .isFile path =>
      (match machine.files.look path with
        | .ok (_, .file _) => true
        | _ => false, machine)
  | .isDirectory path => (machine.files.isDirectory path, machine)
  | .list path => (machine.files.list path, machine)
  | .makeDirectories path =>
      let (answer, files) := machine.files.makeDirectories path
      (answer, { machine with files })
  | .write path text =>
      match machine.files.write path text with
      | .ok files => (.ok (), { machine with files })
      | .error reason => (.error reason, machine)
  | .print text => ((), { machine with printed := machine.printed ++ text })
  | .note event => ((), { machine with events := machine.events ++ [event] })

end Machine

/-- The value of a script run from start to end, and the machine that it leaves. -/
def Script.run {α : Type} (machine : Machine) : Script α → α × Machine
  | .done value => (value, machine)
  | .ask request next =>
      let (answer, machine) := machine.serve request
      (next answer).run machine

/-- A script that goes on from another one starts on the machine that the other leaves. -/
theorem Script.run_bind {α β : Type} (machine : Machine) (script : Script α)
    (after : α → Script β) :
    (script >>= after).run machine =
      (after (script.run machine).1).run (script.run machine).2 := by
  induction script generalizing machine with
  | done value => rfl
  | ask request next ih => exact ih _ _

end ToolGrammar
