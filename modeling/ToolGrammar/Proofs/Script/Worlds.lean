import ToolGrammar.Proofs.Storage.Persistence
import ToolGrammar.Script

/-!
Worlds that serve requests. What a world answers is its own affair: reading may fail at any time and
writing may be refused. Little is known of all worlds, and this is all that is needed: looking
changes nothing, and what is told to be written has been written.
-/
namespace ToolGrammar

open Storage FileSystem

/-- A request that makes no file, changes none, and prints nothing. -/
def Request.IsSilent : Request → Prop
  | .read _ | .isFile _ | .isDirectory _ | .list _ | .note _ => True
  | .makeDirectories _ | .write .. | .print _ => False

theorem Request.IsSilent.serve {request : Request} (silent : request.IsSilent) (machine : Machine) :
    (machine.serve request).2.files = machine.files ∧
      (machine.serve request).2.printed = machine.printed := by
  cases request with
  | read | isFile | isDirectory | list | note => exact ⟨rfl, rfl⟩
  | makeDirectories | write | print => exact silent.elim

namespace Script

theorem serve_makeDirectories (machine : Machine) (path : String) :
    machine.serve (.makeDirectories path) =
      ((machine.files.makeDirectories path).1,
        { machine with files := (machine.files.makeDirectories path).2 }) :=
  rfl

theorem serve_write_ok {machine : Machine} {path text : String} {after : FileSystem}
    (written : machine.files.write path text = .ok after) :
    machine.serve (.write path text) = (.ok (), { machine with files := after }) := by
  simp [Machine.serve, written]

theorem serve_write_error {machine : Machine} {path text : String} {reason : AccessError}
    (refused : machine.files.write path text = .error reason) :
    machine.serve (.write path text) = (.error reason, machine) := by
  simp [Machine.serve, refused]

end Script

/-- A request and what was answered. -/
structure Exchange where
  request : Request
  answer : request.Answer

structure World where
  Serves : Machine → Exchange → Machine → Prop
  silent : ∀ {machine exchange after}, Serves machine exchange after →
    exchange.request.IsSilent → after.files = machine.files ∧ after.printed = machine.printed
  /-- Directories may be made, whatever is answered. -/
  makes : ∀ {machine path answer after}, Serves machine ⟨.makeDirectories path, answer⟩ after →
    Changes (fun _ => False) machine.files after.files
  writes : ∀ {machine path text after}, Serves machine ⟨.write path text, .ok ()⟩ after →
    machine.files.write path text = .ok after.files
  /-- The file may have been cut off, but no other one has changed. -/
  refuses : ∀ {machine path text reason after},
    Serves machine ⟨.write path text, .error reason⟩ after →
      Changes (fun location => machine.files.target path = .ok (.entry location false))
        machine.files after.files

/-- What is read is what is there. -/
def World.Truthful (world : World) : Prop :=
  ∀ {machine path answer after}, world.Serves machine ⟨.read path, answer⟩ after →
    answer = machine.files.read path

/-- The world that serves each request as the machine does. -/
def World.faithful : World where
  Serves machine exchange after := machine.serve exchange.request = (exchange.answer, after)
  silent := by
    intro machine exchange after serves silent
    simpa only [serves] using silent.serve machine
  makes := by
    intro machine path answer after serves
    obtain rfl := (congrArg (·.2) serves).symm
    exact changes_makeDirectories machine.files path
  writes := by
    intro machine path text after serves
    cases written : machine.files.write path text with
    | error reason => simp [Script.serve_write_error written] at serves
    | ok files =>
        rw [Script.serve_write_ok written] at serves
        obtain rfl := (congrArg (·.2) serves).symm
        rfl
  refuses := by
    intro machine path text reason after serves
    cases written : machine.files.write path text with
    | ok files => simp [Script.serve_write_ok written] at serves
    | error reason =>
        rw [Script.serve_write_error written] at serves
        obtain rfl : machine = after := congrArg (·.2) serves
        exact .refl _ _

theorem World.faithful_serves {machine after : Machine} {request : Request}
    {answer : request.Answer} : World.faithful.Serves machine ⟨request, answer⟩ after ↔
      answer = (machine.serve request).1 ∧ after = (machine.serve request).2 := by
  show machine.serve request = (answer, after) ↔ _
  rw [Prod.ext_iff]
  exact and_congr eq_comm eq_comm

theorem World.truthful_faithful : World.faithful.Truthful :=
  fun serves => (faithful_serves.mp serves).1

/-- Nothing has been asked but what is silent, so nothing is there that was not there before. -/
structure Traceless (machine : Machine) (exchanges : List Exchange) (after : Machine) : Prop where
  silent : ∀ exchange ∈ exchanges, exchange.request.IsSilent
  files : after.files = machine.files
  printed : after.printed = machine.printed

theorem Traceless.nil (machine : Machine) : Traceless machine [] machine :=
  ⟨nofun, rfl, rfl⟩

theorem Traceless.append {machine between after : Machine} {first later : List Exchange}
    (before : Traceless machine first between) (rest : Traceless between later after) :
    Traceless machine (first ++ later) after :=
  ⟨fun exchange member => (List.mem_append.mp member).elim (before.silent exchange)
    (rest.silent exchange), rest.files.trans before.files, rest.printed.trans before.printed⟩

theorem World.Serves.traceless {world : World} {machine after : Machine} {exchange : Exchange}
    (serves : world.Serves machine exchange after) (silent : exchange.request.IsSilent) :
    Traceless machine [exchange] after := by
  obtain ⟨files, printed⟩ := world.silent serves silent
  exact ⟨by simpa using silent, files, printed⟩

namespace Script

variable {α β : Type} {world : World}

/-- The script comes to this end from this machine, by these exchanges. -/
inductive Runs (world : World) : Script α → Machine → List Exchange → α → Machine → Prop
  | done (value : α) (machine : Machine) : Runs world (.done value) machine [] value machine
  | ask {request : Request} {next : request.Answer → Script α} {machine between after : Machine}
      {answer : request.Answer} {exchanges : List Exchange} {value : α}
      (serves : world.Serves machine ⟨request, answer⟩ between)
      (rest : Runs world (next answer) between exchanges value after) :
      Runs world (.ask request next) machine (⟨request, answer⟩ :: exchanges) value after

theorem Runs.of_done {value result : α} {machine after : Machine} {exchanges : List Exchange}
    (runs : Runs world (.done value) machine exchanges result after) :
    exchanges = [] ∧ result = value ∧ after = machine := by
  cases runs
  exact ⟨rfl, rfl, rfl⟩

/-- The run of a script is one of its runs where requests are served as the machine does. -/
theorem exists_runs (machine : Machine) (script : Script α) :
    ∃ exchanges, Runs .faithful script machine exchanges (script.run machine).1
      (script.run machine).2 := by
  induction script generalizing machine with
  | done value => exact ⟨[], .done value machine⟩
  | ask request next ih =>
      obtain ⟨exchanges, rest⟩ := ih (machine.serve request).1 (machine.serve request).2
      exact ⟨_, .ask (World.faithful_serves.mpr ⟨rfl, rfl⟩) rest⟩

theorem Runs.split {script : Script α} {next : α → Script β} {machine after : Machine}
    {exchanges : List Exchange} {result : β}
    (runs : Runs world (script >>= next) machine exchanges result after) :
    ∃ first value between later, exchanges = first ++ later ∧
      Runs world script machine first value between ∧
      Runs world (next value) between later result after := by
  induction script generalizing machine exchanges with
  | done value => exact ⟨[], value, machine, exchanges, rfl, .done value machine, runs⟩
  | ask request asks ih =>
      cases runs with
      | ask serves rest =>
          obtain ⟨first, value, between, later, rfl, own, others⟩ := ih _ rest
          exact ⟨_ :: first, value, between, later, rfl, .ask serves own, others⟩

/-- Work goes on where it has not failed. -/
theorem Runs.split_work {ε : Type} {work : ExceptT ε Script α} {next : α → ExceptT ε Script β}
    {machine after : Machine} {exchanges : List Exchange} {result : Except ε β}
    (runs : Runs world (work >>= next).run machine exchanges result after) :
    (∃ failure, result = .error failure ∧
      Runs world work.run machine exchanges (.error failure) after) ∨
    ∃ first value between later, exchanges = first ++ later ∧
      Runs world work.run machine first (.ok value) between ∧
      Runs world (next value).run between later result after := by
  rw [ExceptT.run_bind] at runs
  obtain ⟨first, outcome, between, later, rfl, own, others⟩ := runs.split
  cases outcome with
  | error failure =>
      cases others
      exact .inl ⟨failure, rfl, by simpa using own⟩
  | ok value => exact .inr ⟨first, value, between, later, rfl, own, others⟩

end Script

end ToolGrammar
