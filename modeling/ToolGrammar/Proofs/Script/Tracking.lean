import ToolGrammar.Proofs.Script.Interleaving
import ToolGrammar.Proofs.Storage.Sharing

namespace ToolGrammar.Script

open Storage Storage.FileSystem

variable {ι ε α : Type} {layout : Layout ι} {i : ι}

/-- What a tidy script may ask for. -/
def Keeps (layout : Layout ι) (i : ι) : Request → Prop
  | .read path => layout.Input i path
  | .makeDirectories path => layout.Way path
  | .write path _ => layout.Output i path
  | .note _ => True
  | _ => False

/-- The script stays out of the way of the others. Whether the directory of its places is known to
be there tells whether it may write. -/
inductive Tidy (layout : Layout ι) (i : ι) : Bool → Script (Except ε α) → Prop
  | done (ready : Bool) (outcome : Except ε α) : Tidy layout i ready (.done outcome)
  | read {ready : Bool} {path : String} {next : Except AccessError String → Script (Except ε α)}
      (input : layout.Input i path) (ok : ∀ text, Tidy layout i ready (next (.ok text)))
      (error : ∀ reason, ∃ failure, next (.error reason) = .done (.error failure)) :
      Tidy layout i ready (.ask (.read path) next)
  | make {ready : Bool} {path : String} {next : Except AccessError Unit → Script (Except ε α)}
      (way : layout.Way path) (ok : Tidy layout i true (next (.ok ())))
      (error : ∀ reason, ∃ failure, next (.error reason) = .done (.error failure)) :
      Tidy layout i ready (.ask (.makeDirectories path) next)
  | write {path text : String} {next : Except AccessError Unit → Script (Except ε α)}
      (output : layout.Output i path) (ok : Tidy layout i true (next (.ok ())))
      (error : ∀ reason, ∃ failure, next (.error reason) = .done (.error failure)) :
      Tidy layout i true (.ask (.write path text) next)
  | note {ready : Bool} {event : Journal.Event} {next : Unit → Script (Except ε α)}
      (rest : Tidy layout i ready (next ())) : Tidy layout i ready (.ask (.note event) next)

theorem Tidy.keeps {ready : Bool} {request : Request} {next : request.Answer → Script (Except ε α)}
    (tidy : Tidy layout i ready (.ask request next)) : Keeps layout i request := by
  cases tidy with
  | read input => exact input
  | make way => exact way
  | write output => exact output
  | note => trivial

/-- What is left of a script is what is left of it alone, or both have failed. -/
inductive Follows (layout : Layout ι) (i : ι) (files : FileSystem) :
    Script (Except ε α) → Script (Except ε α) → Prop
  | same {ready : Bool} {script : Script (Except ε α)} (tidy : Tidy layout i ready script)
      (there : ready = true → files.node? (layout.here ++ layout.names) = some .directory) :
      Follows layout i files script script
  | failed (failure other : ε) :
      Follows layout i files (.done (.error failure)) (.done (.error other))

theorem ok_iff_isOk {result : Except ε Unit} : result = .ok () ↔ result.isOk = true := by
  cases result <;> simp [Except.isOk, Except.toBool]

/-- Two answers that agree in whether they are refusals, and in what else they tell. -/
theorem Follows.answered {β : Type} {files : FileSystem} {answer own : Except AccessError β}
    {next : Except AccessError β → Script (Except ε α)}
    (agree : ∀ value, answer = .ok value ↔ own = .ok value)
    (ok : ∀ value, own = .ok value → Follows layout i files (next (.ok value)) (next (.ok value)))
    (error : ∀ reason, ∃ failure, next (.error reason) = .done (.error failure)) :
    Follows layout i files (next answer) (next own) := by
  cases own with
  | ok value =>
      rw [(agree value).mpr rfl]
      exact ok value rfl
  | error reason =>
      obtain ⟨other, refused⟩ := error_of_not_ok fun value found => nomatch (agree value).mp found
      obtain ⟨failure, ends⟩ := error other
      obtain ⟨ownFailure, ownEnds⟩ := error reason
      rw [refused, ends, ownEnds]
      exact .failed failure ownFailure

/-- Scripts on one machine, beside each of them alone on a machine of its own. -/
structure Tracks (layout : Layout ι) (machine : Machine) (scripts : ι → Script (Except ε α))
    (machines : ι → Machine) (alone : ι → Script (Except ε α)) : Prop where
  shares : layout.Shares (fun i => (machines i).files) machine.files
  follows : ∀ i, Follows layout i (machines i).files (scripts i) (alone i)

variable [DecidableEq ι] {machine after ownAfter : Machine} {machines : ι → Machine}
  {scripts alone : ι → Script (Except ε α)} {script ownScript : Script (Except ε α)}

theorem Tracks.update (tracks : Tracks layout machine scripts machines alone)
    (shares : layout.Shares (Function.update (fun i => (machines i).files) i ownAfter.files)
      after.files)
    (follows : Follows layout i ownAfter.files script ownScript) :
    Tracks layout after (Function.update scripts i script) (Function.update machines i ownAfter)
      (Function.update alone i ownScript) := by
  refine ⟨?_, fun j => ?_⟩
  · rwa [show (fun j => (Function.update machines i ownAfter j).files) =
      Function.update (fun i => (machines i).files) i ownAfter.files from
      funext fun j => Function.apply_update (fun _ => Machine.files) machines i ownAfter j]
  · by_cases same : j = i
    · subst same
      simpa only [Function.update_self] using follows
    · simpa only [Function.update_of_ne same] using tracks.follows j

/-- A step on the shared machine is a step of the script alone. -/
theorem Tracks.step (tracks : Tracks layout machine scripts machines alone) {request : Request}
    {next : request.Answer → Script (Except ε α)} (asks : scripts i = .ask request next) :
    Keeps layout i request ∧ ∃ ownAfter ownScript,
      ownScript.run ownAfter = (alone i).run (machines i) ∧
      Tracks layout (machine.serve request).2
        (Function.update scripts i (next (machine.serve request).1))
        (Function.update machines i ownAfter) (Function.update alone i ownScript) := by
  have follows := tracks.follows i
  rw [asks] at follows
  generalize begins : alone i = own at follows
  cases follows with
  | same tidy there =>
      refine ⟨tidy.keeps, ((machines i).serve request).2, next ((machines i).serve request).1, rfl,
        ?_⟩
      have still : layout.Shares
          (Function.update (fun j => (machines j).files) i (machines i).files) machine.files := by
        simpa only [Function.update_eq_self] using tracks.shares
      cases tidy with
      | note rest => exact tracks.update still (.same rest there)
      | read input ok error =>
          exact tracks.update still <| .answered (fun text => tracks.shares.read input)
            (fun text _ => .same (ok text) there) error
      | @make _ path _ way ok error =>
          rcases way with makes | refuses
          · have made := makes (machines i).files (tracks.shares.each i).sound
              (tracks.shares.each i).current
            obtain ⟨agree, shares⟩ := tracks.shares.make made
              (makes machine.files tracks.shares.all.sound tracks.shares.all.current)
            refine tracks.update shares (.answered (fun _ => ?_) (fun _ answered => ?_) error)
            · exact ok_iff_isOk.trans (agree.symm.trans ok_iff_isOk.symm)
            · exact .same ok fun _ => made.directory (made.answer.mp (ok_iff_isOk.mp answered))
          · obtain ⟨reason, refused⟩ := refuses machine.files
            obtain ⟨ownReason, ownRefused⟩ := refuses (machines i).files
            obtain ⟨failure, ends⟩ := error reason
            obtain ⟨ownFailure, ownEnds⟩ := error ownReason
            rw [serve_makeDirectories, serve_makeDirectories, refused, ownRefused, ends, ownEnds]
            exact tracks.update still (.failed failure ownFailure)
      | write output ok error =>
          rcases tracks.shares.write output (there rfl) with
            ⟨⟨ownReason, ownRefused⟩, reason, refused⟩ |
              ⟨after, sharedAfter, written, sharedWritten, shares, stays⟩
          · obtain ⟨failure, ends⟩ := error reason
            obtain ⟨ownFailure, ownEnds⟩ := error ownReason
            rw [serve_write_error refused, serve_write_error ownRefused, ends, ownEnds]
            exact tracks.update still (.failed failure ownFailure)
          · rw [serve_write_ok written, serve_write_ok sharedWritten]
            exact tracks.update shares (.same ok fun _ => stays)

/-- So is a whole run: at every moment each script is where it would be alone. -/
theorem Tracks.run {trace : List (ι × Exchange)} {final : Machine} {left : ι → Script (Except ε α)}
    (steps : Interleaved .faithful machine scripts trace final left)
    (tracks : Tracks layout machine scripts machines alone) :
    (∀ i exchange, (i, exchange) ∈ trace → Keeps layout i exchange.request) ∧ ∃ machines' alone',
      (∀ i, (alone' i).run (machines' i) = (alone i).run (machines i)) ∧
      Tracks layout final left machines' alone' := by
  induction steps generalizing machines alone with
  | refl => exact ⟨nofun, machines, alone, fun _ => rfl, tracks⟩
  | @step _ _ _ _ _ _ i _ _ _ asks serves _ ih =>
      obtain ⟨keeps, ownAfter, ownScript, same, further⟩ := tracks.step asks
      obtain ⟨rfl, rfl⟩ := World.faithful_serves.mp serves
      obtain ⟨later, machines', alone', sames, ends⟩ := ih further
      refine ⟨fun j exchange member => ?_, machines', alone', fun j => (sames j).trans ?_, ends⟩
      · rcases List.mem_cons.mp member with first | member
        · cases first
          exact keeps
        · exact later j exchange member
      · by_cases mine : j = i
        · subst mine
          simpa only [Function.update_self] using same
        · simp only [Function.update_of_ne mine]

/-- Tidy scripts that run to their ends on one machine, their steps in any order. -/
theorem Interleaved.shares {trace : List (ι × Exchange)} {final : Machine}
    {outcomes : ι → Except ε α}
    (steps : Interleaved .faithful machine scripts trace final fun i => .done (outcomes i))
    (first : machine.files = layout.first)
    (tidy : ∀ i, ∃ ready, Tidy layout i ready (scripts i) ∧
      (ready = true → layout.first.node? (layout.here ++ layout.names) = some .directory)) :
    (∀ i exchange, (i, exchange) ∈ trace → Keeps layout i exchange.request) ∧
      layout.Shares (fun i => ((scripts i).run machine).2.files) final.files ∧
      ∀ i, (outcomes i).isOk = ((scripts i).run machine).1.isOk := by
  have begins : Tracks layout machine scripts (fun _ => machine) scripts :=
    ⟨by simpa only [first] using Layout.Shares.start layout, fun i =>
      let ⟨_, tidy, there⟩ := tidy i
      .same tidy (by simpa only [first] using there)⟩
  obtain ⟨keeps, machines, alone, same, ends⟩ := Tracks.run steps begins
  have own (i : ι) : machines i = ((scripts i).run machine).2 ∧
      (outcomes i).isOk = ((scripts i).run machine).1.isOk := by
    have follows := ends.follows i
    have same := same i
    generalize alone i = script, outcomes i = outcome at follows same
    cases follows <;> rw [← same] <;> exact ⟨rfl, rfl⟩
  exact ⟨keeps, by simpa only [fun i => (own i).1] using ends.shares, fun i => (own i).2⟩

end ToolGrammar.Script
