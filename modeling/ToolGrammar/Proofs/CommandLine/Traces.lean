import ToolGrammar.Proofs.CommandLine.Fates
import ToolGrammar.Proofs.CommandLine.Stages

namespace ToolGrammar.CommandLine

open Storage Script

/-- How a batch ends: without a trace where it fails before its inputs, or after all of them. -/
inductive Concludes (world : World) (search : Glob.Pattern → Glob.Search (List String))
    (load : Loader) (inputs : List String) (primitives : Option String) (directory : String)
    (machine : Machine) : List Exchange → Except RunError Unit → Machine → Prop
  | unresolved {exchanges : List Exchange} {failure : RunError} {after : Machine}
      (fails : Runs world (allPaths search inputs).run machine exchanges (.error failure) after)
      (traceless : Traceless machine exchanges after) :
      Concludes world search load inputs primitives directory machine exchanges (.error failure)
        after
  | unnamed {exchanges : List Exchange} {paths : List String} {failure : RunError} {after : Machine}
      (resolves : Runs world (allPaths search inputs).run machine exchanges (.ok paths) after)
      (refused : checkNames [] paths = .error failure)
      (traceless : Traceless machine exchanges after) :
      Concludes world search load inputs primitives directory machine exchanges (.error failure)
        after
  | unloaded {resolving loading : List Exchange} {paths : List String} {failure : RunError}
      {resolved after : Machine}
      (resolves : Runs world (allPaths search inputs).run machine resolving (.ok paths) resolved)
      (accepted : checkNames [] paths = .ok ())
      (fails : Runs world (loadPrimitives primitives).run resolved loading (.error failure) after)
      (traceless : Traceless machine (resolving ++ loading) after) :
      Concludes world search load inputs primitives directory machine (resolving ++ loading)
        (.error failure) after
  | late {resolving loading concluding : List Exchange} {paths : List String} {fragment : String}
      {resolved loaded final after : Machine} {trace : List (Fin paths.length × Exchange)}
      {outcomes : Fin paths.length → Except RunError Unit} {result : Except RunError Unit}
      (resolves : Runs world (allPaths search inputs).run machine resolving (.ok paths) resolved)
      (accepted : checkNames [] paths = .ok ())
      (loads : Runs world (loadPrimitives primitives).run resolved loading (.ok fragment) loaded)
      (before : Traceless machine (resolving ++ loading) loaded)
      (steps : Interleaved world loaded
        (fun i : Fin paths.length => (compileInput load fragment directory (paths.get i)).run)
        trace final fun i => .done (outcomes i))
      (fates : ∀ i, Fares world load fragment directory (paths.get i) machine.files after.files
        (exchangesOf trace i) (outcomes i))
      (later : Traceless final concluding after)
      (reported : result.isOk = true ↔ ∀ i, (outcomes i).isOk = true) :
      Concludes world search load inputs primitives directory machine
        (resolving ++ (loading ++ (trace.map (·.2) ++ concluding))) result after

theorem ends_reported (directory : String) (total : Nat) (failures : List RunError) :
    Ends (fun result => result.isOk = true ↔ failures = [])
      (conclude directory total failures).run := by
  rw [conclude, ExceptT.run_bind, lift_run, Script.bind_assoc]
  refine (ends_true _).bind fun _ _ => ?_
  rw [done_bind]
  cases failures with
  | nil => exact .ask fun _ => .done (iff_of_true rfl rfl)
  | cons => exact .done (iff_of_false nofun nofun)

theorem filterMap_failure?_eq_nil {ε α : Type} {n : Nat} {outcomes : Fin n → Except ε α} :
    (List.ofFn outcomes).filterMap failure? = [] ↔ ∀ i, (outcomes i).isOk = true := by
  rw [List.filterMap_eq_nil_iff, List.forall_mem_ofFn_iff]
  refine forall_congr' fun i => ?_
  cases outcomes i <;> simp [failure?, Except.isOk, Except.toBool]

variable {world : World} {search : Glob.Pattern → Glob.Search (List String)} {load : Loader}
  {inputs paths : List String} {primitives : Option String} {fragment directory : String}
  {machine final after : Machine} {exchanges : List Exchange} {result : Except RunError Unit}

theorem inTurn_of_runs {failures : List RunError}
    (runs : Runs world (compileInputs load fragment directory paths) machine exchanges failures
      final) :
    ∃ trace, ∃ outcomes : Fin paths.length → Except RunError Unit,
      Interleaved world machine
        (fun i => (compileInput load fragment directory (paths.get i)).run) trace final
        (fun i => .done (outcomes i)) ∧
      trace.map (·.2) = exchanges ∧ failures = (List.ofFn outcomes).filterMap failure? := by
  rw [compileInputs_eq] at runs
  obtain ⟨first, values, between, later, rfl, own, others⟩ := runs.split
  cases others
  obtain ⟨trace, outcomes, steps, same, rfl⟩ := Interleaved.inTurn own
  exact ⟨trace, outcomes, steps, by rw [same, List.append_nil], rfl⟩

/-- A batch tells of a failure just when one of its inputs has failed, and leaves all files as the
inputs leave them. -/
theorem reported_of_runs {outcomes : Fin paths.length → Except RunError Unit}
    (runs : Runs world (conclude directory paths.length
      ((List.ofFn outcomes).filterMap failure?)).run final exchanges result after) :
    Traceless final exchanges after ∧ (result.isOk = true ↔ ∀ i, (outcomes i).isOk = true) :=
  ⟨(silent_conclude _ _ _).traceless runs,
    ((ends_reported _ _ _).value runs).trans filterMap_failure?_eq_nil⟩

theorem concludes_of_runs (silent : ∀ pattern, Silent (search pattern).run)
    (runs : Runs world (runBatch search load inputs primitives directory).run machine exchanges
      result after) :
    Concludes world search load inputs primitives directory machine exchanges result after := by
  unfold runBatch at runs
  obtain ⟨failure, rfl, fails⟩ | ⟨resolving, paths, resolved, _, rfl, resolves, runs⟩ :=
    runs.split_work
  · exact .unresolved fails ((silent_allPaths silent inputs).traceless fails)
  have before := (silent_allPaths silent inputs).traceless resolves
  cases accepted : checkNames [] paths with
  | error failure =>
      rw [accepted] at runs
      obtain ⟨rfl, rfl, rfl⟩ := runs.of_done
      rw [List.append_nil]
      exact .unnamed resolves accepted before
  | ok =>
      rw [accepted] at runs
      change Runs world (loadPrimitives primitives >>= _).run _ _ _ _ at runs
      obtain ⟨failure, rfl, fails⟩ | ⟨loading, fragment, loaded, _, rfl, loads, runs⟩ :=
        runs.split_work
      · exact .unloaded resolves accepted fails
          (before.append ((silent_loadPrimitives primitives).traceless fails))
      have before := before.append ((silent_loadPrimitives primitives).traceless loads)
      rw [ExceptT.run_bind, lift_run, Script.bind_assoc] at runs
      obtain ⟨_, failures, final, concluding, rfl, compiles, runs⟩ := runs.split
      obtain ⟨trace, outcomes, steps, rfl, rfl⟩ := inTurn_of_runs compiles
      obtain ⟨later, reported⟩ := reported_of_runs runs
      refine .late resolves accepted loads before steps (fun i => ?_) later reported
      rw [← before.files, later.files]
      exact fares_of_interleaved accepted steps i

/-- A build of an input that cannot be compiled. -/
def emptyBuild : Invocation :=
  ⟨none, false, .build ⟨["out/b.json"], none, none⟩ none "out/b.gbnf" "out/b.txt"⟩

end ToolGrammar.CommandLine
