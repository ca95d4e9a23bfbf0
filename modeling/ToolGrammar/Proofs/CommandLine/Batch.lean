import ToolGrammar.Proofs.CommandLine.Inputs

namespace ToolGrammar.CommandLine

open Storage Storage.FileSystem
open Storage.PathText (stem? stemOf join Downward Entry)
open Script (Tidy Keeps Interleaved)

theorem fromUTF8?_toUTF8 (text : String) : String.fromUTF8? text.toUTF8 = some text := by
  rw [String.fromUTF8?, String.toUTF8_eq_toByteArray, dif_pos text.isValidUTF8]
  rfl

theorem read_of_look {files : FileSystem} {path text : String} {location : Location}
    (looked : files.look path = .ok (location, .file text.toUTF8)) : files.read path = .ok text :=
  read_eq_ok_iff_look.mpr ⟨location, _, looked, fromUTF8?_toUTF8 text⟩

/-- A script that ends with its first failure has come through everything if it has not failed. -/
theorem exists_of_run_bind {ε ε' α β : Type} {script : Script (Except ε α)}
    {next : Except ε α → Script (Except ε' β)} {machine after : Machine} {result : β}
    (ends : ∀ failure, ∃ told, next (.error failure) = .done (.error told))
    (ran : (script >>= next).run machine = (.ok result, after)) :
    ∃ value between, script.run machine = (.ok value, between) ∧
      (next (.ok value)).run between = (.ok result, after) := by
  rw [Script.run_bind] at ran
  rcases first : script.run machine with ⟨failure | value, between⟩
  · obtain ⟨told, ended⟩ := ends failure
    rw [first, ended] at ran
    simp [Script.run] at ran
  · rw [first] at ran
    exact ⟨value, between, rfl, ran⟩

/-- What a written document leaves: it is there, and nothing else of this input has changed. -/
structure Wrote {ι : Type} (places : Layout ι) (i : ι) (path text : String)
    (before after : FileSystem) : Prop where
  grows : places.Grows (places.own i) after
  names : PathText.NamesFile path
  file : after.node? (places.first.place path) = some (.file text.toUTF8)
  others : ∀ location, places.own i location → location ≠ places.first.place path →
    after.node? location = before.node? location

variable {ι : Type} {places : Layout ι} {i : ι} {path text parent : String}
  {machine after : Machine}

theorem Wrote.of_writeNoted (grows : places.Grows (places.own i) machine.files)
    (output : places.Output i path)
    (above : machine.files.node? (places.here ++ places.names) = some .directory)
    (ran : (writeNoted path text).run machine = (.ok (), after)) :
    Wrote places i path text machine.files after.files := by
  have proper : PathText.Proper path := by
    by_contra improper
    obtain ⟨reason, refused⟩ := write_of_improper machine.files text improper
    rw [writeNoted, Script.run, Script.serve_write_error refused] at ran
    simp [Script.run] at ran
  cases written : machine.files.write path text with
  | error reason =>
      rw [writeNoted, Script.run, Script.serve_write_error written] at ran
      simp [Script.run] at ran
  | ok files =>
      rw [writeNoted, Script.run, Script.serve_write_ok written] at ran
      obtain rfl : files = after.files := congrArg (·.2.files) ran
      obtain ⟨fits, free, put⟩ := (grows.write_eq_ok text _ output proper above).mp written
      obtain ⟨front, last, named, other, -⟩ := output.last
      obtain ⟨name, whole⟩ := places.below output.own
      have place : places.first.place path ≠ [] := by simp [whole]
      refine ⟨?_, ⟨proper, output.closed, fits, front, last, named, other⟩, ?_, ?_⟩
      · have own := output.own
        rw [put]
        rw [whole] at free own ⊢
        exact grows.put_file above free own _
      · rw [put, node?_put _ _ _ _ place, if_pos rfl]
      · intro location _ elsewhere
        rw [put, node?_put _ _ _ _ place, if_neg elsewhere]

theorem Wrote.of_writeDocument (grows : places.Grows (places.own i) machine.files)
    (output : places.Output i path) (found : PathText.parent? path = some parent)
    (here : parent = "" → machine.files.node? (places.here ++ places.names) = some .directory)
    (way : parent ≠ "" → places.Way parent)
    (ran : (writeDocument path text).run.run machine = (.ok (), after)) :
    Wrote places i path text machine.files after.files := by
  by_cases none : parent = ""
  · rw [writeDocument_of_no_parent (none ▸ found)] at ran
    exact .of_writeNoted grows output (here none) ran
  · rw [writeDocument_of_parent found none, Script.run, Script.serve_makeDirectories] at ran
    rcases way none with makes | refuses
    · have made := makes machine.files grows.sound grows.current
      have mine {front : List String} (within : front <+: places.names) :=
        places.not_own_of_prefix within i
      cases answered : (machine.files.makeDirectories parent).1 with
      | error reason =>
          rw [answered] at ran
          simp [Script.run] at ran
      | ok =>
          rw [answered] at ran
          have above := made.directory (made.answer.mp (by rw [answered]; rfl))
          have wrote := Wrote.of_writeNoted (grows.makes mine made) output above ran
          refine ⟨wrote.grows, wrote.names, wrote.file, fun location own elsewhere => ?_⟩
          rw [wrote.others location own elsewhere]
          refine made.kept location fun reached => ?_
          exact places.not_own_of_reaches ((grows.reaches location mine).mp reached) own
    · obtain ⟨reason, refused⟩ := refuses machine.files
      rw [refused] at ran
      simp [Script.run] at ran

variable {load : Loader} {primitives directory stem : String}

/-- Both documents can be read after they have been written. -/
theorem read_of_writeBoth {compilation : Compilation}
    (outputs : Outputs places i directory stem parent)
    (grows : places.Grows (places.own i) machine.files)
    (ran : (writeBoth compilation (join directory (stem ++ ".gbnf"))
      (join directory (stem ++ ".txt"))).run machine = (.ok (), after)) :
    after.files.read (join directory (stem ++ ".gbnf")) = .ok compilation.grammar ∧
      after.files.read (join directory (stem ++ ".txt")) = .ok compilation.documentation := by
  have free {files : FileSystem} (grows : places.Grows (places.own i) files)
      (none : parent = "") : files.node? (places.here ++ places.names) = some .directory := by
    rw [outputs.here none, List.append_nil]
    exact grows.directory (by simpa using places.not_own_of_prefix List.nil_prefix i) places.there
  have grammarOutput := outputs.output _ gbnf_mem_endings
  have documentationOutput := outputs.output _ txt_mem_endings
  rw [writeBoth] at ran
  obtain ⟨⟨⟩, between, first, ran⟩ := exists_of_run_bind (by exact fun _ => ⟨_, rfl⟩) ran
  obtain ⟨⟨⟩, final, second, ran⟩ := exists_of_run_bind (by exact fun _ => ⟨_, rfl⟩) ran
  obtain rfl : final = after := congrArg (·.2) ran
  have grammar := Wrote.of_writeDocument grows grammarOutput
    (outputs.parents _ gbnf_mem_endings) (free grows) outputs.way first
  have documentation := Wrote.of_writeDocument grammar.grows documentationOutput
    (outputs.parents _ txt_mem_endings) (free grammar.grows) outputs.way second
  rw [read_eq_ok documentation.grows.sound grammarOutput.downward,
    read_eq_ok documentation.grows.sound documentationOutput.downward,
    documentation.grows.place, documentation.grows.place]
  refine ⟨⟨grammar.names, _, ?_, fromUTF8?_toUTF8 _⟩, documentation.names, _,
    documentation.file, fromUTF8?_toUTF8 _⟩
  rw [documentation.others _ grammarOutput.own outputs.distinct, grammar.file]

/-- The documents of what an input's file alone compiles to can be read where they belong. -/
def Documented (load : Loader) (primitives directory path : String)
    (before after : FileSystem) : Prop :=
  ∃ source functions compilation stem, before.read path = .ok source ∧
    load path source = .ok functions ∧
    Compilation.compile functions primitives = .ok compilation ∧ stem? path = some stem ∧
    after.read (join directory (stem ++ ".gbnf")) = .ok compilation.grammar ∧
    after.read (join directory (stem ++ ".txt")) = .ok compilation.documentation

theorem files_noteAll (machine : Machine) (events : List Journal.Event) :
    ((Script.noteAll events).run machine).2.files = machine.files := by
  induction events generalizing machine with
  | nil => rfl
  | cons event rest ih => exact ih _

theorem documented_of_run (named : stem? path = some stem)
    (outputs : Outputs places i directory stem parent)
    (grows : places.Grows (places.own i) machine.files)
    (ran : (compileInput load primitives directory path).run.run machine = (.ok (), after)) :
    Documented load primitives directory path machine.files after.files := by
  rw [compileInput_run load primitives directory named, Script.run] at ran
  change Script.run machine _ = _ at ran
  cases read : machine.files.read path with
  | error reason =>
      rw [read] at ran
      simp [Script.run] at ran
  | ok source =>
      rw [read] at ran
      dsimp only at ran
      cases decoded : load path source with
      | error refused =>
          rw [decoded] at ran
          simp [Script.run] at ran
      | ok functions =>
          rw [decoded] at ran
          dsimp only at ran
          rw [Script.run_bind] at ran
          have before := files_noteAll machine (Journal.eventsOfAssembly functions)
          generalize ((Script.noteAll (Journal.eventsOfAssembly functions)).run machine).2 = noted
            at ran before
          cases compiled : Compilation.compile functions primitives with
          | error failed =>
              rw [compiled] at ran
              simp [Script.run] at ran
          | ok compilation =>
              rw [compiled] at ran
              dsimp only at ran
              obtain ⟨grammar, documentation⟩ := read_of_writeBoth outputs (before ▸ grows) ran
              exact ⟨source, functions, compilation, stem, read, decoded, compiled, named,
                grammar, documentation⟩

/-- What a failed result has failed with. -/
def failure? {ε α : Type} : Except ε α → Option ε
  | .ok _ => none
  | .error failure => some failure

variable {paths : List String}

theorem compileInputs_eq (load : Loader) (primitives directory : String)
    (paths : List String) :
    compileInputs load primitives directory paths =
      (paths.mapM fun path => (compileInput load primitives directory path).run) >>=
        fun outcomes => pure (outcomes.filterMap failure?) := by
  induction paths with
  | nil => rfl
  | cons path rest ih =>
      rw [compileInputs, ih, List.mapM_cons, Script.bind_assoc]
      refine bind_congr fun outcome => ?_
      rw [Script.bind_assoc, Script.bind_assoc]
      refine bind_congr fun outcomes => ?_
      cases outcome <;> rfl

theorem machine_compileInputs (load : Loader) (primitives directory : String)
    (paths : List String) (machine : Machine) :
    ((compileInputs load primitives directory paths).run machine).2 =
      ((paths.mapM fun path =>
        (compileInput load primitives directory path).run).run machine).2 := by
  rw [compileInputs_eq, Script.run_bind]
  rfl

/-- What an input comes to on the machine that the inputs before it leave. -/
def inTurn (load : Loader) (primitives directory : String) (paths : List String)
    (machine : Machine) (i : Fin paths.length) : Except RunError Unit :=
  ((compileInput load primitives directory (paths.get i)).run.run
    ((compileInputs load primitives directory (paths.take i)).run machine).2).1

/-- Inputs one after another are steps of all inputs in one order. -/
theorem exists_interleaved_inTurn (load : Loader) (primitives directory : String)
    (paths : List String) (machine : Machine) : ∃ trace,
      Interleaved .faithful machine
        (fun i : Fin paths.length => (compileInput load primitives directory (paths.get i)).run)
        trace ((compileInputs load primitives directory paths).run machine).2
        fun i => .done (inTurn load primitives directory paths machine i) := by
  obtain ⟨_, runs⟩ := Script.exists_runs machine
    (paths.mapM fun path => (compileInput load primitives directory path).run)
  obtain ⟨trace, outcomes, steps, -, same⟩ := Interleaved.inTurn runs
  rw [Script.run_mapM] at same
  obtain rfl := List.ofFn_injective same
  simp only [inTurn, machine_compileInputs]
  exact ⟨trace, steps⟩

/-- What the steps of all inputs come to, whatever their order. -/
structure Independent (load : Loader) (primitives directory : String) (paths : List String)
    (machine final : Machine) (trace : List (Fin paths.length × Exchange))
    (outcomes : Fin paths.length → Except RunError Unit) : Prop where
  /-- The files are those that the inputs leave one after another. -/
  files : ∀ location, final.files.node? location =
    ((compileInputs load primitives directory paths).run machine).2.files.node? location
  /-- The inputs that fail are those that fail one after another. -/
  failures : ∀ i, (outcomes i).isOk =
    (inTurn load primitives directory paths machine i).isOk
  /-- No two inputs write into one place. -/
  writes : ∀ i j path other text otherText answer otherAnswer,
    (i, ⟨.write path text, answer⟩) ∈ trace → (j, ⟨.write other otherText, otherAnswer⟩) ∈ trace →
    machine.files.place path = machine.files.place other → i = j
  /-- No input is read from a place that another one writes into. -/
  reads : ∀ i j path other text answer otherAnswer, (i, ⟨.read path, answer⟩) ∈ trace →
    (j, ⟨.write other text, otherAnswer⟩) ∈ trace →
    machine.files.place path = machine.files.place other → i = j
  /-- Every input fails or not as it does alone, and leaves the outputs that it leaves alone. -/
  alone : ∀ i, (outcomes i).isOk =
      ((compileInput load primitives directory (paths.get i)).run.run machine).1.isOk ∧
    ∀ stem ending, stem? (paths.get i) = some stem → ending ∈ endings →
      final.files.node? (machine.files.place (join directory (stem ++ ending))) =
        ((compileInput load primitives directory (paths.get i)).run.run machine).2.files.node?
          (machine.files.place (join directory (stem ++ ending)))
  /-- The outputs of an input that succeeds are the documents of its file alone. -/
  documents : ∀ i, (outcomes i).isOk = true →
    Documented load primitives directory (paths.get i) machine.files final.files

/-- A batch is independent of the order in which the steps of its inputs are taken. -/
theorem independent_of_interleaved {trace : List (Fin paths.length × Exchange)} {final : Machine}
    {outcomes : Fin paths.length → Except RunError Unit} (sound : machine.files.Sound)
    (accepted : checkNames [] paths = .ok ()) (downward : Downward directory)
    (downwards : ∀ path ∈ paths, Downward path)
    (steps : Interleaved .faithful machine
      (fun i : Fin paths.length => (compileInput load primitives directory (paths.get i)).run)
      trace final fun i => .done (outcomes i)) :
    Independent load primitives directory paths machine final trace outcomes := by
  let places := layout machine.files directory paths sound accepted
  have outputs (i : Fin paths.length) : ∃ stem parent, stem? (paths.get i) = some stem ∧
      Outputs places i directory stem parent := by
    obtain ⟨stem, named⟩ := (stems_distinct accepted).1 i
    obtain ⟨parent, outputs⟩ : ∃ parent, Outputs places i directory stem parent :=
      exists_outputs downward named
    exact ⟨stem, parent, named, outputs⟩
  have tidy (i : Fin paths.length) : ∃ ready,
      Tidy places i ready (compileInput load primitives directory (paths.get i)).run ∧
      (ready = true → places.first.node? (places.here ++ places.names) = some .directory) := by
    obtain ⟨stem, parent, named, outputs⟩ := outputs i
    refine ⟨_, tidy_compileInput load primitives named (input_of_path ?_) outputs,
      fun here => ?_⟩
    · exact downwards _ (List.getElem_mem _)
    · rw [outputs.here (of_decide_eq_true here), List.append_nil]
      exact places.there
  obtain ⟨keeps, shares, outcome⟩ := steps.shares rfl tidy
  obtain ⟨_, ordered⟩ := exists_interleaved_inTurn load primitives directory paths machine
  obtain ⟨-, orderedShares, orderedOutcome⟩ := ordered.shares rfl tidy
  refine ⟨shares.merges.unique orderedShares.merges, fun i =>
    (outcome i).trans (orderedOutcome i).symm, ?_, ?_, fun i => ⟨outcome i, ?_⟩, fun i ok => ?_⟩
  · intro i j path other text otherText answer otherAnswer first second same
    have own : places.own i (machine.files.place path) := (keeps i _ first).own
    have otherOwn : places.own j (machine.files.place other) := (keeps j _ second).own
    exact places.apart own (same ▸ otherOwn)
  · intro i j path other text answer otherAnswer first second same
    have otherOwn : places.own j (machine.files.place other) := (keeps j _ second).own
    exact ((keeps i _ first).mine j (same.symm ▸ otherOwn)).symm
  · intro stem ending named member
    exact shares.own (output_of_stem downward named member).own
  · rw [outcome i] at ok
    obtain ⟨stem, parent, named, outputs⟩ := outputs i
    have ran : (compileInput load primitives directory (paths.get i)).run.run machine =
        (.ok (), ((compileInput load primitives directory (paths.get i)).run.run machine).2) :=
      Prod.ext (Script.ok_iff_isOk.mpr ok) rfl
    obtain ⟨source, functions, compilation, other, read, decoded, compiled, again, grammar,
      documentation⟩ := documented_of_run named outputs (.start places _) ran
    obtain rfl : stem = other := Option.some.inj (named.symm.trans again)
    exact ⟨source, functions, compilation, stem, read, decoded, compiled, named,
      (shares.read (outputs.output _ gbnf_mem_endings).input).mpr grammar,
      (shares.read (outputs.output _ txt_mem_endings).input).mpr documentation⟩

/-- The program's loading of whole documents. -/
def plainLoader : Loader :=
  Selection.loader .standard ⟨[], none, none⟩

/-- Two inputs, one of them among the outputs. -/
def twoInputs : List String :=
  ["a.json", "out/b.json"]

/-- The file of the first input can be compiled, that of the second one cannot. -/
def twoInputsMachine : Machine where
  files :=
    { current := []
      nodes := [
        (["a.json"], .file "\x7b\"name\":\"f\",\"parameters\":\x7b\x7d\x7d".toUTF8),
        (["out"], .directory),
        (["out", "b.json"], .file "[]".toUTF8)] }
  printed := ""
  events := []

theorem independent_of_interleaved_backwards :
    ∃ trace final, ∃ outcomes : Fin twoInputs.length → Except RunError Unit,
      Interleaved .faithful twoInputsMachine
        (fun i : Fin twoInputs.length =>
          (compileInput plainLoader "" "out" (twoInputs.get i)).run)
        trace final (fun i => .done (outcomes i)) ∧
      Independent plainLoader "" "out" twoInputs twoInputsMachine final trace outcomes ∧
      (outcomes ⟨0, by decide⟩).isOk = true ∧ (outcomes ⟨1, by decide⟩).isOk = false := by
  have sound : twoInputsMachine.files.Sound :=
    .of_nodes (by simp [twoInputsMachine, FileSystem.node?, Keyed.lookup?_cons]) rfl
  have accepted : checkNames [] twoInputs = .ok () :=
    checkNames_cons.mpr ⟨"a", by decide, by decide,
      checkNames_cons.mpr ⟨"b", by decide, by decide, rfl⟩⟩
  have downward : Downward "out" := by
    unfold Downward
    decide
  have downwards : ∀ path ∈ twoInputs, Downward path := by
    unfold Downward
    decide
  obtain ⟨trace, final, outcomes, steps⟩ := Interleaved.exists_of_order twoInputsMachine
    (fun i : Fin twoInputs.length => (compileInput plainLoader "" "out" (twoInputs.get i)).run)
    (List.nodup_reverse.mpr (List.nodup_finRange _)) (by simp)
  have independent := independent_of_interleaved sound accepted downward downwards steps
  refine ⟨trace, final, outcomes, steps, independent, ?_, ?_⟩
  · rw [(independent.alone _).1]
    decide +kernel
  · rw [(independent.alone _).1]
    decide +kernel

end ToolGrammar.CommandLine
