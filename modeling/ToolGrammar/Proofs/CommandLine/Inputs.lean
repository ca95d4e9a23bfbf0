import ToolGrammar.CommandLine.Run
import ToolGrammar.Proofs.Script.Tracking
import ToolGrammar.Proofs.Storage.Entries

namespace ToolGrammar.CommandLine

open Storage Storage.FileSystem
open Storage.PathText (stem? stemOf join Downward Entry)

theorem checkNames_cons {taken rest : List String} {path : String} :
    checkNames taken (path :: rest) = .ok () ↔ ∃ stem, stem? path = some stem ∧ stem ∉ taken ∧
      checkNames (stem :: taken) rest = .ok () := by
  conv => lhs; unfold checkNames
  generalize stem? path = named
  cases named with
  | none => simp
  | some stem => by_cases again : stem ∈ taken <;> simp [again]

theorem stems_of_checkNames {taken paths : List String}
    (accepted : checkNames taken paths = .ok ()) : ∃ stems : List String,
      paths.map stem? = stems.map some ∧ stems.Nodup ∧ ∀ stem ∈ stems, stem ∉ taken := by
  induction paths generalizing taken with
  | nil => exact ⟨[], by simp only [List.map_nil], .nil, by simp⟩
  | cons path rest ih =>
      obtain ⟨stem, named, again, later⟩ := checkNames_cons.mp accepted
      obtain ⟨stems, same, nodup, fresh⟩ := ih later
      refine ⟨stem :: stems, ?_, List.nodup_cons.mpr ⟨fun member => ?_, nodup⟩,
        List.forall_mem_cons.mpr ⟨again, fun other member before => ?_⟩⟩
      · rw [List.map_cons, named, same, List.map_cons]
      · exact fresh stem member List.mem_cons_self
      · exact fresh other member (List.mem_cons_of_mem _ before)

/-- Every input has an output name, and no two inputs have the same. -/
theorem stems_distinct {paths : List String} (accepted : checkNames [] paths = .ok ()) :
    (∀ i : Fin paths.length, ∃ stem, stem? (paths.get i) = some stem) ∧
      ∀ {i j : Fin paths.length}, stem? (paths.get i) = stem? (paths.get j) → i = j := by
  obtain ⟨stems, same, nodup, -⟩ := stems_of_checkNames accepted
  have distinct : (paths.map stem?).Nodup := by
    rw [same]
    exact nodup.map (Option.some_injective _)
  constructor
  · intro i
    have member : stem? (paths.get i) ∈ paths.map stem? := List.mem_map_of_mem (List.getElem_mem _)
    rw [same] at member
    obtain ⟨stem, -, found⟩ := List.mem_map.mp member
    exact ⟨stem, found.symm⟩
  · intro i j equal
    have named (k : Fin paths.length) : (paths.map stem?)[k.val]? = some (stem? (paths.get k)) := by
      rw [List.getElem?_map, List.getElem?_eq_getElem k.isLt, Option.map_some]
      rfl
    have within : i.val < (paths.map stem?).length := by
      rw [List.length_map]
      exact i.isLt
    exact Fin.ext ((List.getElem?_inj within distinct).mp (by rw [named, named, equal]))

/-- What the names of the two outputs end in. -/
def endings : List String :=
  [".gbnf", ".txt"]

theorem gbnf_mem_endings : ".gbnf" ∈ endings :=
  List.mem_cons_self

theorem txt_mem_endings : ".txt" ∈ endings :=
  List.mem_cons_of_mem _ List.mem_cons_self

variable {stem ending : String}

theorem stemOf_append (some : stem ≠ "") (member : ending ∈ endings) :
    stemOf (stem ++ ending) = stem := by
  obtain rfl | rfl : ending = "." ++ "gbnf" ∨ ending = "." ++ "txt" := by
    simpa [endings] using member
  · rw [← String.append_assoc]
    exact PathText.stemOf_append_ending some (by decide)
  · rw [← String.append_assoc]
    exact PathText.stemOf_append_ending some (by decide)

theorem entry_append (solid : '/' ∉ stem.toList) (member : ending ∈ endings) :
    Entry (stem ++ ending) := by
  obtain ⟨plain, size⟩ : '/' ∉ ending.toList ∧ 4 ≤ ending.length := by
    obtain rfl | rfl : ending = ".gbnf" ∨ ending = ".txt" := by simpa [endings] using member
    · decide
    · decide
  have long : ∀ {name : String}, name.length < 4 → stem ++ ending ≠ name := by
    rintro _ short rfl
    rw [String.length_append] at short
    omega
  refine ⟨?_, long (by decide), long (by decide), long (by decide)⟩
  rw [String.toList_append, List.mem_append]
  exact not_or.mpr ⟨solid, plain⟩

/-- Every input owns the places of its two outputs. -/
def layout (files : FileSystem) (directory : String) (paths : List String) (sound : files.Sound)
    (accepted : checkNames [] paths = .ok ()) : Layout (Fin paths.length) where
  first := files
  here := files.start directory
  names := PathText.steps directory
  own i location := ∃ stem ending, stem? (paths.get i) = some stem ∧ ending ∈ endings ∧
    location = files.place directory ++ [stem ++ ending]
  sound := sound
  there := sound.start directory
  below := fun ⟨stem, ending, _, _, whole⟩ => ⟨stem ++ ending, whole⟩
  apart := by
    rintro i j _ ⟨stem, ending, named, member, rfl⟩
      ⟨other, otherEnding, otherNamed, otherMember, same⟩
    refine (stems_distinct accepted).2 ?_
    have names : stem ++ ending = other ++ otherEnding := by
      simpa using same
    rw [named, otherNamed, ← stemOf_append (PathText.steps_of_stem? named).1 member, names,
      stemOf_append (PathText.steps_of_stem? otherNamed).1 otherMember]

variable {files : FileSystem} {directory : String} {paths : List String} {sound : files.Sound}
  {accepted : checkNames [] paths = .ok ()} {i : Fin paths.length}

theorem output_of_stem (downward : Downward directory) (named : stem? (paths.get i) = some stem)
    (member : ending ∈ endings) :
    (layout files directory paths sound accepted).Output i (join directory (stem ++ ending)) := by
  have entry := entry_append (PathText.steps_of_stem? named).2.1 member
  exact
    { downward := entry.downward_join downward
      closed := entry.isOpen_join directory
      own := ⟨stem, ending, named, member, place_join files entry directory⟩
      last := ⟨_, _, entry.names_join directory, entry.here, by
        rw [start, entry.isAbsolute_join]
        rfl⟩ }

/-- The place of an input is in the way of no other input. -/
theorem input_of_path (downward : Downward (paths.get i)) :
    (layout files directory paths sound accepted).Input i (paths.get i) := by
  refine ⟨downward, ?_⟩
  rintro j ⟨stem, ending, named, member, same⟩
  obtain ⟨own, ownNamed⟩ := (stems_distinct accepted).1 i
  obtain ⟨-, -, before, name, steps, cut⟩ := PathText.steps_of_stem? ownNamed
  refine (stems_distinct accepted).2 ?_
  have last : name = stem ++ ending := by
    have same : files.start (paths.get i) ++ PathText.steps (paths.get i) =
      files.place directory ++ [stem ++ ending] := same
    rw [steps, ← List.append_assoc] at same
    simpa using (List.append_inj' same rfl).2
  rw [named, ownNamed, ← cut, last, stemOf_append (PathText.steps_of_stem? named).1 member]

/-- The two path texts of outputs of this name: one user owns their places, and their common parent,
if that is a path text of its own, is spelled as the directory of all outputs. -/
structure Outputs {ι : Type} (places : Layout ι) (i : ι) (directory stem parent : String) :
    Prop where
  output : ∀ ending ∈ endings, places.Output i (join directory (stem ++ ending))
  parents : ∀ ending ∈ endings,
    PathText.parent? (join directory (stem ++ ending)) = some parent
  here : parent = "" → places.names = []
  way : parent ≠ "" → places.Way parent
  distinct : places.first.place (join directory (stem ++ ".gbnf")) ≠
    places.first.place (join directory (stem ++ ".txt"))

theorem exists_outputs (downward : Downward directory) (named : stem? (paths.get i) = some stem) :
    ∃ parent, Outputs (layout files directory paths sound accepted) i directory stem parent := by
  obtain ⟨parent, parents, absolute, steps, lead, above, remains, spelled, downwards⟩ :=
    PathText.exists_parent directory
  have entry {ending : String} (member : ending ∈ endings) :=
    entry_append (PathText.steps_of_stem? named).2.1 member
  refine ⟨parent, fun _ member => output_of_stem downward named member,
    fun _ member => parents _ (entry member), ?_, fun some => ?_, ?_⟩
  · rintro rfl
    exact steps.symm.trans (by decide)
  · by_cases proper : PathText.Proper parent
    · refine .inl fun others safe current => ?_
      have start : others.start parent = files.start directory := by
        rw [FileSystem.start, FileSystem.start, absolute, current]
        rfl
      have makes := makes_makeDirectories safe remains (downwards downward) spelled fun _ => proper
      rwa [steps, start] at makes
    · exact .inr fun others => makeDirectories_of_improper others some proper
  · show files.place _ ≠ files.place _
    rw [place_join files (entry gbnf_mem_endings), place_join files (entry txt_mem_endings)]
    intro same
    simp [← String.toList_inj] at same

open Script (Tidy Keeps Interleaved adapt_run done_bind)

section

variable {ι ε α : Type} {places : Layout ι} {i : ι} {ready : Bool} {path text parent : String}

theorem tidy_noteAll {events : List Journal.Event} {next : Unit → Script (Except ε α)}
    (rest : Tidy places i ready (next ())) :
    Tidy places i ready (Script.noteAll events >>= next) := by
  induction events with
  | nil => exact rest
  | cons event events ih => exact .note ih

/-- What a document's writing asks once the directory above is there. -/
def writeNoted (path text : String) : Script (Except Failure Unit) :=
  .ask (.write path text) fun
    | .error reason => .done (.error ⟨.write, path, reason⟩)
    | .ok () => .ask (.note (.wroteDocument path text.utf8ByteSize)) fun _ => .done (.ok ())

theorem writeDocument_of_no_parent (found : PathText.parent? path = some "") :
    (writeDocument path text).run = writeNoted path text := by
  unfold writeDocument makeDirectoryOf
  rw [found]
  refine congrArg (Script.ask (.write path text)) (funext fun answer => ?_)
  cases answer <;> rfl

theorem writeDocument_of_parent (found : PathText.parent? path = some parent) (some : parent ≠ "") :
    (writeDocument path text).run = .ask (.makeDirectories parent) fun
      | .error reason => .done (.error ⟨.createDirectory, parent, reason⟩)
      | .ok () => writeNoted path text := by
  have asks : makeDirectoryOf path =
      .ofAnswer .createDirectory parent (.request (.makeDirectories parent)) := by
    unfold makeDirectoryOf
    rw [found]
    split
    · simp_all
    · simp_all
    · rename_i same
      rw [Option.some.inj same]
  unfold writeDocument
  rw [asks]
  refine congrArg (Script.ask (.makeDirectories parent)) (funext fun answer => ?_)
  cases answer with
  | error reason => rfl
  | ok =>
      refine congrArg (Script.ask (.write path text)) (funext fun answer => ?_)
      cases answer <;> rfl

theorem tidy_writeNoted {next : Except Failure Unit → Script (Except ε α)}
    (output : places.Output i path)
    (ok : Tidy places i true (next (.ok ())))
    (error : ∀ failure, ∃ told, next (.error failure) = .done (.error told)) :
    Tidy places i true (writeNoted path text >>= next) :=
  .write output (.note ok) fun _ => error _

theorem tidy_writeDocument {next : Except Failure Unit → Script (Except ε α)}
    (found : PathText.parent? path = some parent) (here : parent = "" → ready = true)
    (way : parent ≠ "" → places.Way parent) (output : places.Output i path)
    (ok : Tidy places i true (next (.ok ())))
    (error : ∀ failure, ∃ told, next (.error failure) = .done (.error told)) :
    Tidy places i ready ((writeDocument path text).run >>= next) := by
  by_cases none : parent = ""
  · rw [writeDocument_of_no_parent (none ▸ found), here none]
    exact tidy_writeNoted output ok error
  · rw [writeDocument_of_parent found none]
    exact .make (way none) (tidy_writeNoted output ok error) fun _ => error _

/-- The last part of what an input asks: both of its documents are written. -/
def writeBoth (compilation : Compilation) (grammarPath documentationPath : String) :
    Script (Except RunError Unit) :=
  (writeDocument grammarPath compilation.grammar).run >>= fun
    | .error failure => .done (.error (.access failure))
    | .ok () => (writeDocument documentationPath compilation.documentation).run >>= fun
        | .error failure => .done (.error (.access failure))
        | .ok () => .done (.ok ())

theorem write_run (compilation : Compilation) (grammarPath documentationPath : String) :
    (Run.ofAccess (compilation.write grammarPath documentationPath)).run =
      writeBoth compilation grammarPath documentationPath := by
  rw [Run.ofAccess, adapt_run, Compilation.write, ExceptT.run_bind, Script.bind_assoc, writeBoth]
  congr 1
  funext outcome
  cases outcome with
  | error failure => rfl
  | ok =>
      congr 1
      funext outcome
      cases outcome <;> rfl

theorem compile_run (failed : Grammar.CompileError → RunError)
    (functions : List Schema.FunctionSpec) (primitives : String) :
    (compile failed functions primitives).run =
      Script.noteAll (Journal.eventsOfAssembly functions) >>= fun _ =>
        .done ((Compilation.compile functions primitives).mapError failed) := by
  rw [compile, ExceptT.run_bind, adapt_run, assemble, ExceptT.run_mk, Script.bind_assoc,
    Script.bind_assoc, Compilation.compile, Grammar.compile]
  congr 1
  funext
  generalize (Grammar.assemble functions).outcome = outcome
  cases outcome <;> rfl

theorem loadFile_run (load : Loader) (path : String) :
    (loadFile load path).run = .ask (.read path) fun
      | .error reason => .done (.error (.access ⟨.readSchema, path, reason⟩))
      | .ok source => .done (load path source) := by
  refine congrArg (Script.ask (.read path)) (funext fun answer => ?_)
  cases answer <;> rfl

theorem compileInput_run (load : Loader) (primitives directory : String)
    (named : stem? path = some stem) :
    (compileInput load primitives directory path).run = .ask (.read path) fun
      | .error reason => .done (.error (.access ⟨.readSchema, path, reason⟩))
      | .ok source =>
          match load path source with
          | .error refused => .done (.error refused)
          | .ok functions =>
              Script.noteAll (Journal.eventsOfAssembly functions) >>= fun _ =>
                match Compilation.compile functions primitives with
                | .error failed => .done (.error (.compileFile path failed))
                | .ok compilation => writeBoth compilation (join directory (stem ++ ".gbnf"))
                    (join directory (stem ++ ".txt")) := by
  unfold compileInput
  simp only [ExceptT.run_bind, loadFile_run, compile_run, named, write_run, Script.ask_bind]
  refine congrArg (Script.ask (.read path)) (funext fun answer => ?_)
  cases answer with
  | error reason => rfl
  | ok source =>
      dsimp only
      generalize load path source = decoded
      cases decoded with
      | error refused => rfl
      | ok functions =>
          rw [done_bind]
          dsimp only
          generalize Compilation.compile functions primitives = compiled,
            Journal.eventsOfAssembly functions = events
          rw [Script.bind_assoc]
          refine bind_congr fun _ => ?_
          cases compiled with
          | error failed => rfl
          | ok compilation => rw [Except.mapError, done_bind]

theorem tidy_writeBoth {compilation : Compilation}
    (outputs : Outputs places i directory stem parent) (here : parent = "" → ready = true) :
    Tidy places i ready (writeBoth compilation (join directory (stem ++ ".gbnf"))
      (join directory (stem ++ ".txt"))) :=
  tidy_writeDocument (outputs.parents _ gbnf_mem_endings) here outputs.way
    (outputs.output _ gbnf_mem_endings)
    (tidy_writeDocument (outputs.parents _ txt_mem_endings) (fun _ => rfl) outputs.way
      (outputs.output _ txt_mem_endings) (.done true (.ok ())) fun failure =>
      ⟨.access failure, rfl⟩)
    fun failure => ⟨.access failure, rfl⟩

theorem tidy_compileInput (load : Loader) (primitives : String)
    (named : stem? path = some stem) (input : places.Input i path)
    (outputs : Outputs places i directory stem parent) :
    Tidy places i (decide (parent = ""))
      (compileInput load primitives directory path).run := by
  rw [compileInput_run load primitives directory named]
  refine .read input (fun source => ?_) fun reason => ⟨_, rfl⟩
  dsimp only
  cases load path source with
  | error refused => exact .done _ _
  | ok functions =>
      refine tidy_noteAll ?_
      cases Compilation.compile functions primitives with
      | error failed => exact .done _ _
      | ok compilation => exact tidy_writeBoth outputs (by simp)

end

end ToolGrammar.CommandLine
