import ToolGrammar.CommandLine.Run
import ToolGrammar.Proofs.Script.Silence

namespace ToolGrammar

open Script

namespace Glob

theorem silent_ofPath (path : String) : Silent (Place.ofPath path).run :=
  .ask trivial fun _ => .done _

theorem silent_names (place : Place) : Silent place.names.run :=
  .ask trivial fun _ => .done _

variable {directoriesOnly : Bool} {fill : List Component → Place → Search (List String)}

section

variable (silent : ∀ components place, Silent (fill components place).run)

include silent

theorem silent_goOn (components : List Component) (path : String) :
    Silent (goOn directoriesOnly fill components path).run :=
  (silent_ofPath path).andThen fun place => .ite (.done _) (silent components place)

theorem silent_goOnIfAccepted (components : List Component) (name : String) (place : Place) :
    Silent (goOnIfAccepted directoriesOnly fill components name place).run := by
  cases components with
  | nil => exact .done _
  | cons component others =>
      exact .ite (.done _) (.ite (.done _) (silent others place))

theorem silent_visit (components : List Component) (name : String) (place : Place) :
    Silent (visit directoriesOnly fill components name place).run := by
  rw [visit.eq_def]
  split
  · rename_i others
    have further (here : List String) : Silent (ExceptT.run (m := Script)
        (if place.isDirectory then do
          return here ++ (← fill (.anyNames :: others.dropWhile (· = .anyNames)) place)
        else return here)) :=
      .ite ((silent _ place).andThen fun _ => .done _) (.done _)
    exact .ite ((silent_goOnIfAccepted silent _ name place).andThen further)
      (.ite (further _) (further _))
  · exact silent_goOnIfAccepted silent components name place

theorem silent_visitAll (component : Component) (others : List Component) (place : Place) :
    Silent (visitAll directoriesOnly fill component others place).run := by
  refine .ite (.done _) ((silent_names place).andThen fun names => ?_)
  refine (Silent.mapM (fun name => ?_) _).andThen fun special => ?_
  · exact .ite (silent_goOn silent others _) (.done _)
  · refine (Silent.mapM (fun name => ?_) names).andThen fun children => .done _
    exact (silent_ofPath _).andThen fun below => silent_visit silent _ name below

theorem silent_visitName (name : String) (others : List Component) (place : Place) :
    Silent (visitName directoriesOnly fill name others place).run := by
  refine .ite (.ite (silent_goOn silent others _) (.done _)) (.ask trivial fun isDirectory => ?_)
  refine .ite (silent_goOn silent others _) (.ask trivial fun isFile => ?_)
  exact .ite (silent_goOn silent others _) (.done _)

end

theorem silent_searchFrom (directoriesOnly : Bool) (budget : Nat) (components : List Component)
    (place : Place) : Silent (searchFrom directoriesOnly budget components place).run := by
  induction budget generalizing components place with
  | zero => exact .done _
  | succ budget ih =>
      match components with
      | [] => exact .done _
      | component :: others =>
          cases component with
          | name text => exact silent_visitName ih text others place
          | _ => exact silent_visitAll ih _ others place

theorem silent_search (pattern : Pattern) : Silent (search pattern).run :=
  (silent_ofPath _).andThen fun start => silent_searchFrom _ _ _ start

end Glob

namespace Storage

/-- What makes directories or files, and does not just read them. -/
def Operation.IsOutput : Operation → Prop
  | .createDirectory | .write => True
  | .readSchema | .readPrimitives => False

instance : DecidablePred Operation.IsOutput
  | .createDirectory | .write => isTrue trivial
  | .readSchema | .readPrimitives => isFalse id

theorem silent_readText (operation : Operation) (path : String) :
    Silent (readText operation path).run :=
  .ask trivial fun _ => .done _

theorem ends_ofAnswer {α : Type} {kind : Failure → Prop} {operation : Operation} {path : String}
    (told : ∀ reason, kind ⟨operation, path, reason⟩) (answer : Script (Except AccessError α)) :
    Ends (FailsAs kind) (Access.ofAnswer operation path answer).run :=
  (ends_true answer).bind fun outcome _ => .done (failsAs_mapError told outcome)

theorem ends_writeDocument (path text : String) :
    Ends (FailsAs fun failure : Failure => failure.operation.IsOutput)
      (writeDocument path text).run := by
  refine Ends.andThen ?_ fun _ => (ends_ofAnswer (fun _ => trivial) _).andThen fun _ => ends_lift _
  unfold makeDirectoryOf
  split
  · exact .done (failsAs_ok ())
  · exact .done (failsAs_ok ())
  · exact ends_ofAnswer (fun _ => trivial) _

end Storage

theorem Compilation.ends_write (compilation : Compilation)
    (grammarPath documentationPath : String) :
    Ends (FailsAs fun failure : Storage.Failure => failure.operation.IsOutput)
      (compilation.write grammarPath documentationPath).run :=
  (Storage.ends_writeDocument _ _).andThen fun _ => Storage.ends_writeDocument _ _

namespace CommandLine

/-- Failures of runs that have loaded and compiled everything that they had to. -/
def RunError.AtOutput : RunError → Prop
  | .access failure => failure.operation.IsOutput
  | .failedInputs .. => True
  | .compile _ | .compileFile .. | .parse .. | .pointer .. | .filter .. | .pattern .. | .search _
  | .noFiles _ | .sharedName _ | .noName _ => False

instance : DecidablePred RunError.AtOutput
  | .access failure => inferInstanceAs (Decidable failure.operation.IsOutput)
  | .failedInputs .. => isTrue trivial
  | .compile _ | .compileFile .. | .parse .. | .pointer .. | .filter .. | .pattern .. | .search _
  | .noFiles _ | .sharedName _ | .noName _ => isFalse id

section

variable {search : Glob.Pattern → Glob.Search (List String)}
  (silent : ∀ pattern, Silent (search pattern).run)

include silent

theorem silent_inputPaths (input : String) : Silent (inputPaths search input).run := by
  unfold inputPaths
  refine .ite (.done _) ?_
  split
  · exact .done _
  · exact ((silent _).adapt _).andThen fun paths => .ite (.done _) (.done _)

theorem silent_allPaths (inputs : List String) : Silent (allPaths search inputs).run :=
  (Silent.mapM (silent_inputPaths silent) inputs).andThen fun _ => .done _

end

theorem silent_loadFile (load : Loader) (path : String) : Silent (loadFile load path).run :=
  ((Storage.silent_readText _ path).adapt _).andThen fun _ => .done _

theorem silent_load {tools : Tools} (silent : ∀ pattern, Silent (tools.search pattern).run)
    (selection : Selection) : Silent (selection.load tools).run := by
  refine (silent_allPaths silent _).andThen fun paths => ?_
  exact (Silent.mapM (silent_loadFile _) paths).andThen fun _ => .ask trivial fun _ => .done _

theorem silent_loadPrimitives (primitives : Option String) :
    Silent (loadPrimitives primitives).run := by
  cases primitives with
  | none => exact .done _
  | some path => exact (Storage.silent_readText _ path).adapt _

theorem silent_assemble (functions : List Schema.FunctionSpec) :
    Silent (assemble functions) :=
  (silent_noteAll _).bind fun _ => .done _

theorem silent_compile (failed : Grammar.CompileError → RunError)
    (functions : List Schema.FunctionSpec) (primitives : String) :
    Silent (compile failed functions primitives).run :=
  ((silent_assemble functions).adapt failed).andThen fun _ => .done _

theorem silent_conclude (directory : String) (total : Nat) (failures : List RunError) :
    Silent (conclude directory total failures).run := by
  refine Silent.andThen ((silent_noteAll _).bind fun _ => .done _) fun _ => ?_
  exact .ite (Silent.andThen (.done _) fun _ => .ask trivial fun _ => .done _)
    (.ask trivial fun _ => .done _)

theorem ends_conclude (directory : String) (total : Nat) (failures : List RunError) :
    Ends (FailsAs RunError.AtOutput) (conclude directory total failures).run := by
  refine (ends_lift _).andThen fun _ => ?_
  exact .ite (Ends.andThen (.done (failsAs_error trivial)) fun _ => ends_lift _) (ends_lift _)

theorem ends_write (compilation : Compilation) (grammarPath documentationPath : String) :
    Ends (FailsAs RunError.AtOutput)
      (Run.ofAccess (compilation.write grammarPath documentationPath)).run :=
  (compilation.ends_write _ _).adapt _ fun _ output => output

theorem ends_deliver (out : Option String) (text : String) :
    Ends (FailsAs RunError.AtOutput) (deliver out text).run := by
  cases out with
  | none => exact ends_lift _
  | some path => exact (Storage.ends_writeDocument path text).adapt _ fun _ output => output

theorem staged_runBatch {search : Glob.Pattern → Glob.Search (List String)}
    (silent : ∀ pattern, Silent (search pattern).run) (load : Loader) (inputs : List String)
    (primitives : Option String) (directory : String) :
    Staged (FailsAs RunError.AtOutput) (runBatch search load inputs primitives directory).run := by
  refine (silent_allPaths silent _).andThen fun paths => ?_
  refine Silent.andThen (.done _) fun _ => ?_
  refine (silent_loadPrimitives primitives).andThen fun primitives => .ends ?_
  exact (ends_lift _).andThen fun failures => ends_conclude _ _ _

theorem staged_run {tools : Tools} (silent : ∀ pattern, Silent (tools.search pattern).run)
    (command : Command) : Staged (FailsAs RunError.AtOutput) (command.run tools).run := by
  cases command with
  | grammar selection primitives out =>
      refine (silent_load silent selection).andThen fun functions => ?_
      refine (silent_loadPrimitives primitives).andThen fun primitives => ?_
      exact ((silent_assemble functions).adapt _).andThen fun _ => .ends (ends_deliver out _)
  | documentation selection out =>
      exact (silent_load silent selection).andThen fun _ => .ends (ends_deliver out _)
  | build selection primitives grammarOut documentationOut =>
      refine (silent_load silent selection).andThen fun functions => ?_
      refine (silent_loadPrimitives primitives).andThen fun primitives => ?_
      exact (silent_compile _ functions primitives).andThen fun _ => .ends (ends_write _ _ _)
  | batch selection primitives directory => exact staged_runBatch silent ..

/-- An invocation loads and compiles everything before it makes anything. -/
theorem staged_invocation {tools : Tools} (silent : ∀ pattern, Silent (tools.search pattern).run)
    (invocation : Invocation) : Staged (FailsAs RunError.AtOutput) (invocation.runWith tools).run :=
  .ite (.done _) (staged_run silent invocation.command)

end CommandLine

end ToolGrammar
