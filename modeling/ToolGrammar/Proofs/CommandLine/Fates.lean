import ToolGrammar.Proofs.CommandLine.Batch
import ToolGrammar.Proofs.Script.Reliance

/-!
What becomes of the inputs of a batch, in any world and in every order of their steps. An input owns
all places that have the name of one of its outputs, so no input writes where another one reads or
has written; it leaves no trace before it has been compiled, and its documents stay once it has
written them.
-/
namespace ToolGrammar.CommandLine

open Storage Storage.FileSystem
open Storage.PathText (stem? stemOf join Entry)
open Script (Secured Interleaved exchangesOf)

/-- The name of the location is that of an output of this input. -/
def Owns (path : String) (location : Location) : Prop :=
  ∃ stem ending, stem? path = some stem ∧ ending ∈ endings ∧
    location.getLast? = some (stem ++ ending)

/-- Some other input has an output of this name. -/
def Foreign (paths : List String) (i : Fin paths.length) (location : Location) : Prop :=
  ∃ j, j ≠ i ∧ Owns (paths.get j) location

variable {paths : List String} {i : Fin paths.length} {location : Location}
  {stem ending name : String} {files before after : FileSystem}

theorem not_foreign_of_owns (accepted : checkNames [] paths = .ok ())
    (own : Owns (paths.get i) location) : ¬ Foreign paths i location := by
  rintro ⟨j, other, stem, ending, named, member, last⟩
  obtain ⟨ownStem, ownEnding, ownNamed, ownMember, ownLast⟩ := own
  refine other ((stems_distinct accepted).2 ?_)
  have same : stem ++ ending = ownStem ++ ownEnding := Option.some.inj (last.symm.trans ownLast)
  rw [named, ownNamed, ← stemOf_append (PathText.steps_of_stem? named).1 member, same,
    stemOf_append (PathText.steps_of_stem? ownNamed).1 ownMember]

/-- The file of an input has its output name itself, so no other input writes there. -/
theorem not_foreign_of_target (accepted : checkNames [] paths = .ok ()) {opened : Bool}
    (leads : files.target (paths.get i) = .ok (.entry location opened)) :
    ¬ Foreign paths i location := by
  rintro ⟨j, other, stem, ending, named, member, last⟩
  obtain ⟨own, ownNamed⟩ := (stems_distinct accepted).1 i
  obtain ⟨-, -, upper, name, steps, cut⟩ := PathText.steps_of_stem? ownNamed
  obtain ⟨front, again, above, whole, visible, rfl⟩ := name_of_target leads
  have same : again = name := by
    rw [PathText.steps_of_names whole visible] at steps
    simpa using congrArg List.getLast? steps
  have written : name = stem ++ ending := by
    simpa [same] using last
  refine other ((stems_distinct accepted).2 ?_)
  rw [named, ownNamed, ← cut, written, stemOf_append (PathText.steps_of_stem? named).1 member]

/-- The path text leads to a file of this name that holds the text. -/
def Holds (files : FileSystem) (path name text : String) : Prop :=
  ∃ location, location.getLast? = some name ∧
    files.look path = .ok (location, .file text.toUTF8)

variable {places : Location → Prop} {path text : String}

theorem Holds.read (holds : Holds files path name text) : files.read path = .ok text := by
  obtain ⟨location, -, looked⟩ := holds
  exact read_of_look looked

theorem Holds.stay (holds : Holds before path name text) (changes : Changes places before after)
    (outside : ∀ location, location.getLast? = some name → ¬ places location) :
    Holds after path name text := by
  obtain ⟨location, last, looked⟩ := holds
  exact ⟨location, last, changes.look (outside location last) looked⟩

/-- The text is that of the file to which the path text leads in the end, as it was at first; where
it could be read at first, it is what could be read. -/
structure Loads (before after : FileSystem) (path source : String) : Prop where
  file : ∃ location content, after.target path = .ok (.entry location false) ∧
    before.node? location = some (.file content) ∧ String.fromUTF8? content = some source
  same : ∀ text, before.read path = .ok text → text = source

theorem Loads.stay {between : FileSystem} (loads : Loads before between path text)
    (changes : Changes places between after) : Loads before after path text := by
  obtain ⟨location, content, leads, there, decoded⟩ := loads.file
  exact ⟨⟨location, content, changes.target leads, there, decoded⟩, loads.same⟩

/-- What could be read before can still be read. -/
theorem read_of_changes (changes : Changes places before after)
    (outside : ∀ location, after.target path = .ok (.entry location false) → ¬ places location)
    (read : before.read path = .ok text) : after.read path = .ok text := by
  obtain ⟨location, content, looked, decoded⟩ := read_eq_ok_iff_look.mp read
  have leads := changes.target (look_eq_file_iff.mp looked).1
  exact read_eq_ok_iff_look.mpr
    ⟨location, content, changes.look (outside location leads) looked, decoded⟩

theorem loads_of_read (changes : Changes places before after)
    (outside : ∀ location, after.target path = .ok (.entry location false) → ¬ places location)
    (read : after.read path = .ok text) : Loads before after path text := by
  obtain ⟨location, content, looked, decoded⟩ := read_eq_ok_iff_look.mp read
  obtain ⟨leads, found⟩ := look_eq_file_iff.mp looked
  have there := (changes.file (outside location leads)).mp (lookUp_eq_file.mp found).2
  refine ⟨⟨location, content, leads, there, decoded⟩, fun other readBefore => ?_⟩
  have again := read_of_changes changes outside readBefore
  rw [read] at again
  exact (Except.ok.inj again).symm

/-- A request of making this document has been refused. -/
inductive Refused (path text : String) (exchanges : List Exchange) : Failure → Prop
  | directory {parent : String} {reason : AccessError}
      (above : PathText.parent? path = some parent)
      (asked : ⟨.makeDirectories parent, .error reason⟩ ∈ exchanges) :
      Refused path text exchanges ⟨.createDirectory, parent, reason⟩
  | file {reason : AccessError} (asked : ⟨.write path text, .error reason⟩ ∈ exchanges) :
      Refused path text exchanges ⟨.write, path, reason⟩

theorem Refused.within {exchanges more : List Exchange} {failure : Failure}
    (refused : Refused path text exchanges failure)
    (within : ∀ exchange ∈ exchanges, exchange ∈ more) : Refused path text more failure := by
  cases refused with
  | directory above asked => exact .directory above (within _ asked)
  | file asked => exact .file (within _ asked)

/-- What the writing of a document comes to while others write elsewhere. -/
structure Written (others : Location → Prop) (before : FileSystem) (path name text : String)
    (exchanges : List Exchange) (outcome : Except Failure Unit) (after : FileSystem) : Prop where
  changes : Changes (fun location => others location ∨ location.getLast? = some name) before after
  holds : outcome = .ok () → ⟨.write path text, .ok ()⟩ ∈ exchanges ∧ Holds after path name text
  refused : ∀ failure, outcome = .error failure → Refused path text exchanges failure

variable {world : World}

section

variable {mine others : Location → Prop} {front : List String}
  (named : PathText.names path = front ++ [name])
  (own : ∀ location, location.getLast? = some name → mine location ∧ ¬ others location)

include named own

theorem secured_writeNoted (exchanges : List Exchange)
    (reached : Changes (fun location => others location ∨ location.getLast? = some name)
      before files) :
    (writeNoted path text).Secured world mine others
      (fun more => Written others before path name text (exchanges ++ more)) files := by
  refine .step fun {machine answer between} changes serves => ?_
  have here := reached.trans (changes.mono fun _ => .inl)
  have last {location : Location}
      (leads : machine.files.target path = .ok (.entry location false)) :
      location.getLast? = some name := by
    rw [getLast?_of_target leads, named, List.getLast?_concat]
  cases answer with
  | error reason =>
      have cut := world.refuses serves
      refine ⟨cut.mono fun location leads => (own location (last leads)).1,
        .done fun final more => ⟨?_, nofun, ?_⟩⟩
      · exact (here.trans (cut.mono fun _ leads => .inr (last leads))).trans
          (more.mono fun _ => .inl)
      · intro failure failed
        cases failed
        exact .file (by simp)
  | ok =>
      obtain ⟨location, leads, looked, put⟩ := write_changes (world.writes serves)
      refine ⟨put.mono fun _ same => same ▸ (own location (last leads)).1,
        .note (.done fun final more => ⟨?_, fun _ => ⟨by simp, ?_⟩, nofun⟩)⟩
      · exact (here.trans (put.mono fun _ same => .inr (same ▸ last leads))).trans
          (more.mono fun _ => .inl)
      · exact Holds.stay ⟨location, last leads, looked⟩ more fun location last =>
          (own location last).2

theorem secured_writeDocument {parent : String} (found : PathText.parent? path = some parent) :
    (writeDocument path text).run.Secured world mine others
      (Written others files path name text) files := by
  by_cases none : parent = ""
  · rw [writeDocument_of_no_parent (none ▸ found)]
    exact secured_writeNoted named own [] (.refl _ files)
  · rw [writeDocument_of_parent found none]
    refine .step fun {machine answer between} changes serves => ?_
    have made := world.makes serves
    have here : Changes (fun location => others location ∨ location.getLast? = some name) files
        between.files := (changes.mono fun _ => .inl).trans (made.mono fun _ => False.elim)
    refine ⟨made.mono fun _ => False.elim, ?_⟩
    cases answer with
    | error reason =>
        refine .done fun final more => ⟨here.trans (more.mono fun _ => .inl), nofun, ?_⟩
        intro failure failed
        cases failed
        exact .directory found List.mem_cons_self
    | ok => exact secured_writeNoted named own [_] here

end

/-- The input was read first, and this text was answered; where what is read is what is there, it is
the text of the file. -/
structure Reads (world : World) (path source : String) (before after : FileSystem)
    (exchanges : List Exchange) : Prop where
  asked : exchanges.head? = some ⟨.read path, .ok source⟩
  loads : world.Truthful → Loads before after path source

theorem Reads.stay {source : String} {between : FileSystem} {exchanges : List Exchange}
    (reads : Reads world path source before between exchanges)
    (changes : Changes places between after) (more : List Exchange) :
    Reads world path source before after (exchanges ++ more) :=
  ⟨by simp [reads.asked], fun truthful => (reads.loads truthful).stay changes⟩

/-- What becomes of an input between two file systems, by these exchanges of its own. -/
inductive Fares (world : World) (load : Loader) (primitives directory path : String)
    (before after : FileSystem) (exchanges : List Exchange) : Except RunError Unit → Prop
  | unread {reason : AccessError}
      (asked : exchanges.head? = some ⟨.read path, .error reason⟩)
      (refused : world.Truthful → ∀ text, before.read path ≠ .ok text)
      (silent : ∀ exchange ∈ exchanges, exchange.request.IsSilent) :
      Fares world load primitives directory path before after exchanges
        (.error (.access ⟨.readSchema, path, reason⟩))
  | undecoded {source : String} {failure : RunError}
      (reads : Reads world path source before after exchanges)
      (refused : load path source = .error failure)
      (silent : ∀ exchange ∈ exchanges, exchange.request.IsSilent) :
      Fares world load primitives directory path before after exchanges (.error failure)
  | uncompiled {source : String} {functions : List Schema.FunctionSpec}
      {failure : Grammar.CompileError} (reads : Reads world path source before after exchanges)
      (decoded : load path source = .ok functions)
      (refused : Compilation.compile functions primitives = .error failure)
      (silent : ∀ exchange ∈ exchanges, exchange.request.IsSilent) :
      Fares world load primitives directory path before after exchanges
        (.error (.compileFile path failure))
  | unwritten {source stem : String} {functions : List Schema.FunctionSpec}
      {compilation : Compilation} {failure : Failure}
      (reads : Reads world path source before after exchanges)
      (decoded : load path source = .ok functions)
      (compiled : Compilation.compile functions primitives = .ok compilation)
      (named : stem? path = some stem)
      (refused :
        Refused (join directory (stem ++ ".gbnf")) compilation.grammar exchanges failure ∨
        Refused (join directory (stem ++ ".txt")) compilation.documentation exchanges failure) :
      Fares world load primitives directory path before after exchanges (.error (.access failure))
  | documented {source stem : String} {functions : List Schema.FunctionSpec}
      {compilation : Compilation} (reads : Reads world path source before after exchanges)
      (decoded : load path source = .ok functions)
      (compiled : Compilation.compile functions primitives = .ok compilation)
      (named : stem? path = some stem)
      (wroteGrammar :
        ⟨.write (join directory (stem ++ ".gbnf")) compilation.grammar, .ok ()⟩ ∈ exchanges)
      (wroteDocumentation :
        ⟨.write (join directory (stem ++ ".txt")) compilation.documentation, .ok ()⟩ ∈ exchanges)
      (grammar : after.read (join directory (stem ++ ".gbnf")) = .ok compilation.grammar)
      (documentation :
        after.read (join directory (stem ++ ".txt")) = .ok compilation.documentation) :
      Fares world load primitives directory path before after exchanges (.ok ())

variable {load : Loader} {primitives directory : String}

theorem secured_writeBoth {functions : List Schema.FunctionSpec} {compilation : Compilation}
    {source : String} {exchanges : List Exchange} (accepted : checkNames [] paths = .ok ())
    (named : stem? (paths.get i) = some stem)
    (reads : Reads world (paths.get i) source before files exchanges)
    (decoded : load (paths.get i) source = .ok functions)
    (compiled : Compilation.compile functions primitives = .ok compilation) :
    (writeBoth compilation (join directory (stem ++ ".gbnf"))
      (join directory (stem ++ ".txt"))).Secured world (Owns (paths.get i)) (Foreign paths i)
        (fun more outcome after => Fares world load primitives directory (paths.get i) before after
          (exchanges ++ more) outcome) files := by
  obtain ⟨parent, parents, -⟩ := PathText.exists_parent directory
  have entry {ending : String} (member : ending ∈ endings) :=
    entry_append (PathText.steps_of_stem? named).2.1 member
  have own {ending : String} (member : ending ∈ endings) (location : Location)
      (last : location.getLast? = some (stem ++ ending)) :
      Owns (paths.get i) location ∧ ¬ Foreign paths i location :=
    ⟨⟨stem, ending, named, member, last⟩,
      not_foreign_of_owns accepted ⟨stem, ending, named, member, last⟩⟩
  have apart : stem ++ ".gbnf" ≠ stem ++ ".txt" := by
    intro same
    simp [← String.toList_inj] at same
  refine Script.Secured.bind (secured_writeDocument
    ((entry gbnf_mem_endings).names_join directory) (own gbnf_mem_endings)
    (parents _ (entry gbnf_mem_endings))) fun asked outcome between first => ?_
  have read := reads.stay first.changes asked
  cases outcome with
  | error failure =>
      refine .done fun after more => .unwritten (by simpa using read.stay more []) decoded
        compiled named (.inl ((first.refused failure rfl).within ?_))
      simp +contextual
  | ok =>
      obtain ⟨wroteGrammar, grammar⟩ := first.holds rfl
      refine Script.Secured.bind (secured_writeDocument
        ((entry txt_mem_endings).names_join directory) (own txt_mem_endings)
        (parents _ (entry txt_mem_endings))) fun later outcome last second => ?_
      have read := read.stay second.changes later
      cases outcome with
      | error failure =>
          refine .done fun after more => .unwritten (by simpa using read.stay more []) decoded
            compiled named (.inr ((second.refused failure rfl).within ?_))
          simp +contextual
      | ok =>
          obtain ⟨wroteDocumentation, documentation⟩ := second.holds rfl
          have grammar := grammar.stay second.changes fun location name =>
            not_or.mpr ⟨(own gbnf_mem_endings location name).2, fun other =>
              apart (Option.some.inj (name.symm.trans other))⟩
          refine .done fun after more => .documented (by simpa using read.stay more []) decoded
            compiled named (by simp [wroteGrammar]) (by simp [wroteDocumentation]) ?_ ?_
          · exact (grammar.stay more fun location name =>
              (own gbnf_mem_endings location name).2).read
          · exact (documentation.stay more fun location name =>
              (own txt_mem_endings location name).2).read

theorem secured_compileInput (accepted : checkNames [] paths = .ok ()) (i : Fin paths.length)
    (before : FileSystem) :
    (compileInput load primitives directory (paths.get i)).run.Secured world (Owns (paths.get i))
      (Foreign paths i) (fun exchanges outcome after =>
        Fares world load primitives directory (paths.get i) before after exchanges outcome)
      before := by
  obtain ⟨stem, named⟩ := (stems_distinct accepted).1 i
  rw [compileInput_run load primitives directory named]
  refine .step fun {machine answer between} changes serves => ?_
  have same := (world.silent serves trivial).1
  rw [same]
  refine ⟨.refl _ _, ?_⟩
  have outside (location : Location) (leads : machine.files.target (paths.get i) =
      .ok (.entry location false)) : ¬ Foreign paths i location :=
    not_foreign_of_target accepted leads
  cases answer with
  | error reason =>
      refine .done fun after _ => .unread rfl (fun truthful text readBefore => ?_)
        (List.forall_mem_singleton.mpr trivial)
      have read := read_of_changes changes outside readBefore
      rw [← truthful serves] at read
      cases read
  | ok source =>
      have reads : Reads world (paths.get i) source before machine.files
          [⟨.read (paths.get i), .ok source⟩] :=
        ⟨rfl, fun truthful => loads_of_read changes outside (truthful serves).symm⟩
      dsimp only
      cases decoded : load (paths.get i) source with
      | error failure =>
          exact .done fun after more => .undecoded (reads.stay more []) decoded
            (List.forall_mem_singleton.mpr trivial)
      | ok functions =>
          refine .noteAll fun noted silent => ?_
          have reads := reads.stay (.refl (Foreign paths i) _) noted
          cases compiled : Compilation.compile functions primitives with
          | error failure =>
              refine .done fun after more =>
                .uncompiled (reads.stay more []) decoded compiled ?_
              rw [List.append_nil]
              exact List.forall_mem_append.mpr ⟨List.forall_mem_singleton.mpr trivial, silent⟩
          | ok compilation => exact secured_writeBoth accepted named reads decoded compiled

/-- What becomes of all inputs in any order of their steps. -/
theorem fares_of_interleaved {machine final : Machine} {trace : List (Fin paths.length × Exchange)}
    {outcomes : Fin paths.length → Except RunError Unit} (accepted : checkNames [] paths = .ok ())
    (steps : Interleaved world machine
      (fun i : Fin paths.length => (compileInput load primitives directory (paths.get i)).run)
      trace final fun i => .done (outcomes i)) (i : Fin paths.length) :
    Fares world load primitives directory (paths.get i) machine.files final.files
      (exchangesOf trace i) (outcomes i) :=
  steps.kept (fun i => secured_compileInput accepted i machine.files)
    (fun i _ _ other own => ⟨i, other, own⟩) i

end ToolGrammar.CommandLine
