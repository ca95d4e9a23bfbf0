import ToolGrammar.Proofs.CommandLine.Batch
import ToolGrammar.Proofs.Storage.Persistence

namespace ToolGrammar.CommandLine

open Storage Storage.FileSystem

/-- A place holds the same file as before, or no file as before. -/
def SameFile (before after : FileSystem) (location : Location) : Prop :=
  ∀ content, after.node? location = some (.file content) ↔
    before.node? location = some (.file content)

variable {places : Location → Prop} {before between after : FileSystem} {path text : String}
  {location : Location} {machine : Machine}

theorem sameFile_of_changes (changes : Changes places before after) (outside : ¬ places location) :
    SameFile before after location :=
  fun _ => changes.file outside

/-- What the writing of a document comes to. -/
inductive Writes (path text : String) (before after : FileSystem) : Except Failure Unit → Prop
  | written {location : Location}
      (holds : after.look path = .ok (location, .file text.toUTF8))
      (changes : Changes (· = location) before after) : Writes path text before after (.ok ())
  | refused {failure : Failure} (changes : Changes (fun _ => False) before after) :
      Writes path text before after (.error failure)

theorem Writes.after_directories {outcome : Except Failure Unit}
    (made : Changes (fun _ => False) before between)
    (writes : Writes path text between after outcome) :
    Writes path text before after outcome := by
  cases writes with
  | written holds changes => exact .written holds ((made.mono fun _ => False.elim).trans changes)
  | refused changes => exact .refused (made.trans changes)

theorem writes_writeNoted (machine : Machine) (path text : String) :
    Writes path text machine.files ((writeNoted path text).run machine).2.files
      ((writeNoted path text).run machine).1 := by
  cases written : machine.files.write path text with
  | error reason =>
      rw [writeNoted, Script.run, Script.serve_write_error written]
      exact .refused (.refl _ _)
  | ok made =>
      rw [writeNoted, Script.run, Script.serve_write_ok written]
      obtain ⟨location, -, holds, changes⟩ := write_changes written
      exact .written holds changes

/-- A document is written once the directory above is there, also where it needs none. -/
theorem writeDocument_run (path text : String) :
    (writeDocument path text).run = (makeDirectoryOf path).run >>= fun
      | .error failure => .done (.error failure)
      | .ok () => writeNoted path text := by
  rw [writeDocument, ExceptT.run_bind]
  refine bind_congr fun outcome => ?_
  cases outcome with
  | error failure => rfl
  | ok =>
      refine congrArg (Script.ask (.write path text)) (funext fun answer => ?_)
      cases answer <;> rfl

theorem changes_makeDirectoryOf (machine : Machine) (path : String) :
    Changes (fun _ => False) machine.files ((makeDirectoryOf path).run.run machine).2.files := by
  unfold makeDirectoryOf
  split
  · exact .refl _ _
  · exact .refl _ _
  · rename_i parent _ _
    exact changes_makeDirectories machine.files parent

theorem writes_writeDocument (machine : Machine) (path text : String) :
    Writes path text machine.files ((writeDocument path text).run.run machine).2.files
      ((writeDocument path text).run.run machine).1 := by
  rw [writeDocument_run, Script.run_bind]
  have made := changes_makeDirectoryOf machine path
  generalize (makeDirectoryOf path).run.run machine = directory at made ⊢
  obtain ⟨failure | _, above⟩ := directory
  · exact .refused made
  · exact (writes_writeNoted above path text).after_directories made

/-- What the writing of both documents comes to. -/
inductive Leaves (compilation : Compilation) (grammarPath documentationPath : String)
    (before after : FileSystem) : Except Failure Unit → Prop
  | written {grammarPlace documentationPlace : Location}
      (grammarLeads : after.target grammarPath = .ok (.entry grammarPlace false))
      (documentationLeads :
        after.target documentationPath = .ok (.entry documentationPlace false))
      (grammar : after.read grammarPath = .ok (if grammarPlace = documentationPlace
        then compilation.documentation else compilation.grammar))
      (documentation : after.read documentationPath = .ok compilation.documentation)
      (others : ∀ location, location ≠ grammarPlace → location ≠ documentationPlace →
        SameFile before after location) :
      Leaves compilation grammarPath documentationPath before after (.ok ())
  | refused {failure : Failure}
      (others : ∀ location, after.target grammarPath ≠ .ok (.entry location false) →
        after.target documentationPath ≠ .ok (.entry location false) →
        SameFile before after location) :
      Leaves compilation grammarPath documentationPath before after (.error failure)

/-- What could be read in a place can be read there after another file has been written, which is
what can be read if it is the file of that place. -/
theorem read_of_replaced {own other : Location} {otherPath replaced : String}
    (holds : between.look path = .ok (own, .file text.toUTF8))
    (changes : Changes (· = other) between after)
    (written : after.look otherPath = .ok (other, .file replaced.toUTF8)) :
    after.read path = .ok (if own = other then replaced else text) := by
  by_cases same : own = other
  · subst same
    rw [if_pos rfl]
    have leads := changes.target (look_eq_file_iff.mp holds).1
    exact read_of_look (look_eq_file_iff.mpr ⟨leads, (look_eq_file_iff.mp written).2⟩)
  · rw [if_neg same]
    exact read_of_look (changes.look same holds)

/-- Both documents are there if nothing has failed, but for a grammar in the place of the
documentation; whether or not anything has failed, no other file has changed. -/
theorem documents_written (compilation : Compilation) (machine : Machine)
    (grammarPath documentationPath : String) :
    Leaves compilation grammarPath documentationPath machine.files
      ((compilation.write grammarPath documentationPath).run.run machine).2.files
      ((compilation.write grammarPath documentationPath).run.run machine).1 := by
  rw [Compilation.write, ExceptT.run_bind, Script.run_bind]
  have first := writes_writeDocument machine grammarPath compilation.grammar
  generalize (writeDocument grammarPath compilation.grammar).run.run machine = ran at first ⊢
  obtain ⟨outcome, between⟩ := ran
  cases first with
  | refused changes => exact .refused fun _ _ _ => sameFile_of_changes changes id
  | written grammar changes =>
      have second := writes_writeDocument between documentationPath compilation.documentation
      dsimp only
      generalize (writeDocument documentationPath compilation.documentation).run.run between = ran
        at second ⊢
      obtain ⟨outcome, after⟩ := ran
      have there := (look_eq_file_iff.mp grammar).1
      cases second with
      | refused later =>
          refine .refused fun location elsewhere _ => sameFile_of_changes
            (changes.trans (later.mono fun _ => False.elim)) ?_
          rintro rfl
          exact elsewhere (later.target there)
      | written documentation later =>
          refine .written (later.target there) (look_eq_file_iff.mp documentation).1
            (read_of_replaced grammar later documentation) (read_of_look documentation)
            fun location other otherThan => ?_
          have both : Changes (fun place => place = _ ∨ place = _) machine.files after.files :=
            (changes.mono fun _ => .inl).trans (later.mono fun _ => .inr)
          exact sameFile_of_changes both (not_or.mpr ⟨other, otherThan⟩)

/-- The documents of one function without parameters. -/
def pingDocuments : Compilation where
  grammar := "root ::= ping\nping ::= \"\x7b\" ws \"\\\"function\\\":\" ws \"\\\"ping\\\",\" ws " ++
    "\"\\\"params\\\":\" ws ping-params \"\x7d\"\nping-params ::= \"\x7b\" ws \"\x7d\""
  documentation := "Available Functions:\n\nping:\n  Description: \n  Parameters: none\n\n"

/-- Two path texts that are written differently can lead to one place: both documents are written,
and the grammar is there no more. -/
theorem grammar_overwritten :
    Compilation.compile [⟨"ping", "", []⟩] "" = .ok pingDocuments ∧
    ∃ after, (pingDocuments.write "out" "./out").run.run ⟨⟨[], []⟩, "", []⟩ = (.ok (), after) ∧
      after.files.read "out" = .ok pingDocuments.documentation ∧
      after.files.read "out" ≠ .ok pingDocuments.grammar := by
  refine ⟨by decide +kernel, _, Prod.ext ?_ rfl, ?_, ?_⟩
  · decide +kernel
  · decide +kernel
  · decide +kernel

end ToolGrammar.CommandLine
