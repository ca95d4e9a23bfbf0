import ToolGrammar.Proofs.CommandLine.Documents
import ToolGrammar.Proofs.Storage.Replacing
import ToolGrammar.Snapshot.Check

namespace ToolGrammar.Snapshot

open Storage Storage.FileSystem
open Schema (ok_of_bind ok_of_pure)

variable {machine after : Machine} {files between last : FileSystem}
  {fixtures directory case name : String} {documents : List Document}

def schemaPath (fixtures case : String) : String :=
  PathText.join (PathText.join fixtures case) "schema.json"

/-- The name is that of a directory with a schema. -/
def isCase (files : FileSystem) (fixtures name : String) : Bool :=
  match files.look (schemaPath fixtures name) with
  | .ok (_, .file _) => true
  | _ => false

theorem isCase_iff : isCase files fixtures name = true ↔
    ∃ location content, files.look (schemaPath fixtures name) = .ok (location, .file content) := by
  unfold isCase
  split
  · rename_i location content looked
    simp [looked]
  · rename_i other
    simpa using other

theorem casesAmong_run (machine : Machine) (fixtures : String) (names : List String) :
    (casesAmong fixtures names).run machine =
      (names.filter (isCase machine.files fixtures), machine) := by
  induction names with
  | nil => rfl
  | cons name rest ih =>
      have asked : (Script.request (.isFile (schemaPath fixtures name))).run machine =
          (isCase machine.files fixtures name, machine) := rfl
      rw [casesAmong, Script.run_bind, ← schemaPath, asked, Script.run_bind, ih, List.filter_cons]
      rfl

/-- The cases that a check goes through. -/
def cases (files : FileSystem) (fixtures : String) : Except AccessError (List String) :=
  (files.list fixtures).map fun names => names.filter (isCase files fixtures)

theorem check_run (bless : Bool) (machine : Machine) (fixtures : String) :
    (check bless fixtures).run machine = match cases machine.files fixtures with
      | .error reason => (⟨[], some (.listing fixtures reason)⟩, machine)
      | .ok names => (checkCases bless fixtures names).run machine := by
  have asked : (Script.request (.list fixtures)).run machine =
      (machine.files.list fixtures, machine) := rfl
  rw [check, Script.run_bind, asked, cases]
  cases machine.files.list fixtures with
  | error reason => rfl
  | ok names =>
      dsimp only
      rw [Script.run_bind, casesAmong_run]
      rfl

/-- The documents of a case, from its schema. -/
def load (files : FileSystem) (fixtures case : String) : Except CheckError (List Document) :=
  (files.read (schemaPath fixtures case)).mapError (.reading case) >>= documentsOf case

/-- What a document is compared with. -/
def storedText (files : FileSystem) (directory : String) (document : Document) : String :=
  match files.read (PathText.join directory document.file) with
  | .ok text => text
  | .error _ => ""

def mismatches (files : FileSystem) (directory : String) (documents : List Document) :
    List (String × Difference) :=
  documents.filterMap fun document =>
    (firstDifference (storedText files directory document) document.text).map (document.file, ·)

theorem compare_run (machine : Machine) (directory : String) (documents : List Document) :
    (compare directory documents).run machine =
      (mismatches machine.files directory documents, machine) := by
  induction documents with
  | nil => rfl
  | cons document rest ih =>
      have read : (stored directory document).run machine =
          (storedText machine.files directory document, machine) := by
        have asked : (Script.request (.read (PathText.join directory document.file))).run machine =
            (machine.files.read (PathText.join directory document.file), machine) := rfl
        rw [stored, Script.run_bind, asked, storedText]
        cases machine.files.read (PathText.join directory document.file) <;> rfl
      rw [compare, Script.run_bind, read, Script.run_bind, ih]
      simp only [mismatches, List.filterMap_cons]
      cases firstDifference (storedText machine.files directory document) document.text <;> rfl

/-- The documents are written one after another. -/
inductive Stores (directory : String) : List Document → FileSystem → FileSystem → Prop
  | nil (files : FileSystem) : Stores directory [] files files
  | cons {document : Document} {rest : List Document} {files between last : FileSystem}
      (written : files.write (PathText.join directory document.file) document.text = .ok between)
      (later : Stores directory rest between last) : Stores directory (document :: rest) files last

theorem storeAll_run_iff : (storeAll directory documents).run.run machine = (.ok (), after) ↔
    ∃ last, Stores directory documents machine.files last ∧
      after = { machine with files := last } := by
  induction documents generalizing machine with
  | nil =>
      constructor
      · intro ran
        cases ran
        exact ⟨_, .nil _, rfl⟩
      · rintro ⟨_, ⟨⟩, rfl⟩
        rfl
  | cons document rest ih =>
      rw [storeAll, ExceptT.run_bind, Script.run_bind]
      have asked : (store directory document).run.run machine =
          ((machine.serve (.write (PathText.join directory document.file) document.text)).1.mapError
              (.writing (PathText.join directory document.file)),
            (machine.serve (.write (PathText.join directory document.file) document.text)).2) := rfl
      rw [asked]
      cases written : machine.files.write (PathText.join directory document.file) document.text with
      | error reason =>
          rw [Script.serve_write_error written]
          constructor
          · intro ran
            cases ran
          · rintro ⟨last, stores, -⟩
            cases stores with
            | cons again => rw [written] at again; cases again
      | ok between =>
          rw [Script.serve_write_ok written]
          refine ih.trans (exists_congr fun last => and_congr_left fun _ => ?_)
          constructor
          · exact .cons written
          · intro stores
            cases stores with
            | cons again later =>
                obtain rfl := Except.ok.inj (written.symm.trans again)
                exact later

/-- A case whose documents are made, and what is done with them. -/
theorem checkCase_run (bless : Bool) (machine : Machine) (fixtures case : String) :
    (checkCase bless fixtures case).run.run machine =
      match load machine.files fixtures case with
      | .error error => (.error error, machine)
      | .ok documents =>
          if bless then
            match (storeAll (PathText.join fixtures case) documents).run.run machine with
            | (.error error, after) => (.error error, after)
            | (.ok (), after) => (.ok ⟨case, []⟩, after)
          else
            (.ok ⟨case, mismatches machine.files (PathText.join fixtures case) documents⟩,
              machine) := by
  have read : (ExceptT.mk do
      return (← Script.request (.read (schemaPath fixtures case))).mapError
        (CheckError.reading case)).run.run machine =
      ((machine.files.read (schemaPath fixtures case)).mapError (.reading case), machine) := rfl
  rw [checkCase, ← schemaPath, ExceptT.run_bind, Script.run_bind, read, load]
  cases machine.files.read (schemaPath fixtures case) with
  | error reason => rfl
  | ok source =>
      have made : (ExceptT.mk (Script.done (documentsOf case source))).run.run machine =
          (documentsOf case source, machine) := rfl
      dsimp only [Except.mapError]
      rw [ExceptT.run_bind, Script.run_bind, made]
      change _ = match documentsOf case source with
        | .error error => _
        | .ok documents => _
      cases documentsOf case source with
      | error error => rfl
      | ok documents =>
          cases bless with
          | true =>
              dsimp only
              rw [if_pos rfl, if_pos rfl, ExceptT.run_bind, Script.run_bind]
              rcases (storeAll (PathText.join fixtures case) documents).run.run machine with
                ⟨error | _, after⟩ <;> rfl
          | false =>
              have compared : (ExceptT.lift (compare (PathText.join fixtures case) documents) :
                  Check _).run.run machine =
                    (.ok (mismatches machine.files (PathText.join fixtures case) documents),
                      machine) := by
                change (liftM (compare (PathText.join fixtures case) documents) :
                  Check _).run.run machine = _
                rw [Script.lift_run, Script.run_bind, compare_run]
                rfl
              dsimp only
              rw [if_neg Bool.false_ne_true, if_neg Bool.false_ne_true, ExceptT.run_bind,
                Script.run_bind, compared]
              rfl

theorem checkCase_bless_iff {outcome : Outcome} :
    (checkCase true fixtures case).run.run machine = (.ok outcome, after) ↔
      outcome = ⟨case, []⟩ ∧ ∃ documents last, load machine.files fixtures case = .ok documents ∧
        Stores (PathText.join fixtures case) documents machine.files last ∧
        after = { machine with files := last } := by
  rw [checkCase_run]
  cases loaded : load machine.files fixtures case with
  | error error => simp
  | ok documents =>
      have only : (∃ own last, (.ok documents : Except CheckError (List Document)) = .ok own ∧
          Stores (PathText.join fixtures case) own machine.files last ∧
          after = { machine with files := last }) ↔
            (storeAll (PathText.join fixtures case) documents).run.run machine =
              (.ok (), after) := by
        simp [storeAll_run_iff]
      rw [only]
      dsimp only [if_true]
      generalize (storeAll (PathText.join fixtures case) documents).run.run machine = ran
      obtain ⟨error | _, last⟩ := ran <;> simp [@eq_comm _ outcome]

theorem checkCases_cons_run (bless : Bool) (machine : Machine) (fixtures case : String)
    (rest : List String) :
    (checkCases bless fixtures (case :: rest)).run machine =
      match (checkCase bless fixtures case).run.run machine with
      | (.error error, after) => (⟨[], some error⟩, after)
      | (.ok outcome, after) =>
          let (report, last) := (checkCases bless fixtures rest).run after
          (⟨outcome :: report.outcomes, report.error⟩, last) := by
  rw [checkCases, Script.run_bind]
  rcases (checkCase bless fixtures case).run.run machine with ⟨error | outcome, after⟩
  · rfl
  · dsimp only
    rw [Script.run_bind]
    rfl

/-- The cases are settled one after another, each from its schema as it is then. -/
inductive Blesses (fixtures : String) : List String → FileSystem → FileSystem → Prop
  | nil (files : FileSystem) : Blesses fixtures [] files files
  | cons {case : String} {rest : List String} {documents : List Document}
      {files between last : FileSystem} (loaded : load files fixtures case = .ok documents)
      (stores : Stores (PathText.join fixtures case) documents files between)
      (later : Blesses fixtures rest between last) : Blesses fixtures (case :: rest) files last

/-- Blessing that comes to its end has settled every case. -/
theorem exists_blesses {names : List String}
    (ended : ((checkCases true fixtures names).run machine).1.error = none) :
    ∃ last, Blesses fixtures names machine.files last := by
  induction names generalizing machine with
  | nil => exact ⟨_, .nil _⟩
  | cons case rest ih =>
      rw [checkCases_cons_run] at ended
      rcases ran : (checkCase true fixtures case).run.run machine with ⟨error | outcome, after⟩
      · rw [ran] at ended
        cases ended
      · rw [ran] at ended
        obtain ⟨-, documents, between, loaded, stores, rfl⟩ := checkCase_bless_iff.mp ran
        obtain ⟨last, later⟩ := ih ended
        exact ⟨last, .cons loaded stores later⟩

theorem run_of_blesses {names : List String} {last : FileSystem}
    (blesses : Blesses fixtures names machine.files last) :
    (checkCases true fixtures names).run machine =
      (⟨names.map (⟨·, []⟩), none⟩, { machine with files := last }) := by
  generalize start : machine.files = files at blesses
  induction blesses generalizing machine with
  | nil =>
      subst start
      rfl
  | @cons case rest documents files between last loaded stores later ih =>
      subst start
      have ran := checkCase_bless_iff.mpr ⟨rfl, documents, between, loaded, stores, rfl⟩
      rw [checkCases_cons_run, ran]
      dsimp only
      rw [ih rfl]
      rfl

/-- What a case comes to in a check that compares. -/
def outcomeOf (files : FileSystem) (fixtures case : String) : Except CheckError Outcome :=
  (load files fixtures case).map fun documents =>
    ⟨case, mismatches files (PathText.join fixtures case) documents⟩

theorem checkCase_compare_run (machine : Machine) (fixtures case : String) :
    (checkCase false fixtures case).run.run machine =
      (outcomeOf machine.files fixtures case, machine) := by
  rw [checkCase_run, outcomeOf]
  cases load machine.files fixtures case <;> rfl

theorem checkCases_compare_machine (machine : Machine) (fixtures : String) (names : List String) :
    ((checkCases false fixtures names).run machine).2 = machine := by
  induction names with
  | nil => rfl
  | cons case rest ih =>
      rw [checkCases_cons_run, checkCase_compare_run]
      cases outcomeOf machine.files fixtures case with
      | error error => rfl
      | ok outcome => exact ih

/-- What a check that compares tells of these cases. -/
def Tells (files : FileSystem) (fixtures : String) : List String → List Outcome → Prop :=
  List.Forall₂ fun case outcome => outcomeOf files fixtures case = .ok outcome

theorem checkCases_compare_run {names : List String} {outcomes : List Outcome}
    (tells : Tells machine.files fixtures names outcomes) :
    (checkCases false fixtures names).run machine = (⟨outcomes, none⟩, machine) := by
  induction tells with
  | nil => rfl
  | cons found _ ih =>
      rw [checkCases_cons_run, checkCase_compare_run, found]
      dsimp only
      rw [ih]

end ToolGrammar.Snapshot
