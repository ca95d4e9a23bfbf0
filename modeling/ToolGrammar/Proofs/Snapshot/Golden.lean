import ToolGrammar.Proofs.Snapshot.Runs
import ToolGrammar.Proofs.Storage.Entries

namespace ToolGrammar.Snapshot

open Storage Storage.FileSystem
open Schema (ok_of_bind ok_of_pure ok_of_map ok_of_mapError FunctionSpec)

/-- A file that a case stores a document in. -/
def documentFiles : List String :=
  ["expected.gbnf", "expected.txt"]

/-- The schema of the case declares these functions, and this is their grammar. -/
structure Loads (files : FileSystem) (fixtures case : String) (functions : List FunctionSpec)
    (grammar : Grammar) : Prop where
  source : ∃ text value, files.read (schemaPath fixtures case) = .ok text ∧
    Json.Value.ofText text = .ok value ∧ Schema.FromValue.document value = .ok functions
  compiled : Grammar.compile functions = .ok grammar

def documentsFor (functions : List FunctionSpec) (grammar : Grammar) : List Document :=
  [⟨"expected.gbnf", grammar.render ++ "\n"⟩, ⟨"expected.txt", Documentation.render functions⟩]

variable {machine : Machine} {files before between after : FileSystem}
  {fixtures case path text : String} {here location : Location}
  {documents others : List Document} {document : Document}

theorem load_eq_ok : load files fixtures case = .ok documents ↔ ∃ functions grammar,
    Loads files fixtures case functions grammar ∧ documents = documentsFor functions grammar := by
  simp only [load, documentsOf, ok_of_bind, ok_of_mapError, ok_of_pure]
  constructor
  · rintro ⟨text, read, value, parsed, functions, decoded, grammar, compiled, rfl⟩
    exact ⟨functions, grammar, ⟨⟨text, value, read, parsed, decoded⟩, compiled⟩, rfl⟩
  · rintro ⟨functions, grammar, ⟨⟨text, value, read, parsed, decoded⟩, compiled⟩, rfl⟩
    exact ⟨text, read, value, parsed, functions, decoded, grammar, compiled, rfl⟩

theorem file_of_load (loaded : load files fixtures case = .ok documents)
    (member : document ∈ documents) : document.file ∈ documentFiles := by
  obtain ⟨functions, grammar, -, rfl⟩ := load_eq_ok.mp loaded
  simp only [documentsFor, List.mem_cons, List.not_mem_nil, or_false] at member
  rcases member with rfl | rfl <;> simp [documentFiles]

theorem exists_document {file : String} (loaded : load files fixtures case = .ok documents)
    (known : file ∈ documentFiles) : ∃ document ∈ documents, document.file = file := by
  obtain ⟨functions, grammar, -, rfl⟩ := load_eq_ok.mp loaded
  simpa [documentsFor, documentFiles, eq_comm] using known

/-- A case has one document for each file. -/
theorem document_unique {again : Document} (loaded : load files fixtures case = .ok documents)
    (member : document ∈ documents) (memberAgain : again ∈ documents)
    (same : document.file = again.file) : document = again := by
  obtain ⟨functions, grammar, -, rfl⟩ := load_eq_ok.mp loaded
  simp only [documentsFor, List.mem_cons, List.not_mem_nil, or_false] at member memberAgain
  rcases member with rfl | rfl <;> rcases memberAgain with rfl | rfl <;> simp_all

/-- No document is empty: both end in a line feed. -/
theorem text_ne_empty (loaded : load files fixtures case = .ok documents)
    (member : document ∈ documents) : document.text ≠ "" := by
  obtain ⟨functions, grammar, -, rfl⟩ := load_eq_ok.mp loaded
  simp only [documentsFor, List.mem_cons, List.not_mem_nil, or_false] at member
  rcases member with rfl | rfl <;> simp [Documentation.render]

/-- The file that the path text leads to holds the text, byte for byte. -/
def Holds (files : FileSystem) (path text : String) : Prop :=
  ∃ location, files.look path = .ok (location, .file text.toUTF8)

theorem holds_iff_read : Holds files path text ↔ files.read path = .ok text := by
  rw [read_eq_ok_iff_look]
  constructor
  · rintro ⟨location, looked⟩
    exact ⟨location, _, looked, CommandLine.fromUTF8?_toUTF8 text⟩
  · rintro ⟨location, content, looked, decoded⟩
    obtain rfl : text.toUTF8 = content := by
      unfold String.fromUTF8? at decoded
      split at decoded
      · cases decoded
        rfl
      · cases decoded
    exact ⟨location, looked⟩

/-- A document that is not empty is found as it should be just if it is there. -/
theorem storedText_eq_iff {directory : String} (some : document.text ≠ "") :
    storedText files directory document = document.text ↔
      Holds files (PathText.join directory document.file) document.text := by
  rw [holds_iff_read, storedText]
  cases read : files.read (PathText.join directory document.file) with
  | ok text => simp
  | error reason => simp [some.symm]

theorem mismatches_eq_nil_iff {directory : String} (some : ∀ document ∈ documents,
    document.text ≠ "") : mismatches files directory documents = [] ↔ ∀ document ∈ documents,
      Holds files (PathText.join directory document.file) document.text := by
  rw [mismatches, List.filterMap_eq_nil_iff]
  refine forall₂_congr fun document member => ?_
  rw [Option.map_eq_none_iff, firstDifference_eq_none, storedText_eq_iff (some document member)]

/-- What cannot be read differs from a document that is not empty. -/
theorem mismatch_of_unread {directory : String} (member : document ∈ documents)
    (some : document.text ≠ "")
    (unread : ∀ text, files.read (PathText.join directory document.file) ≠ .ok text) :
    ∃ difference, (document.file, difference) ∈ mismatches files directory documents := by
  have empty : storedText files directory document = "" := by
    rw [storedText]
    split
    · rename_i text read
      exact absurd read (unread text)
    · rfl
  obtain ⟨difference, found⟩ : ∃ difference, firstDifference (storedText files directory document)
      document.text = .some difference := by
    rw [← Option.ne_none_iff_exists', ne_eq, firstDifference_eq_none, empty]
    exact some.symm
  exact ⟨difference, List.mem_filterMap.mpr ⟨document, member, by rw [found]; rfl⟩⟩

/-- All documents of the case are there. -/
def Settled (files : FileSystem) (fixtures case : String) : Prop :=
  ∃ documents, load files fixtures case = .ok documents ∧ ∀ document ∈ documents,
    Holds files (PathText.join (PathText.join fixtures case) document.file) document.text

/-- The place of a document of some case, `here` being that of the fixtures. -/
def DocumentPlace (here location : Location) : Prop :=
  ∃ case, ∃ file ∈ documentFiles, location = here ++ [case, file]

/-- Every name is one that an entry of a directory can have. -/
def Named (files : FileSystem) : Prop :=
  ∀ entry ∈ files.nodes, ∀ name ∈ entry.1, PathText.Entry name

theorem entry_of_mem_documentFiles : ∀ file ∈ documentFiles, PathText.Entry file := by
  unfold documentFiles
  decide

theorem entry_schema : PathText.Entry "schema.json" := by
  decide

theorem Named.children (named : Named files) {name : String}
    (member : name ∈ files.children here) : PathText.Entry name := by
  obtain ⟨⟨location, node⟩, listed, found⟩ := List.mem_filterMap.mp member
  unfold childName? at found
  split at found
  · exact named _ listed name (List.mem_of_getLast? found)
  · cases found

/-- What the path text of a file of a case leads to, if it leads anywhere. -/
theorem location_of_target {file : String} {opened : Bool}
    (fixturesLook : files.look fixtures = .ok (here, .directory)) (caseEntry : PathText.Entry case)
    (fileEntry : PathText.Entry file)
    (leads : files.target (PathText.join (PathText.join fixtures case) file) =
      .ok (.entry location opened)) : location = here ++ [case, file] := by
  by_cases proper : PathText.Proper (PathText.join (PathText.join fixtures case) file)
  swap
  · obtain ⟨reason, failed, -⟩ := target_of_improper files proper
    rw [failed] at leads
    cases leads
  have walked := walk_of_look fixturesLook
  have sameStart : files.start (PathText.join (PathText.join fixtures case) file) =
      files.start fixtures := by
    rw [FileSystem.start, FileSystem.start, fileEntry.isAbsolute_join, caseEntry.isAbsolute_join]
  rw [target_of_name files proper (fileEntry.names_join _) fileEntry.here fileEntry.up,
    caseEntry.names_join, List.foldlM_append, sameStart, walked] at leads
  obtain ⟨above, later, same⟩ := ok_of_bind.mp leads
  have entered : files.enter here case = .ok above := by simpa using later
  obtain ⟨rfl, -, -⟩ := (enter_eq_ok caseEntry.here caseEntry.up).mp entered
  obtain ⟨rfl, -⟩ := Target.entry.inj (ok_of_pure.mp same)
  simp

/-- The schema of a case is not in the place of a document. -/
theorem not_documentPlace_schema {content : ByteArray}
    (looked : files.look (schemaPath fixtures case) = .ok (location, .file content)) :
    ¬ DocumentPlace here location := by
  have last := getLast?_of_target (look_eq_file_iff.mp looked).1
  rw [schemaPath, entry_schema.names_join] at last
  rintro ⟨other, file, member, rfl⟩
  obtain rfl : file = "schema.json" := by simpa using last
  simp [documentFiles] at member

/-- Only documents have been stored, and the fixtures have the same entries. -/
structure Keeps (fixtures : String) (here : Location) (before after : FileSystem) : Prop where
  look : before.look fixtures = .ok (here, .directory)
  replaces : Replaces (DocumentPlace here) before after
  children : after.children here = before.children here

theorem Keeps.refl (look : files.look fixtures = .ok (here, .directory)) :
    Keeps fixtures here files files :=
  ⟨look, .refl _ files, rfl⟩

theorem Keeps.lookAfter (keeps : Keeps fixtures here before after) :
    after.look fixtures = .ok (here, .directory) :=
  keeps.replaces.forth.look_directory keeps.look

theorem Keeps.trans (first : Keeps fixtures here before between)
    (second : Keeps fixtures here between after) : Keeps fixtures here before after :=
  ⟨first.look, first.replaces.trans second.replaces, second.children.trans first.children⟩

theorem Keeps.look_schema_iff (keeps : Keeps fixtures here before after) {content : ByteArray} :
    after.look (schemaPath fixtures case) = .ok (location, .file content) ↔
      before.look (schemaPath fixtures case) = .ok (location, .file content) :=
  ⟨fun looked => keeps.replaces.back.look (not_documentPlace_schema looked) looked,
    fun looked => keeps.replaces.forth.look (not_documentPlace_schema looked) looked⟩

theorem Keeps.loads_iff (keeps : Keeps fixtures here before after) {functions : List FunctionSpec}
    {grammar : Grammar} : Loads after fixtures case functions grammar ↔
      Loads before fixtures case functions grammar := by
  have read (text : String) : after.read (schemaPath fixtures case) = .ok text ↔
      before.read (schemaPath fixtures case) = .ok text := by
    simp only [read_eq_ok_iff_look, keeps.look_schema_iff]
  constructor
  · rintro ⟨⟨text, value, found, rest⟩, compiled⟩
    exact ⟨⟨text, value, (read text).mp found, rest⟩, compiled⟩
  · rintro ⟨⟨text, value, found, rest⟩, compiled⟩
    exact ⟨⟨text, value, (read text).mpr found, rest⟩, compiled⟩

theorem Keeps.load_iff (keeps : Keeps fixtures here before after) :
    load after fixtures case = .ok documents ↔ load before fixtures case = .ok documents := by
  simp only [load_eq_ok, keeps.loads_iff]

theorem Keeps.cases_eq (keeps : Keeps fixtures here before after) :
    cases after fixtures = cases before fixtures := by
  have same (name : String) : isCase after fixtures name = isCase before fixtures name := by
    rw [Bool.eq_iff_iff, isCase_iff, isCase_iff]
    simp only [keeps.look_schema_iff]
  rw [cases, cases, list_eq_ok.mpr ⟨here, keeps.lookAfter, rfl⟩,
    list_eq_ok.mpr ⟨here, keeps.look, rfl⟩, keeps.children, funext same]

/-- One document is stored. -/
theorem keeps_write (look : before.look fixtures = .ok (here, .directory))
    (caseEntry : PathText.Entry case) (file : document.file ∈ documentFiles)
    (written : before.write (PathText.join (PathText.join fixtures case) document.file)
      document.text = .ok after) : Keeps fixtures here before after := by
  obtain ⟨location, leads, -, rfl, replaces⟩ := write_replaces written
  obtain rfl := location_of_target look caseEntry (entry_of_mem_documentFiles _ file) leads
  refine ⟨look, replaces.mono fun _ same => ⟨case, document.file, file, same⟩, children_put ?_⟩
  simp [childName?]

/-- Documents that are there stay there, too. -/
structure Preserves (fixtures : String) (here : Location) (before after : FileSystem) : Prop where
  keeps : Keeps fixtures here before after
  holds : ∀ case documents, PathText.Entry case → load before fixtures case = .ok documents →
    ∀ document ∈ documents,
      Holds before (PathText.join (PathText.join fixtures case) document.file) document.text →
      Holds after (PathText.join (PathText.join fixtures case) document.file) document.text

theorem Preserves.refl (look : files.look fixtures = .ok (here, .directory)) :
    Preserves fixtures here files files :=
  ⟨.refl look, fun _ _ _ _ _ _ => id⟩

theorem Preserves.trans (first : Preserves fixtures here before between)
    (second : Preserves fixtures here between after) : Preserves fixtures here before after := by
  refine ⟨first.keeps.trans second.keeps,
    fun case documents entry loaded document member holds => ?_⟩
  exact second.holds case documents entry (first.keeps.load_iff.mpr loaded) document member
    (first.holds case documents entry loaded document member holds)

theorem Preserves.settled (preserves : Preserves fixtures here before after)
    (entry : PathText.Entry case) (settled : Settled before fixtures case) :
    Settled after fixtures case := by
  obtain ⟨documents, loaded, each⟩ := settled
  exact ⟨documents, preserves.keeps.load_iff.mpr loaded, fun document member =>
    preserves.holds case documents entry loaded document member (each document member)⟩

/-- A document that is there stays there while one is stored: where both are in one place, they are
the same document of the same case. -/
theorem preserves_write (look : before.look fixtures = .ok (here, .directory))
    (entry : PathText.Entry case) (loaded : load before fixtures case = .ok documents)
    (member : document ∈ documents)
    (written : before.write (PathText.join (PathText.join fixtures case) document.file)
      document.text = .ok after) : Preserves fixtures here before after := by
  have file := file_of_load loaded member
  refine ⟨keeps_write look entry file written,
    fun other others entryOther loadedOther again memberOther holds => ?_⟩
  obtain ⟨location, looked⟩ := holds
  obtain ⟨place, leads, lookedAfter, -, replaces⟩ := write_replaces written
  by_cases same : location = place
  · subst same
    have fileOther := file_of_load loadedOther memberOther
    obtain rfl := location_of_target look entry (entry_of_mem_documentFiles _ file) leads
    have whole := location_of_target look entryOther (entry_of_mem_documentFiles _ fileOther)
      (look_eq_file_iff.mp looked).1
    obtain ⟨rfl, sameFile⟩ : case = other ∧ document.file = again.file := by simpa using whole
    obtain rfl := Except.ok.inj (loaded.symm.trans loadedOther)
    obtain rfl := document_unique loaded member memberOther sameFile
    exact ⟨_, lookedAfter⟩
  · exact ⟨location, replaces.forth.look same looked⟩

/-- Some documents of a case are stored, and are there then. -/
theorem stores_preserves (stores : Stores (PathText.join fixtures case) documents before after)
    (look : before.look fixtures = .ok (here, .directory)) (entry : PathText.Entry case)
    (loaded : load before fixtures case = .ok others)
    (within : ∀ document ∈ documents, document ∈ others) :
    Preserves fixtures here before after ∧ ∀ document ∈ documents,
      Holds after (PathText.join (PathText.join fixtures case) document.file) document.text := by
  induction stores with
  | nil files => exact ⟨.refl look, by simp⟩
  | @cons document rest files between last written later ih =>
      obtain ⟨member, within⟩ := List.forall_mem_cons.mp within
      have first := preserves_write look entry loaded member written
      have loadedNow := first.keeps.load_iff.mpr loaded
      obtain ⟨second, there⟩ := ih first.keeps.lookAfter loadedNow within
      obtain ⟨location, -, looked, -⟩ := write_replaces written
      have head := second.holds case others entry loadedNow document member ⟨location, looked⟩
      exact ⟨first.trans second, List.forall_mem_cons.mpr ⟨head, there⟩⟩

/-- All cases are settled one after another, and are so then. -/
theorem blesses_preserves {names : List String} (blesses : Blesses fixtures names before after)
    (look : before.look fixtures = .ok (here, .directory))
    (entries : ∀ name ∈ names, PathText.Entry name) :
    Preserves fixtures here before after ∧ ∀ case ∈ names, Settled after fixtures case := by
  induction blesses with
  | nil files => exact ⟨.refl look, by simp⟩
  | @cons case rest documents files between last loaded stores later ih =>
      obtain ⟨entry, entries⟩ := List.forall_mem_cons.mp entries
      obtain ⟨first, there⟩ := stores_preserves stores look entry loaded fun _ => id
      have settled : Settled between fixtures case :=
        ⟨documents, first.keeps.load_iff.mpr loaded, there⟩
      obtain ⟨second, others⟩ := ih first.keeps.lookAfter entries
      exact ⟨first.trans second,
        List.forall_mem_cons.mpr ⟨second.settled entry settled, others⟩⟩

theorem stores_of_holds {directory : String} (each : ∀ document ∈ documents,
    Holds files (PathText.join directory document.file) document.text) :
    Stores directory documents files files := by
  induction documents with
  | nil => exact .nil files
  | cons document rest ih =>
      obtain ⟨⟨location, looked⟩, each⟩ := List.forall_mem_cons.mp each
      exact .cons (write_of_look looked) (ih each)

/-- Where all cases are settled, storing their documents changes nothing. -/
theorem blesses_of_settled {names : List String}
    (settled : ∀ case ∈ names, Settled files fixtures case) :
    Blesses fixtures names files files := by
  induction names with
  | nil => exact .nil files
  | cons case rest ih =>
      obtain ⟨⟨documents, loaded, each⟩, settled⟩ := List.forall_mem_cons.mp settled
      exact .cons loaded (stores_of_holds each) (ih settled)

theorem outcomeOf_of_settled (settled : Settled files fixtures case) :
    outcomeOf files fixtures case = .ok ⟨case, []⟩ := by
  obtain ⟨documents, loaded, each⟩ := settled
  have none := (mismatches_eq_nil_iff fun document => text_ne_empty loaded).mpr each
  rw [outcomeOf, loaded, Except.map, none]

theorem exists_tells {names : List String}
    (loaded : ∀ case ∈ names, ∃ documents, load files fixtures case = .ok documents) :
    ∃ outcomes, Tells files fixtures names outcomes := by
  induction names with
  | nil => exact ⟨[], .nil⟩
  | cons case rest ih =>
      obtain ⟨⟨documents, loaded⟩, later⟩ := List.forall_mem_cons.mp loaded
      obtain ⟨outcomes, tells⟩ := ih later
      exact ⟨_, .cons (by rw [outcomeOf, loaded]; rfl) tells⟩

theorem tells_of_settled {names : List String}
    (settled : ∀ case ∈ names, Settled files fixtures case) :
    Tells files fixtures names (names.map (⟨·, []⟩)) := by
  rw [Tells, List.forall₂_map_right_iff, List.forall₂_same]
  exact fun case member => outcomeOf_of_settled (settled case member)

theorem clean_iff_settled {outcome : Outcome}
    (found : outcomeOf files fixtures case = .ok outcome) :
    outcome.mismatches = [] ↔ Settled files fixtures case := by
  obtain ⟨documents, loaded, rfl⟩ := ok_of_map.mp found
  rw [mismatches_eq_nil_iff fun document => text_ne_empty loaded]
  constructor
  · exact fun each => ⟨documents, loaded, each⟩
  · rintro ⟨others, again, each⟩
    obtain rfl := Except.ok.inj (loaded.symm.trans again)
    exact each

theorem Tells.passed_iff {names : List String} {outcomes : List Outcome}
    (tells : Tells files fixtures names outcomes) :
    (⟨outcomes, none⟩ : Report).passed = true ↔ ∀ case ∈ names, Settled files fixtures case := by
  simp only [Report.passed, Option.isNone_none, Bool.true_and, List.all_eq_true,
    List.isEmpty_iff]
  induction tells with
  | nil => simp
  | cons found _ ih => rw [List.forall_mem_cons, List.forall_mem_cons, ih, clean_iff_settled found]

theorem Tells.exists_outcome {names : List String} {outcomes : List Outcome}
    (tells : Tells files fixtures names outcomes) (member : case ∈ names) :
    ∃ outcome ∈ outcomes, outcomeOf files fixtures case = .ok outcome := by
  induction tells with
  | nil => cases member
  | @cons first outcome rest others found _ ih =>
      rcases List.mem_cons.mp member with rfl | later
      · exact ⟨outcome, List.mem_cons_self, found⟩
      · obtain ⟨own, inside, same⟩ := ih later
        exact ⟨own, List.mem_cons_of_mem _ inside, same⟩

/-- The name is listed among the fixtures, and is that of a directory with a schema. -/
def CaseOf (files : FileSystem) (fixtures case : String) : Prop :=
  ∃ names, files.list fixtures = .ok names ∧ case ∈ names ∧
    ∃ location content, files.look (schemaPath fixtures case) = .ok (location, .file content)

/-- Every case has a schema that declares functions with a grammar. -/
def EveryCaseLoads (files : FileSystem) (fixtures : String) : Prop :=
  ∀ case, CaseOf files fixtures case →
    ∃ functions grammar, Loads files fixtures case functions grammar

theorem mem_cases_iff {names : List String} (listed : cases files fixtures = .ok names) :
    case ∈ names ↔ CaseOf files fixtures case := by
  obtain ⟨all, found, rfl⟩ := ok_of_map.mp listed
  rw [List.mem_filter, isCase_iff, CaseOf, found]
  simp

/-- A check of either kind of cases that are settled finds all as it should be. -/
theorem check_of_settled {names : List String} (bless : Bool)
    (listed : cases machine.files fixtures = .ok names)
    (settled : ∀ case ∈ names, Settled machine.files fixtures case) :
    (check bless fixtures).run machine = (⟨names.map (⟨·, []⟩), none⟩, machine) := by
  rw [check_run, listed]
  cases bless with
  | true => exact run_of_blesses (blesses_of_settled settled)
  | false => exact checkCases_compare_run (tells_of_settled settled)

/-- Storing that comes to its end settles all cases, and the cases are the same then. -/
theorem settled_of_ended (named : Named machine.files)
    (ended : ((check true fixtures).run machine).1.error = none) : ∃ names last,
      (check true fixtures).run machine =
        (⟨names.map (⟨·, []⟩), none⟩, { machine with files := last }) ∧
      cases last fixtures = .ok names ∧ ∀ case ∈ names, Settled last fixtures case := by
  rw [check_run] at ended ⊢
  cases listed : cases machine.files fixtures with
  | error reason =>
      rw [listed] at ended
      cases ended
  | ok names =>
      rw [listed] at ended
      obtain ⟨all, found, rfl⟩ := ok_of_map.mp listed
      obtain ⟨here, look, rfl⟩ := list_eq_ok.mp found
      obtain ⟨last, blesses⟩ := exists_blesses ended
      have entries (name : String) (member : name ∈ ((machine.files.children here).mergeSort
          fun a b => a ≤ b).filter (isCase machine.files fixtures)) : PathText.Entry name :=
        named.children (List.mem_mergeSort.mp (List.mem_of_mem_filter member))
      obtain ⟨preserves, settled⟩ := blesses_preserves blesses look entries
      exact ⟨_, last, run_of_blesses blesses, preserves.keeps.cases_eq.trans listed, settled⟩

/-- Where every case can be loaded, a check that compares comes to its end. -/
theorem check_tells {names : List String} (listed : cases machine.files fixtures = .ok names)
    (loaded : EveryCaseLoads machine.files fixtures) : ∃ outcomes,
      Tells machine.files fixtures names outcomes ∧
        (check false fixtures).run machine = (⟨outcomes, none⟩, machine) := by
  obtain ⟨outcomes, tells⟩ : ∃ outcomes, Tells machine.files fixtures names outcomes := by
    refine exists_tells fun case member => ?_
    obtain ⟨functions, grammar, loads⟩ := loaded case ((mem_cases_iff listed).mp member)
    exact ⟨_, load_eq_ok.mpr ⟨functions, grammar, loads, rfl⟩⟩
  refine ⟨outcomes, tells, ?_⟩
  rw [check_run, listed]
  exact checkCases_compare_run tells

theorem settled_iff {functions : List FunctionSpec} {grammar : Grammar}
    (loads : Loads files fixtures case functions grammar) : Settled files fixtures case ↔
      Holds files (PathText.join (PathText.join fixtures case) "expected.gbnf")
        (grammar.render ++ "\n") ∧
      Holds files (PathText.join (PathText.join fixtures case) "expected.txt")
        (Documentation.render functions) := by
  have loaded := load_eq_ok.mpr ⟨functions, grammar, loads, rfl⟩
  simp [Settled, loaded, documentsFor]

/-- Checks of the fixtures before and after their documents have been stored. -/
structure Golden (machine : Machine) (fixtures : String) : Prop where
  /-- Once documents have been stored without an error, checks of either kind find all as it should
  be and leave all as it is. -/
  blessed : Named machine.files → ((check true fixtures).run machine).1.error = none →
    ((check true fixtures).run machine).1.passed = true ∧
    ∀ bless, (check bless fixtures).run ((check true fixtures).run machine).2 =
      (check true fixtures).run machine
  /-- Where every case can be loaded, a check passes just if every document is there. -/
  passed_iff : (∃ names, machine.files.list fixtures = .ok names) →
    EveryCaseLoads machine.files fixtures →
      (((check false fixtures).run machine).1.passed = true ↔
        ∀ case functions grammar, CaseOf machine.files fixtures case →
          Loads machine.files fixtures case functions grammar →
            Holds machine.files (PathText.join (PathText.join fixtures case) "expected.gbnf")
              (grammar.render ++ "\n") ∧
            Holds machine.files (PathText.join (PathText.join fixtures case) "expected.txt")
              (Documentation.render functions))
  /-- A document that is missing or cannot be read is always told of. -/
  unread : EveryCaseLoads machine.files fixtures → ∀ case, CaseOf machine.files fixtures case →
    ∀ file ∈ documentFiles,
      (∀ text, machine.files.read (PathText.join (PathText.join fixtures case) file) ≠ .ok text) →
        ∃ outcome ∈ ((check false fixtures).run machine).1.outcomes, outcome.case = case ∧
          ∃ difference, (file, difference) ∈ outcome.mismatches
  /-- A check that compares changes nothing. -/
  unchanged : ((check false fixtures).run machine).2 = machine

theorem blessed_fixtures (machine : Machine) (fixtures : String) : Golden machine fixtures where
  blessed named ended := by
    obtain ⟨names, last, ran, listed, settled⟩ := settled_of_ended named ended
    rw [ran]
    refine ⟨by simp [Report.passed], fun bless => ?_⟩
    exact @check_of_settled { machine with files := last } fixtures names bless listed settled
  passed_iff listed loaded := by
    obtain ⟨all, listed⟩ := listed
    have found : cases machine.files fixtures = .ok _ := ok_of_map.mpr ⟨all, listed, rfl⟩
    obtain ⟨outcomes, tells, ran⟩ := check_tells found loaded
    rw [ran, tells.passed_iff]
    constructor
    · exact fun settled case functions grammar isCase loads =>
        (settled_iff loads).mp (settled case ((mem_cases_iff found).mpr isCase))
    · intro there case member
      have isCase := (mem_cases_iff found).mp member
      obtain ⟨functions, grammar, loads⟩ := loaded case isCase
      exact (settled_iff loads).mpr (there case functions grammar isCase loads)
  unread loaded case isCase file known unread := by
    obtain ⟨all, listed, -⟩ := id isCase
    have found : cases machine.files fixtures = .ok _ := ok_of_map.mpr ⟨all, listed, rfl⟩
    obtain ⟨outcomes, tells, ran⟩ := check_tells found loaded
    obtain ⟨outcome, told, own⟩ := tells.exists_outcome ((mem_cases_iff found).mpr isCase)
    obtain ⟨documents, load, rfl⟩ := ok_of_map.mp own
    obtain ⟨document, member, rfl⟩ := exists_document load known
    rw [ran]
    exact ⟨_, told, rfl, mismatch_of_unread member (text_ne_empty load member) unread⟩
  unchanged := by
    rw [check_run]
    cases cases machine.files fixtures with
    | error reason => rfl
    | ok names => exact checkCases_compare_machine machine fixtures names

/-- A case with a stale document, and one without any. -/
def beaconMachine : Machine where
  files :=
    { current := []
      nodes := [
        (["fixtures"], .directory),
        (["fixtures", "dim"], .directory),
        (["fixtures", "dim", "schema.json"],
          .file "\x7b\"name\":\"dim\",\"parameters\":\x7b\x7d\x7d".toUTF8),
        (["fixtures", "dim", "expected.gbnf"], .file "root ::= dim\n".toUTF8),
        (["fixtures", "flash"], .directory),
        (["fixtures", "flash", "schema.json"],
          .file ("\x7b\"name\":\"flash\"," ++
            "\"parameters\":\x7b\"times\":[\"integer\"]\x7d\x7d").toUTF8)] }
  printed := ""
  events := []

theorem blessed_fixtures_beacon :
    Named beaconMachine.files ∧ ((check true "fixtures").run beaconMachine).1.error = none ∧
    ((check false "fixtures").run beaconMachine).1.passed = false ∧
    (∃ case functions grammar, Loads beaconMachine.files "fixtures" case functions grammar ∧
      ¬ (Holds beaconMachine.files (PathText.join (PathText.join "fixtures" case) "expected.gbnf")
          (grammar.render ++ "\n") ∧
        Holds beaconMachine.files (PathText.join (PathText.join "fixtures" case) "expected.txt")
          (Documentation.render functions))) ∧
    (∃ outcome ∈ ((check false "fixtures").run beaconMachine).1.outcomes,
      outcome.case = "flash" ∧ ∃ difference, ("expected.gbnf", difference) ∈ outcome.mismatches) ∧
    ((check true "fixtures").run beaconMachine).1.passed = true ∧
    ∀ bless, (check bless "fixtures").run ((check true "fixtures").run beaconMachine).2 =
      (check true "fixtures").run beaconMachine := by
  have golden := blessed_fixtures beaconMachine "fixtures"
  have named : Named beaconMachine.files := by
    unfold Named
    decide
  have listed : beaconMachine.files.list "fixtures" = .ok ["dim", "flash"] :=
    list_eq_ok.mpr ⟨["fixtures"], rfl, (List.mergeSort_of_pairwise (by decide)).symm⟩
  have found : cases beaconMachine.files "fixtures" = .ok ["dim", "flash"] :=
    ok_of_map.mpr ⟨_, listed, by decide +kernel⟩
  have ended : ((check true "fixtures").run beaconMachine).1.error = none := by
    rw [check_run, found]
    decide +kernel
  have failed : ((check false "fixtures").run beaconMachine).1.passed = false := by
    rw [check_run, found]
    decide +kernel
  have loads : ∀ case ∈ ["dim", "flash"],
      ((load beaconMachine.files "fixtures" case).map fun _ => ()) = .ok () := by decide +kernel
  have loaded : EveryCaseLoads beaconMachine.files "fixtures" := by
    rintro case ⟨names, again, member, -⟩
    obtain rfl := Except.ok.inj (listed.symm.trans again)
    obtain ⟨documents, made, -⟩ := ok_of_map.mp (loads case member)
    obtain ⟨functions, grammar, loads, -⟩ := load_eq_ok.mp made
    exact ⟨functions, grammar, loads⟩
  have isCase : CaseOf beaconMachine.files "fixtures" "flash" :=
    ⟨_, listed, by decide, _, _, rfl⟩
  have unread : beaconMachine.files.read
      (PathText.join (PathText.join "fixtures" "flash") "expected.gbnf") = .error .missing := by
    decide +kernel
  refine ⟨named, ended, failed, ?_, ?_, golden.blessed named ended⟩
  · by_contra all
    push Not at all
    rw [(golden.passed_iff ⟨_, listed⟩ loaded).mpr fun case functions grammar _ loads =>
      all case functions grammar loads] at failed
    cases failed
  · exact golden.unread loaded "flash" isCase "expected.gbnf" (by decide) (by simp [unread])

end ToolGrammar.Snapshot
