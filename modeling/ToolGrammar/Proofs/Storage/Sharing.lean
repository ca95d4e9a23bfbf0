import ToolGrammar.Proofs.Storage.Directories

/-!
Files that several users change. Every user has places of its own, all of them in one directory, and
does nothing but to make that directory and to write into its own places. Beside the shared files
there are the files that each user would have alone; the shared ones are the first files with the
changes of all users.
-/
namespace ToolGrammar.Storage.FileSystem

/-- The first files, the way to one directory, and the places in it that each user writes into. -/
structure Layout (ι : Type) where
  first : FileSystem
  here : Location
  names : List String
  own : ι → Location → Prop
  sound : first.Sound
  there : first.node? here = some .directory
  below : ∀ {i location}, own i location → ∃ name, location = here ++ names ++ [name]
  apart : ∀ {i j location}, own i location → own j location → i = j

/-- The files differ from the first ones by nothing but directories on the way, and in some
places. -/
structure Layout.Grows {ι : Type} (layout : Layout ι) (places : Location → Prop)
    (files : FileSystem) : Prop where
  sound : files.Sound
  current : files.current = layout.first.current
  beside : ∀ location, ¬ places location → files.node? location = layout.first.node? location ∨
    layout.first.Reaches layout.here layout.names location ∧
      files.node? location = some .directory

/-- The shared files have all changes that any files alone have, and no others. -/
structure Merges {ι : Type} (first : FileSystem) (alone : ι → FileSystem) (shared : FileSystem) :
    Prop where
  unchanged : ∀ location, (∀ i, (alone i).node? location = first.node? location) →
    shared.node? location = first.node? location
  changed : ∀ i location, (alone i).node? location ≠ first.node? location →
    shared.node? location = (alone i).node? location

structure Layout.Shares {ι : Type} (layout : Layout ι) (alone : ι → FileSystem)
    (shared : FileSystem) : Prop where
  each : ∀ i, layout.Grows (layout.own i) (alone i)
  all : layout.Grows (fun location => ∃ i, layout.own i location) shared
  merges : Merges layout.first alone shared

/-- The path text of a place that the user may write into. -/
structure Layout.Output {ι : Type} (layout : Layout ι) (i : ι) (path : String) : Prop where
  downward : PathText.Downward path
  closed : PathText.isOpen path = false
  own : layout.own i (layout.first.place path)
  last : ∃ front name, PathText.names path = front ++ [name] ∧ name ≠ "." ∧
    layout.first.start path ++ front.filter (· ≠ ".") = layout.here ++ layout.names

/-- A path text that the user may read: no other user writes there. -/
structure Layout.Input {ι : Type} (layout : Layout ι) (i : ι) (path : String) : Prop where
  downward : PathText.Downward path
  mine : ∀ j, layout.own j (layout.first.place path) → j = i

theorem Layout.Output.input {ι : Type} {layout : Layout ι} {i : ι} {path : String}
    (output : layout.Output i path) : layout.Input i path :=
  ⟨output.downward, fun _ own => layout.apart own output.own⟩

/-- A path text of the directory that all users write into, if any operation takes it at all. -/
def Layout.Way {ι : Type} (layout : Layout ι) (path : String) : Prop :=
  (∀ files : FileSystem, files.Sound → files.current = layout.first.current →
    files.Makes layout.here layout.names (files.makeDirectories path)) ∨
  ∀ files : FileSystem, ∃ reason, files.makeDirectories path = (.error reason, files)

/-- What the files alone come to decides what the shared files come to. -/
theorem Merges.unique {ι : Type} {first shared other : FileSystem} {alone : ι → FileSystem}
    (merges : Merges first alone shared) (again : Merges first alone other) (location : Location) :
    shared.node? location = other.node? location := by
  by_cases same : ∀ i, (alone i).node? location = first.node? location
  · rw [merges.unchanged location same, again.unchanged location same]
  · obtain ⟨i, changed⟩ := not_forall.mp same
    rw [merges.changed i location changed, again.changed i location changed]

/-- One user and the shared files take a step together: at each location either both keep what they
have, or both come to have the same, and no other user has anything else there of its own. -/
theorem Merges.step {ι : Type} [DecidableEq ι] {first shared after sharedAfter : FileSystem}
    {alone : ι → FileSystem} (merges : Merges first alone shared) (i : ι)
    (together : ∀ location,
      after.node? location = (alone i).node? location ∧
        sharedAfter.node? location = shared.node? location ∨
      sharedAfter.node? location = after.node? location ∧ ∀ j, j ≠ i →
        (alone j).node? location = first.node? location ∨
        (alone j).node? location = after.node? location) :
    Merges first (Function.update alone i after) sharedAfter := by
  constructor
  · intro location same
    rcases together location with ⟨kept, sharedKept⟩ | ⟨both, -⟩
    · rw [sharedKept]
      refine merges.unchanged location fun j => ?_
      by_cases mine : j = i
      · subst mine
        simpa [kept] using same j
      · simpa [mine] using same j
    · rw [both]
      simpa using same i
  · intro j location changed
    by_cases mine : j = i
    · subst mine
      rw [Function.update_self] at changed ⊢
      rcases together location with ⟨kept, sharedKept⟩ | ⟨both, -⟩
      · rw [kept] at changed ⊢
        rw [sharedKept, merges.changed j location changed]
      · exact both
    · rw [Function.update_of_ne mine] at changed ⊢
      rcases together location with ⟨-, sharedKept⟩ | ⟨both, others⟩
      · rw [sharedKept, merges.changed j location changed]
      · rw [both, (others j mine).resolve_left changed]

theorem error_of_not_ok {ε α : Type} {result : Except ε α}
    (failed : ∀ value, result ≠ .ok value) : ∃ error, result = .error error := by
  cases result with
  | error error => exact ⟨error, rfl⟩
  | ok value => exact absurd rfl (failed value)

theorem write_of_improper (files : FileSystem) (text : String) {path : String}
    (improper : ¬ PathText.Proper path) : ∃ reason, files.write path text = .error reason := by
  obtain ⟨reason, failed, -⟩ := target_of_improper files improper
  exact ⟨reason, by rw [write, failed]; rfl⟩

/-- A file put into a directory leaves everything in a directory. -/
theorem Sound.put_file {files : FileSystem} (sound : files.Sound) {upper : Location} {name : String}
    (above : files.node? upper = some .directory)
    (free : files.node? (upper ++ [name]) ≠ some .directory) (content : ByteArray) :
    (files.put (upper ++ [name]) (.file content)).Sound := by
  have put := fun other => node?_put files (upper ++ [name]) other (.file content) (by simp)
  have stays {location : Location} (directory : files.node? location = some .directory) :
      (files.put (upper ++ [name]) (.file content)).node? location = some .directory := by
    rw [put, if_neg, directory]
    rintro rfl
    exact free directory
  refine ⟨fun location last inside => stays ?_, stays sound.current⟩
  rw [put] at inside
  split at inside
  · rename_i same
    obtain ⟨rfl, -⟩ := List.append_inj' same rfl
    exact above
  · exact sound.above location last inside

namespace Layout

variable {ι : Type} {layout : Layout ι} {places : Location → Prop} {files made : FileSystem}
  {location : Location} {content : ByteArray}

/-- What is on the way is in no place of a user. -/
theorem not_own_of_prefix (layout : Layout ι) {front : List String}
    (within : front <+: layout.names) (i : ι) : ¬ layout.own i (layout.here ++ front) := by
  intro own
  obtain ⟨name, whole⟩ := layout.below own
  rw [List.append_assoc, List.append_cancel_left_eq] at whole
  have shorter := within.length_le
  rw [whole, List.length_append, List.length_singleton] at shorter
  omega

theorem not_own_of_reaches {i : ι}
    (reaches : layout.first.Reaches layout.here layout.names location) :
    ¬ layout.own i location := by
  obtain ⟨front, within, rfl, -⟩ := reaches
  exact layout.not_own_of_prefix within i

namespace Grows

theorem start (layout : Layout ι) (places : Location → Prop) :
    layout.Grows places layout.first :=
  ⟨layout.sound, rfl, fun _ _ => .inl rfl⟩

theorem file (grows : layout.Grows places files) (other : ¬ places location) :
    files.node? location = some (.file content) ↔
      layout.first.node? location = some (.file content) := by
  rcases grows.beside location other with same | ⟨reaches, directory⟩
  · rw [same]
  · rw [directory]
    exact ⟨nofun, fun file => absurd file (reaches.no_file layout.there content)⟩

theorem directory (grows : layout.Grows places files) (other : ¬ places location)
    (there : layout.first.node? location = some .directory) :
    files.node? location = some .directory := by
  rcases grows.beside location other with same | ⟨-, directory⟩
  · rw [same, there]
  · exact directory

theorem place (grows : layout.Grows places files) (path : String) :
    files.place path = layout.first.place path := by
  rw [FileSystem.place, FileSystem.place, FileSystem.start, FileSystem.start, grows.current]

/-- Whether the way is clear is the same as at first. -/
theorem clear (grows : layout.Grows places files)
    (other : ∀ {front}, front <+: layout.names → ¬ places (layout.here ++ front)) :
    files.Clear layout.here layout.names ↔ layout.first.Clear layout.here layout.names :=
  clear_congr fun _ _ within => grows.file (other within)

theorem reaches (grows : layout.Grows places files) (location : Location)
    (other : ∀ {front}, front <+: layout.names → ¬ places (layout.here ++ front)) :
    files.Reaches layout.here layout.names location ↔
      layout.first.Reaches layout.here layout.names location := by
  refine exists_congr fun front => and_congr_right fun within => and_congr_right fun _ => ?_
  exact clear_congr fun ahead _ more => grows.file (other (more.trans within))

theorem makes (grows : layout.Grows places files)
    (other : ∀ {front}, front <+: layout.names → ¬ places (layout.here ++ front))
    {outcome : Except AccessError Unit × FileSystem}
    (makes : files.Makes layout.here layout.names outcome) : layout.Grows places outcome.2 := by
  have there : files.node? layout.here = some .directory :=
    grows.directory (by simpa using other (List.nil_prefix)) layout.there
  refine ⟨makes.sound grows.sound there, makes.current.trans grows.current,
    fun location beyond => ?_⟩
  by_cases reached : files.Reaches layout.here layout.names location
  · exact .inr ⟨(grows.reaches location other).mp reached, makes.reached location reached⟩
  · rw [makes.kept location reached]
    exact grows.beside location beyond

theorem put_file (grows : layout.Grows places files) {upper : Location} {name : String}
    (above : files.node? upper = some .directory)
    (free : files.node? (upper ++ [name]) ≠ some .directory) (own : places (upper ++ [name]))
    (content : ByteArray) :
    layout.Grows places (files.put (upper ++ [name]) (.file content)) := by
  refine ⟨grows.sound.put_file above free content, grows.current, fun location beyond => ?_⟩
  have elsewhere : location ≠ upper ++ [name] := by
    rintro rfl
    exact beyond own
  rw [node?_put _ _ _ _ (by simp), if_neg elsewhere]
  exact grows.beside location beyond

/-- Writing into a place of a user, once the directory is there. -/
theorem write_eq_ok {i : ι} {path : String} (grows : layout.Grows places files) (text : String)
    (after : FileSystem) (output : layout.Output i path)
    (proper : PathText.Proper path)
    (above : files.node? (layout.here ++ layout.names) = some .directory) :
    files.write path text = .ok after ↔ (∀ name ∈ PathText.steps path, Fits name) ∧
      files.node? (layout.first.place path) ≠ some .directory ∧
      after = files.put (layout.first.place path) (.file text.toUTF8) := by
  obtain ⟨downward, closed, own, front, name, named, other, upper⟩ := output
  have start : files.start path = layout.first.start path := by
    rw [FileSystem.start, FileSystem.start, grows.current]
  rw [FileSystem.write_eq_ok grows.sound downward proper closed named other, start, upper,
    grows.place, and_iff_right above]

end Grows

namespace Shares

variable {alone : ι → FileSystem} {shared : FileSystem} {i : ι}

theorem start (layout : Layout ι) : layout.Shares (fun _ => layout.first) layout.first :=
  ⟨fun _ => .start layout _, .start layout _, fun _ _ => rfl, fun _ _ changed => absurd rfl changed⟩

/-- A user finds its own places as it would alone. -/
theorem own (shares : layout.Shares alone shared) (own : layout.own i location) :
    shared.node? location = (alone i).node? location := by
  by_cases changed : (alone i).node? location = layout.first.node? location
  · rw [changed]
    refine shares.merges.unchanged location fun j => ?_
    by_cases same : layout.own j location
    · rw [layout.apart same own, changed]
    · refine ((shares.each j).beside location same).resolve_right fun reached => ?_
      exact layout.not_own_of_reaches reached.1 own
  · exact shares.merges.changed i location changed

/-- A user finds the same file as it would alone, wherever no other user writes. -/
theorem file (shares : layout.Shares alone shared) (mine : ∀ j, layout.own j location → j = i) :
    shared.node? location = some (.file content) ↔
      (alone i).node? location = some (.file content) := by
  by_cases own : layout.own i location
  · rw [shares.own own]
  · have free : ¬ ∃ j, layout.own j location := fun ⟨j, other⟩ => own (mine j other ▸ other)
    rw [shares.all.file free, (shares.each i).file own]

/-- A directory that a user has alone is one for all. -/
theorem directory (shares : layout.Shares alone shared) (free : ∀ j, ¬ layout.own j location)
    (there : (alone i).node? location = some .directory) :
    shared.node? location = some .directory := by
  by_cases changed : (alone i).node? location = layout.first.node? location
  · exact shares.all.directory (fun ⟨j, own⟩ => free j own) (changed ▸ there)
  · rw [shares.merges.changed i location changed, there]

/-- A user reads what it would read alone, wherever no other user writes. -/
theorem read (shares : layout.Shares alone shared) {path text : String}
    (input : layout.Input i path) :
    shared.read path = .ok text ↔ (alone i).read path = .ok text := by
  rw [read_eq_ok shares.all.sound input.downward, read_eq_ok (shares.each i).sound input.downward,
    shares.all.place, (shares.each i).place]
  simp only [shares.file input.mine]

variable [DecidableEq ι]

/-- One user's files change as it may change them, and the shared files come to have the changes. -/
theorem step (shares : layout.Shares alone shared) {after sharedAfter : FileSystem}
    (mine : layout.Grows (layout.own i) after)
    (all : layout.Grows (fun location => ∃ j, layout.own j location) sharedAfter)
    (merges : Merges layout.first (Function.update alone i after) sharedAfter) :
    layout.Shares (Function.update alone i after) sharedAfter := by
  refine ⟨fun j => ?_, all, merges⟩
  by_cases same : j = i
  · subst same
    rwa [Function.update_self]
  · rw [Function.update_of_ne same]
    exact shares.each j

theorem make (shares : layout.Shares alone shared)
    {outcome sharedOutcome : Except AccessError Unit × FileSystem}
    (makes : (alone i).Makes layout.here layout.names outcome)
    (sharedMakes : shared.Makes layout.here layout.names sharedOutcome) :
    (outcome.1.isOk = true ↔ sharedOutcome.1.isOk = true) ∧
      layout.Shares (Function.update alone i outcome.2) sharedOutcome.2 := by
  have mine {front : List String} (within : front <+: layout.names) :=
    layout.not_own_of_prefix within i
  have all {front : List String} (within : front <+: layout.names) :
      ¬ ∃ j, layout.own j (layout.here ++ front) := fun ⟨j, own⟩ =>
    layout.not_own_of_prefix within j own
  have aloneReaches (location : Location) := (shares.each i).reaches location mine
  have sharedReaches (location : Location) := shares.all.reaches location all
  refine ⟨?_, shares.step ((shares.each i).makes mine makes) (shares.all.makes all sharedMakes)
    (shares.merges.step i fun location => ?_)⟩
  · rw [makes.answer, sharedMakes.answer, (shares.each i).clear mine, shares.all.clear all]
  · by_cases reached : layout.first.Reaches layout.here layout.names location
    · have directory := makes.reached location ((aloneReaches location).mpr reached)
      refine .inr ⟨?_, fun j _ => ?_⟩
      · rw [sharedMakes.reached location ((sharedReaches location).mpr reached), directory]
      · rw [directory]
        exact ((shares.each j).beside location (layout.not_own_of_reaches reached)).imp id And.right
    · exact .inl ⟨makes.kept location ((aloneReaches location).not.mpr reached),
        sharedMakes.kept location ((sharedReaches location).not.mpr reached)⟩

theorem put (shares : layout.Shares alone shared) {name : String}
    (own : layout.own i (layout.here ++ layout.names ++ [name]))
    (above : (alone i).node? (layout.here ++ layout.names) = some .directory)
    (free : (alone i).node? (layout.here ++ layout.names ++ [name]) ≠ some .directory)
    (content : ByteArray) :
    layout.Shares
      (Function.update alone i
        ((alone i).put (layout.here ++ layout.names ++ [name]) (.file content)))
      (shared.put (layout.here ++ layout.names ++ [name]) (.file content)) := by
  have sharedAbove := shares.directory (layout.not_own_of_prefix (List.prefix_refl _)) above
  have sharedFree := (shares.own own).trans_ne free
  refine shares.step ((shares.each i).put_file above free own content)
    (shares.all.put_file sharedAbove sharedFree ⟨i, own⟩ content)
    (shares.merges.step i fun location => ?_)
  rw [node?_put _ _ _ _ (by simp), node?_put _ _ _ _ (by simp)]
  by_cases same : location = layout.here ++ layout.names ++ [name]
  · subst same
    refine .inr ⟨by simp, fun j other => .inl ?_⟩
    refine ((shares.each j).beside _ fun both => other (layout.apart both own)).resolve_right ?_
    exact fun reached => layout.not_own_of_reaches reached.1 own
  · exact .inl ⟨if_neg same, if_neg same⟩

/-- A user can write where it could alone, once the directory is there. -/
theorem write (shares : layout.Shares alone shared) {path text : String}
    (output : layout.Output i path)
    (above : (alone i).node? (layout.here ++ layout.names) = some .directory) :
    (∃ reason, (alone i).write path text = .error reason) ∧
        (∃ reason, shared.write path text = .error reason) ∨
      ∃ after sharedAfter, (alone i).write path text = .ok after ∧
        shared.write path text = .ok sharedAfter ∧
        layout.Shares (Function.update alone i after) sharedAfter ∧
        after.node? (layout.here ++ layout.names) = some .directory := by
  have sharedAbove := shares.directory (layout.not_own_of_prefix (List.prefix_refl _)) above
  by_cases proper : PathText.Proper path
  swap
  · exact .inl ⟨write_of_improper _ text proper, write_of_improper _ text proper⟩
  have written (after : FileSystem) :=
    (shares.each i).write_eq_ok text after output proper above
  have sharedWritten (after : FileSystem) :=
    shares.all.write_eq_ok text after output proper sharedAbove
  rw [shares.own output.own] at sharedWritten
  by_cases writable : (∀ name ∈ PathText.steps path, Fits name) ∧
      (alone i).node? (layout.first.place path) ≠ some .directory
  · obtain ⟨name, whole⟩ := layout.below output.own
    refine .inr ⟨_, _, (written _).mpr ⟨writable.1, writable.2, rfl⟩,
      (sharedWritten _).mpr ⟨writable.1, writable.2, rfl⟩, ?_, ?_⟩
    · rw [whole] at writable ⊢
      exact shares.put (whole ▸ output.own) above writable.2 text.toUTF8
    · rw [whole, node?_put _ _ _ _ (by simp), if_neg (by simp), above]
  · exact .inl ⟨error_of_not_ok fun after ok => writable ⟨((written after).mp ok).1,
      ((written after).mp ok).2.1⟩, error_of_not_ok fun after ok =>
      writable ⟨((sharedWritten after).mp ok).1, ((sharedWritten after).mp ok).2.1⟩⟩

end Shares

end Layout

end ToolGrammar.Storage.FileSystem
