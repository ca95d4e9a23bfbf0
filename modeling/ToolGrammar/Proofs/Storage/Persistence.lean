import ToolGrammar.Proofs.Storage.Access

namespace ToolGrammar.Storage.FileSystem

open Schema (ok_of_bind ok_of_pure)

/-- Files are written in these places only. Directories are made where nothing was, and stay. -/
structure Changes (places : Location → Prop) (before after : FileSystem) : Prop where
  current : after.current = before.current
  directory : ∀ {location}, before.node? location = some .directory →
    after.node? location = some .directory
  others : ∀ {location}, ¬ places location → after.node? location = before.node? location ∨
    before.node? location = none ∧ after.node? location = some .directory

variable {places more : Location → Prop} {files before between after : FileSystem}
  {path text : String} {location : Location} {content : ByteArray}

theorem Changes.refl (places : Location → Prop) (files : FileSystem) :
    Changes places files files :=
  ⟨rfl, id, fun _ => .inl rfl⟩

theorem Changes.trans (first : Changes places before between)
    (second : Changes places between after) : Changes places before after := by
  refine ⟨second.current.trans first.current, fun found => second.directory (first.directory found),
    fun outside => ?_⟩
  rcases first.others outside with same | ⟨none, made⟩
  · simpa only [← same] using second.others outside
  · exact .inr ⟨none, second.directory made⟩

theorem Changes.mono (changes : Changes places before after)
    (within : ∀ location, places location → more location) : Changes more before after :=
  ⟨changes.current, changes.directory, fun outside => changes.others (outside ∘ within _)⟩

theorem Changes.file (changes : Changes places before after) (outside : ¬ places location) :
    after.node? location = some (.file content) ↔
      before.node? location = some (.file content) := by
  rcases changes.others outside with same | ⟨none, made⟩
  · rw [same]
  · simp [none, made]

theorem Changes.enter (changes : Changes places before after) {here : Location} {name : String}
    (entered : before.enter here name = .ok location) :
    after.enter here name = .ok location := by
  by_cases idle : name = "."
  · simpa [FileSystem.enter, idle] using entered
  by_cases up : name = ".."
  · simpa [FileSystem.enter, up] using entered
  obtain ⟨rfl, fits, there⟩ := (enter_eq_ok idle up).mp entered
  exact (enter_eq_ok idle up).mpr ⟨rfl, fits, changes.directory there⟩

theorem Changes.foldlM_enter (changes : Changes places before after) {names : List String}
    {here : Location} (walked : names.foldlM before.enter here = .ok location) :
    names.foldlM after.enter here = .ok location := by
  induction names generalizing here with
  | nil => exact walked
  | cons name rest ih =>
      rw [List.foldlM_cons, ok_of_bind] at walked ⊢
      obtain ⟨next, entered, later⟩ := walked
      exact ⟨next, changes.enter entered, ih later⟩

/-- A path text goes on leading where it leads. -/
theorem Changes.target (changes : Changes places before after) {target : Target}
    (leads : before.target path = .ok target) : after.target path = .ok target := by
  by_cases proper : PathText.Proper path
  · have start : after.start path = before.start path := by
      rw [start, start, changes.current]
    rw [target_of_proper _ proper, ok_of_bind] at leads ⊢
    obtain ⟨above, walked, ends⟩ := leads
    exact ⟨above, start ▸ changes.foldlM_enter walked, ends⟩
  · obtain ⟨reason, failed, -⟩ := target_of_improper before proper
    rw [failed] at leads
    cases leads

/-- What a path text leads to within a directory has the last name of the path text. -/
theorem name_of_target {opened : Bool} (leads : files.target path = .ok (.entry location opened)) :
    ∃ front name above, PathText.names path = front ++ [name] ∧ name ≠ "." ∧
      location = above ++ [name] := by
  by_cases proper : PathText.Proper path
  · rw [target_of_proper _ proper, ok_of_bind] at leads
    obtain ⟨above, -, ends⟩ := leads
    rcases List.eq_nil_or_concat (PathText.names path) with none | ⟨front, name, named⟩
    · simp [none] at ends
    · rw [List.concat_eq_append] at named
      rw [named, List.getLast?_concat] at ends
      refine ⟨front, name, above, named, ?_, ?_⟩
      · rintro rfl
        simp at ends
      · split at ends <;> simp_all
  · obtain ⟨reason, failed, -⟩ := target_of_improper files proper
    rw [failed] at leads
    cases leads

theorem getLast?_of_target {opened : Bool}
    (leads : files.target path = .ok (.entry location opened)) :
    location.getLast? = (PathText.names path).getLast? := by
  obtain ⟨front, name, above, named, -, rfl⟩ := name_of_target leads
  rw [named, List.getLast?_concat, List.getLast?_concat]

theorem look_eq_file_iff : files.look path = .ok (location, .file content) ↔
    files.target path = .ok (.entry location false) ∧
      files.lookUp location = .ok (some (.file content)) := by
  rw [look, ok_of_bind]
  constructor
  · rintro ⟨target, leads, answered⟩
    cases target with
    | directory => simp at answered
    | entry other opened =>
        obtain ⟨found, looked, told⟩ := ok_of_bind.mp answered
        rcases found with _ | _ | _
        · simp at told
        · cases opened with
          | true => simp at told
          | false =>
              obtain ⟨rfl, rfl⟩ : other = location ∧ _ = content := by simpa using told
              exact ⟨leads, looked⟩
        · simp at told
  · rintro ⟨leads, looked⟩
    exact ⟨_, leads, by simp [looked]⟩

theorem lookUp_eq_file : files.lookUp location = .ok (some (.file content)) ↔
    (location.getLast?.any (255 < ·.utf8ByteSize)) = false ∧
      files.node? location = some (.file content) := by
  rw [lookUp]
  split <;> simp_all

theorem Changes.look (changes : Changes places before after) (outside : ¬ places location)
    (looked : before.look path = .ok (location, .file content)) :
    after.look path = .ok (location, .file content) := by
  rw [look_eq_file_iff, lookUp_eq_file] at looked ⊢
  obtain ⟨leads, fits, there⟩ := looked
  exact ⟨changes.target leads, fits, (changes.file outside).mpr there⟩

theorem changes_put (below : location ≠ []) (free : files.node? location ≠ some .directory)
    (content : ByteArray) : Changes (· = location) files (files.put location (.file content)) := by
  have put := fun other => node?_put files location other (.file content) below
  refine ⟨rfl, fun {other} found => ?_, fun {other} outside => ?_⟩
  · rw [put, if_neg, found]
    rintro rfl
    exact free found
  · rw [put, if_neg outside]
    exact .inl rfl

/-- A text that has been written is what the path text leads to. -/
theorem write_changes (written : files.write path text = .ok after) : ∃ location,
    files.target path = .ok (.entry location false) ∧
      after.look path = .ok (location, .file text.toUTF8) ∧
      Changes (· = location) files after := by
  rw [write, ok_of_bind] at written
  obtain ⟨target, leads, written⟩ := written
  cases target with
  | directory => simp at written
  | entry location opened =>
      cases opened with
      | true => simp at written
      | false =>
          obtain ⟨found, looked, written⟩ := ok_of_bind.mp written
          obtain ⟨front, name, above, -, -, rfl⟩ := name_of_target leads
          obtain ⟨fits, there⟩ := lookUp_eq_ok.mp looked
          have free : files.node? (above ++ [name]) ≠ some .directory := by
            rw [there]
            rintro rfl
            simp at written
          obtain rfl : after = files.put (above ++ [name]) (.file text.toUTF8) := by
            rcases found with _ | _ | _
            · exact (ok_of_pure.mp written).symm
            · exact (ok_of_pure.mp written).symm
            · exact absurd there free
          have changes := changes_put (by simp) free text.toUTF8
          refine ⟨_, leads, look_eq_file_iff.mpr ⟨changes.target leads, ?_⟩, changes⟩
          exact lookUp_eq_ok.mpr ⟨fits, by rw [node?_put _ _ _ _ (by simp), if_pos rfl]⟩

theorem changes_makeDirectory (made : files.makeDirectory path = .ok after) :
    Changes (fun _ => False) files after := by
  rw [makeDirectory, ok_of_bind] at made
  obtain ⟨target, leads, made⟩ := made
  cases target with
  | directory => simp at made
  | entry location opened =>
      obtain ⟨found, looked, made⟩ := ok_of_bind.mp made
      obtain ⟨front, name, above, -, -, rfl⟩ := name_of_target leads
      obtain ⟨-, there⟩ := lookUp_eq_ok.mp looked
      cases found with
      | some => simp at made
      | none =>
          obtain rfl := ok_of_pure.mp made
          have put := fun other => node?_put files (above ++ [name]) other .directory (by simp)
          refine ⟨rfl, fun {other} found => ?_, fun {other} _ => ?_⟩
          · rw [put, found, ite_self]
          · rw [put]
            split
            · rename_i same
              exact .inr ⟨same ▸ there, rfl⟩
            · exact .inl rfl

theorem changes_settleDirectory (files : FileSystem) (path : String) :
    Changes (fun _ => False) files (files.settleDirectory path).2 := by
  rw [settleDirectory]
  split
  · rename_i made
    exact changes_makeDirectory made
  · exact .refl _ files

theorem changes_makeUpward (files : FileSystem) (paths : List String) :
    Changes (fun _ => False) files (files.makeUpward paths).2 := by
  induction paths with
  | nil => exact .refl _ files
  | cons path above ih =>
      rw [makeUpward]
      split
      · exact .refl _ files
      · split
        · split
          · rename_i made upward
            rw [upward] at ih
            exact ih.trans (changes_settleDirectory made path)
          · exact ih
        · exact changes_settleDirectory files path

/-- Making directories writes no file. -/
theorem changes_makeDirectories (files : FileSystem) (path : String) :
    Changes places files (files.makeDirectories path).2 :=
  (changes_makeUpward files _).mono nofun

end ToolGrammar.Storage.FileSystem
