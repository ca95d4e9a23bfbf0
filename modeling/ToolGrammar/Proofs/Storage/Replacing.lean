import ToolGrammar.Proofs.Storage.Persistence

namespace ToolGrammar

theorem Keyed.put_of_lookup? {κ α : Type} [DecidableEq κ] {entries : List (κ × α)} {name : κ}
    {value : α} (found : Keyed.lookup? name entries = some value) :
    Keyed.put name value entries = entries := by
  induction entries with
  | nil => cases found
  | cons entry rest ih =>
      obtain ⟨key, old⟩ := entry
      by_cases same : key = name
      · simp_all [Keyed.put]
      · rw [Keyed.lookup?_cons, if_neg same] at found
        rw [Keyed.put, if_neg same, ih found]

namespace Storage.FileSystem

open Schema (ok_of_bind ok_of_pure)

/-- No directory comes or goes, and files differ in these places only. -/
structure Replaces (places : Location → Prop) (before after : FileSystem) : Prop where
  forth : Changes places before after
  back : Changes places after before

variable {places more : Location → Prop} {files before between after : FileSystem}
  {path text : String} {location directory : Location} {content : ByteArray}

theorem Replaces.refl (places : Location → Prop) (files : FileSystem) :
    Replaces places files files :=
  ⟨.refl places files, .refl places files⟩

theorem Replaces.trans (first : Replaces places before between)
    (second : Replaces places between after) : Replaces places before after :=
  ⟨first.forth.trans second.forth, second.back.trans first.back⟩

theorem Replaces.mono (replaces : Replaces places before after)
    (within : ∀ location, places location → more location) : Replaces more before after :=
  ⟨replaces.forth.mono within, replaces.back.mono within⟩

theorem lookUp_eq_directory : files.lookUp location = .ok (some .directory) ↔
    (location.getLast?.any (255 < ·.utf8ByteSize)) = false ∧
      files.node? location = some .directory := by
  rw [lookUp]
  split <;> simp_all

theorem look_eq_directory_iff : files.look path = .ok (location, .directory) ↔
    files.target path = .ok (.directory location) ∨ ∃ opened,
      files.target path = .ok (.entry location opened) ∧
        files.lookUp location = .ok (some .directory) := by
  rw [look, ok_of_bind]
  constructor
  · rintro ⟨target, leads, answered⟩
    cases target with
    | directory own =>
        obtain ⟨rfl, -⟩ := Prod.mk.inj (ok_of_pure.mp answered)
        exact .inl leads
    | entry other opened =>
        obtain ⟨found, looked, told⟩ := ok_of_bind.mp answered
        rcases found with _ | own | _
        · simp at told
        · cases opened <;> simp at told
        · obtain ⟨rfl, -⟩ := Prod.mk.inj (ok_of_pure.mp told)
          exact .inr ⟨opened, leads, looked⟩
  · rintro (leads | ⟨opened, leads, looked⟩)
    · exact ⟨_, leads, rfl⟩
    · exact ⟨_, leads, by simp [looked]⟩

theorem Changes.look_directory (changes : Changes places before after)
    (looked : before.look path = .ok (location, .directory)) :
    after.look path = .ok (location, .directory) := by
  rw [look_eq_directory_iff] at looked ⊢
  rcases looked with leads | ⟨opened, leads, there⟩
  · exact .inl (changes.target leads)
  · obtain ⟨fits, there⟩ := lookUp_eq_directory.mp there
    exact .inr ⟨opened, changes.target leads,
      lookUp_eq_directory.mpr ⟨fits, changes.directory there⟩⟩

/-- The names of a path text that leads to a directory lead there one after another. -/
theorem walk_of_look (looked : files.look path = .ok (location, .directory)) :
    (PathText.names path).foldlM files.enter (files.start path) = .ok location := by
  by_cases proper : PathText.Proper path
  swap
  · obtain ⟨reason, failed, -⟩ := target_of_improper files proper
    simp [look, failed] at looked
  rw [look_eq_directory_iff] at looked
  rcases List.eq_nil_or_concat (PathText.names path) with none | ⟨front, name, named⟩
  · simpa [target_of_proper files proper, none, pure, Except.pure] using looked
  · rw [List.concat_eq_append] at named
    rw [named, List.foldlM_append, ok_of_bind]
    by_cases here : name = "."
    · simpa [target_of_proper files proper, named, here, FileSystem.enter] using looked
    by_cases up : name = ".."
    · simpa [target_of_proper files proper, named, up, FileSystem.enter] using looked
    simp only [target_of_name files proper named here up, ok_of_bind, ok_of_pure, reduceCtorEq,
      and_false, exists_false, false_or, Target.entry.injEq] at looked
    obtain ⟨opened, ⟨above, walked, rfl, -⟩, there⟩ := looked
    obtain ⟨fits, there⟩ := lookUp_eq_ok.mp there
    refine ⟨above, walked, ?_⟩
    rw [List.foldlM_cons, ok_of_bind]
    exact ⟨_, (enter_eq_ok here up).mpr ⟨rfl, fits, there⟩, rfl⟩

theorem write_eq_put (written : files.write path text = .ok after)
    (leads : files.target path = .ok (.entry location false)) :
    files.node? location ≠ some .directory ∧
      after = files.put location (.file text.toUTF8) := by
  obtain ⟨_, again, written⟩ := ok_of_bind.mp written
  obtain rfl := Except.ok.inj (leads.symm.trans again)
  obtain ⟨found, looked, written⟩ := ok_of_bind.mp written
  obtain ⟨front, name, above, -, -, rfl⟩ := name_of_target leads
  obtain ⟨-, there⟩ := lookUp_eq_ok.mp looked
  rw [there]
  rcases found with _ | _ | _
  · exact ⟨by simp, (ok_of_pure.mp written).symm⟩
  · exact ⟨by simp, (ok_of_pure.mp written).symm⟩
  · simp at written

theorem write_replaces (written : files.write path text = .ok after) : ∃ location,
    files.target path = .ok (.entry location false) ∧
      after.look path = .ok (location, .file text.toUTF8) ∧
      after = files.put location (.file text.toUTF8) ∧
      Replaces (· = location) files after := by
  obtain ⟨location, leads, looked, changes⟩ := write_changes written
  obtain ⟨free, rfl⟩ := write_eq_put written leads
  obtain ⟨front, name, above, -, -, rfl⟩ := name_of_target leads
  have put := fun other => node?_put files (above ++ [name]) other (.file text.toUTF8) (by simp)
  refine ⟨_, leads, looked, rfl, changes, rfl, fun {other} found => ?_, fun {other} outside => ?_⟩
  · rw [put] at found
    split at found
    · cases found
    · exact found
  · rw [put, if_neg outside]
    exact .inl rfl

/-- Writing what is there already changes nothing. -/
theorem write_of_look (looked : files.look path = .ok (location, .file text.toUTF8)) :
    files.write path text = .ok files := by
  obtain ⟨leads, found⟩ := look_eq_file_iff.mp looked
  obtain ⟨front, name, above, -, -, rfl⟩ := name_of_target leads
  have there : Keyed.lookup? (above ++ [name]) files.nodes = some (.file text.toUTF8) := by
    simpa [node?] using (lookUp_eq_file.mp found).2
  have same : files.put (above ++ [name]) (.file text.toUTF8) = files := by
    rw [put, Keyed.put_of_lookup? there]
  rw [write, ok_of_bind]
  refine ⟨_, leads, ok_of_bind.mpr ⟨_, found, ?_⟩⟩
  rw [same]
  rfl

def children (files : FileSystem) (directory : Location) : List String :=
  files.nodes.filterMap fun entry => childName? directory entry.1

theorem list_eq_ok {names : List String} : files.list path = .ok names ↔ ∃ location,
    files.look path = .ok (location, .directory) ∧
      names = (files.children location).mergeSort fun a b => a ≤ b := by
  rw [list, ok_of_bind]
  constructor
  · rintro ⟨⟨location, node⟩, looked, told⟩
    cases node with
    | file => simp at told
    | directory => exact ⟨location, looked, (ok_of_pure.mp told).symm⟩
  · rintro ⟨location, looked, rfl⟩
    exact ⟨_, looked, rfl⟩

theorem children_put {node : Node} (elsewhere : childName? directory location = none) :
    (files.put location node).children directory = files.children directory := by
  have keys (own : FileSystem) :
      own.children directory = (own.nodes.map (·.1)).filterMap (childName? directory) := by
    rw [children, List.filterMap_map]
    rfl
  rw [keys, keys, put, Keyed.keys_put]
  split
  · rfl
  · simp [elsewhere]

end Storage.FileSystem

end ToolGrammar
