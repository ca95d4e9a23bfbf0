import ToolGrammar.Proofs.Storage.Directories

namespace ToolGrammar.Storage

open Text (pieces)

namespace PathText

/-- A name that an entry of a directory can have. -/
structure Entry (name : String) : Prop where
  solid : '/' ∉ name.toList
  some : name ≠ ""
  here : name ≠ "."
  up : name ≠ ".."

instance (name : String) : Decidable (Entry name) :=
  decidable_of_iff ('/' ∉ name.toList ∧ name ≠ "" ∧ name ≠ "." ∧ name ≠ "..")
    ⟨fun ⟨solid, filled, here, up⟩ => ⟨solid, filled, here, up⟩,
      fun ⟨solid, filled, here, up⟩ => ⟨solid, filled, here, up⟩⟩

variable {directory name : String}

theorem Entry.relative (entry : Entry name) : isAbsolute name = false := by
  simp [← Bool.not_eq_true, isAbsolute_iff, Text.pieces_of_solid entry.solid]

theorem Entry.exists_join (entry : Entry name) (directory : String) :
    ∃ front, join directory name = front ++ name ∧ isAbsolute front = isAbsolute directory := by
  rw [join, if_neg (by simp [entry.relative])]
  split
  · exact ⟨directory, rfl, rfl⟩
  · rename_i filled
    obtain ⟨first, rest, spelled⟩ := List.exists_cons_of_ne_nil
      (show directory.toList ≠ [] by simpa using (not_or.mp filled).1)
    exact ⟨directory ++ "/", rfl, by simp [isAbsolute, spelled]⟩

theorem Entry.isAbsolute_join (entry : Entry name) (directory : String) :
    isAbsolute (join directory name) = isAbsolute directory := by
  obtain ⟨front, joined, same⟩ := entry.exists_join directory
  rw [joined, ← same]
  cases spelled : front.toList with
  | nil => simpa [isAbsolute, spelled] using entry.relative
  | cons first rest => simp [isAbsolute, spelled]

theorem Entry.isOpen_join (entry : Entry name) (directory : String) :
    isOpen (join directory name) = false := by
  obtain ⟨front, joined, -⟩ := entry.exists_join directory
  obtain ⟨rest, last, spelled⟩ := (List.eq_nil_or_concat name.toList).resolve_left
    (by simpa using entry.some)
  have other : last ≠ '/' := by
    rintro rfl
    exact entry.solid (by simp [spelled])
  simp [joined, isOpen, spelled, other]

theorem Entry.names_join (entry : Entry name) (directory : String) :
    names (join directory name) = names directory ++ [name] := by
  obtain ⟨_, _, joined⟩ := PathText.exists_join directory
  exact (joined name entry.solid entry.some entry.here).2.2

theorem Entry.steps_join (entry : Entry name) (directory : String) :
    steps (join directory name) = steps directory ++ [name] :=
  steps_of_names (entry.names_join directory) entry.here

theorem Entry.downward_join (entry : Entry name) (downward : Downward directory) :
    Downward (join directory name) := by
  rw [Downward, entry.names_join, List.mem_append, List.mem_singleton]
  exact not_or.mpr ⟨downward, Ne.symm entry.up⟩

/-- All entries of a directory have one parent, which leads where the directory does. -/
theorem exists_parent (directory : String) : ∃ parent,
    (∀ name, Entry name → parent? (join directory name) = some parent) ∧
      isAbsolute parent = isAbsolute directory ∧ steps parent = steps directory ∧
      ∃ lead above, Remains lead above ∧ parent = build lead (above.dropWhile isIdle) ∧
        (Downward directory → ".." ∉ above) := by
  obtain ⟨start, above, joined⟩ := PathText.exists_join directory
  have sample : Entry "x" := ⟨by decide, by decide, by decide, by decide⟩
  obtain ⟨lead_eq, body_eq, names⟩ := joined "x" sample.solid sample.some sample.here
  have remains : Remains start above := by
    have whole := remains_body (join directory "x")
    rw [lead_eq, body_eq] at whole
    exact whole.of_append ["x"]
  refine ⟨build start (above.dropWhile isIdle), fun name entry => ?_, ?_, ?_, start, above, remains,
    rfl, fun downward up => ?_⟩
  · obtain ⟨lead_eq, body_eq, -⟩ := joined name entry.solid entry.some entry.here
    have solid : ¬ isIdle name = true := by
      simpa [isIdle] using ⟨entry.some, entry.here⟩
    rw [parent?, parents, lead_eq, body_eq, parentsFrom, if_neg solid, List.head?_cons]
  · rw [← sample.isAbsolute_join directory, Bool.eq_iff_iff, remains.dropWhile.isAbsolute_build,
      isAbsolute_iff_lead, lead_eq]
  · have whole := sample.steps_join directory
    rw [steps_eq, body_eq, List.reverse_cons, List.filter_append] at whole
    rw [remains.dropWhile.steps_build, List.filter_reverse, filter_dropWhile_isIdle,
      ← List.filter_reverse]
    exact List.append_cancel_right whole
  · have inside : ".." ∈ PathText.names (join directory "x") := by
      rw [names_eq, body_eq]
      simp [up]
    exact sample.downward_join downward inside

end PathText

namespace FileSystem

variable {files : FileSystem} {directory name : String}

theorem place_join (files : FileSystem) (entry : PathText.Entry name) (directory : String) :
    files.place (PathText.join directory name) = files.place directory ++ [name] := by
  rw [place, place, start, start, entry.isAbsolute_join, entry.steps_join, List.append_assoc]

end FileSystem

end ToolGrammar.Storage
