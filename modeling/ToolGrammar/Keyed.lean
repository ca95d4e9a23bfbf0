namespace ToolGrammar.Keyed

variable {κ α : Type} [DecidableEq κ]

abbrev lookup? (name : κ) (entries : List (κ × α)) : Option α :=
  entries.lookup name

/-- Puts a value under a name: in the place of the entry that has the name, else at the end. -/
def put (name : κ) (value : α) : List (κ × α) → List (κ × α)
  | [] => [(name, value)]
  | (key, old) :: rest =>
      if key = name then (key, value) :: rest else (key, old) :: put name value rest

/-- Each name in the place of its first entry, with the value of its last. -/
def settle (entries : List (κ × α)) : List (κ × α) :=
  entries.foldl (fun settled entry => put entry.1 entry.2 settled) []

theorem mem_of_lookup? {entries : List (κ × α)} {name : κ} {value : α}
    (found : lookup? name entries = some value) : (name, value) ∈ entries := by
  obtain ⟨before, after, rfl, -⟩ := List.lookup_eq_some_iff.mp found
  simp

theorem lookup?_cons (name key : κ) (value : α) (rest : List (κ × α)) :
    lookup? name ((key, value) :: rest) = if key = name then some value else lookup? name rest := by
  rw [lookup?, List.lookup_cons]
  by_cases same : name = key
  · simp [same]
  · simp [beq_eq_false_iff_ne.mpr same, Ne.symm same]

theorem lookup?_put (entries : List (κ × α)) (name other : κ) (value : α) :
    lookup? other (put name value entries) =
      if other = name then some value else lookup? other entries := by
  induction entries with
  | nil => simp [put, lookup?_cons, eq_comm]
  | cons entry rest ih =>
      obtain ⟨key, old⟩ := entry
      by_cases same : key = name <;> by_cases found : key = other <;>
        simp_all [put, lookup?_cons, eq_comm]

/-- Putting adds a name only where it was absent. -/
theorem keys_put (entries : List (κ × α)) (name : κ) (value : α) :
    (put name value entries).map (·.1) =
      if name ∈ entries.map (·.1) then entries.map (·.1) else entries.map (·.1) ++ [name] := by
  induction entries with
  | nil => simp [put]
  | cons entry rest ih =>
      obtain ⟨key, old⟩ := entry
      by_cases same : key = name
      · simp [put, same]
      · have other : ¬ name = key := fun h => same h.symm
        by_cases member : name ∈ rest.map (·.1) <;> simp_all [put]

theorem nodup_keys_put {entries : List (κ × α)} (distinct : (entries.map (·.1)).Nodup) (name : κ)
    (value : α) : ((put name value entries).map (·.1)).Nodup := by
  rw [keys_put]
  split
  · exact distinct
  · rename_i absent
    exact List.nodup_append.mpr ⟨distinct, by simp, fun key member other found same =>
      absent (List.mem_singleton.mp found ▸ same ▸ member)⟩

theorem mem_of_mem_put {entries : List (κ × α)} {name : κ} {value : α} {entry : κ × α}
    (member : entry ∈ put name value entries) : entry = (name, value) ∨ entry ∈ entries := by
  induction entries with
  | nil => exact .inl (by simpa [put] using member)
  | cons first rest ih =>
      obtain ⟨key, old⟩ := first
      simp only [put] at member
      split at member
      · rename_i same
        rcases List.mem_cons.mp member with rfl | later
        · exact .inl (by rw [same])
        · exact .inr (List.mem_cons_of_mem _ later)
      · rcases List.mem_cons.mp member with rfl | later
        · exact .inr List.mem_cons_self
        · exact (ih later).imp_right (List.mem_cons_of_mem _)

theorem put_of_not_mem {entries : List (κ × α)} {name : κ} (absent : name ∉ entries.map (·.1))
    (value : α) : put name value entries = entries ++ [(name, value)] := by
  induction entries with
  | nil => rfl
  | cons entry rest ih =>
      simp only [List.map_cons, List.mem_cons, not_or] at absent
      rw [put, if_neg (Ne.symm absent.1), ih absent.2, List.cons_append]

theorem nodup_keys_settle (entries : List (κ × α)) : ((settle entries).map (·.1)).Nodup := by
  refine List.foldlRecOn (motive := fun settled : List (κ × α) => (settled.map (·.1)).Nodup)
    entries _ ?_ fun settled distinct entry _ => nodup_keys_put distinct entry.1 entry.2
  exact List.nodup_nil

theorem mem_of_mem_settle {entries : List (κ × α)} :
    ∀ entry ∈ settle entries, entry ∈ entries := by
  refine List.foldlRecOn
    (motive := fun settled : List (κ × α) => ∀ entry ∈ settled, entry ∈ entries)
    entries _ (by simp) fun settled old entry member found put => ?_
  rcases mem_of_mem_put put with rfl | earlier
  · exact member
  · exact old found earlier

/-- Entries whose names differ stay as they are. -/
theorem settle_of_nodup {entries : List (κ × α)} (distinct : (entries.map (·.1)).Nodup) :
    settle entries = entries := by
  suffices ∀ settled : List (κ × α), ((settled ++ entries).map (·.1)).Nodup →
      entries.foldl (fun settled entry => put entry.1 entry.2 settled) settled =
        settled ++ entries from this [] distinct
  induction entries with
  | nil => simp
  | cons entry rest ih =>
      intro settled apart
      rw [List.map_append, List.map_cons] at apart
      have absent : entry.1 ∉ settled.map (·.1) := fun earlier =>
        (List.nodup_append.mp apart).2.2 _ earlier _ List.mem_cons_self rfl
      rw [List.foldl_cons, put_of_not_mem absent,
        ih (List.nodup_cons.mp distinct).2 _ (by simpa using apart), List.append_assoc]
      rfl

end ToolGrammar.Keyed
