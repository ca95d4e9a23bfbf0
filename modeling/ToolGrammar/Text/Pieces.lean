namespace ToolGrammar.Text

def pieces (separator : Char) (text : String) : List String :=
  (text.toList.splitOn separator).map String.ofList

theorem not_mem_of_mem_splitOn {separator : Char} {chars piece : List Char}
    (member : piece ∈ chars.splitOn separator) : separator ∉ piece := by
  induction chars generalizing piece with
  | nil => simp_all
  | cons char rest ih =>
      rw [List.splitOn_cons_eq_if_modifyHead] at member
      split at member
      · rcases List.mem_cons.mp member with rfl | later
        · exact List.not_mem_nil
        · exact ih later
      · rename_i other
        have other : char ≠ separator := by simpa using other
        obtain ⟨first, others, split⟩ :=
          List.exists_cons_of_ne_nil (List.splitOn_ne_nil separator rest)
        rw [split, List.modifyHead_cons] at member
        rcases List.mem_cons.mp member with rfl | later
        · exact List.not_mem_cons_of_ne_of_not_mem other.symm (ih (by simp [split]))
        · exact ih (by simp [split, later])

theorem ofList_intercalate_pieces (separator : Char) (text : String) :
    (String.ofList [separator]).intercalate (pieces separator text) = text := by
  rw [← String.toList_inj, String.toList_intercalate, pieces, List.map_map]
  simp

/-- Texts with the same pieces are the same. -/
theorem pieces_inj {separator : Char} {left right : String}
    (same : pieces separator left = pieces separator right) : left = right := by
  rw [← ofList_intercalate_pieces separator left, same, ofList_intercalate_pieces]

end ToolGrammar.Text
