import Mathlib.Data.List.TakeWhile
import ToolGrammar.Storage.PathText

namespace ToolGrammar.Text

theorem pieces_ofList_intercalate {separator : Char} {texts : List String} (some : texts ≠ [])
    (solid : ∀ text ∈ texts, separator ∉ text.toList) :
    pieces separator ((String.ofList [separator]).intercalate texts) = texts := by
  have whole : ([separator].intercalate (texts.map String.toList)).splitOn separator =
      texts.map String.toList :=
    List.splitOn_intercalate separator (by simpa using solid) (by simpa using some)
  rw [pieces, String.toList_intercalate, String.toList_ofList, whole]
  simp

theorem pieces_intercalate {texts : List String} (some : texts ≠ [])
    (solid : ∀ text ∈ texts, '/' ∉ text.toList) : pieces '/' ("/".intercalate texts) = texts :=
  pieces_ofList_intercalate some solid

theorem intercalate_pieces (text : String) : "/".intercalate (pieces '/' text) = text :=
  ofList_intercalate_pieces '/' text

theorem pieces_append_slash (before after : String) :
    pieces '/' (before ++ "/" ++ after) = pieces '/' before ++ pieces '/' after := by
  simp [pieces, List.splitOn_append_cons_self]

theorem pieces_of_solid {text : String} (solid : '/' ∉ text.toList) : pieces '/' text = [text] := by
  simp [pieces, List.splitOn_eq_singleton solid]

theorem pieces_slash (text : String) : pieces '/' ("/" ++ text) = "" :: pieces '/' text := by
  simp [pieces, List.splitOn_cons_eq_if_modifyHead]

theorem pieces_ne_nil (text : String) : pieces '/' text ≠ [] := by
  simp [pieces, List.splitOn_ne_nil]

theorem solid_of_mem_pieces {text piece : String} (member : piece ∈ pieces '/' text) :
    '/' ∉ piece.toList := by
  obtain ⟨chars, found, rfl⟩ := List.mem_map.mp member
  simpa using not_mem_of_mem_splitOn found

end ToolGrammar.Text

namespace ToolGrammar.Storage.PathText

open Text (pieces)

/-- A path text of these pieces has this lead, and these pieces after it. -/
inductive Spells : String → List String → List String → Prop
  | root (first : String) (rest : List String) :
      Spells "/" (first :: rest) ("" :: first :: rest)
  | here (rest : List String) : Spells "." ("" :: rest) ("." :: rest)
  | plain {first : String} {rest : List String} (other : first ≠ ".")
      (some : first = "" → rest = []) : Spells "" (first :: rest) (first :: rest)

variable {start path : String} {after parts : List String}

theorem exists_spells (some : parts ≠ []) : ∃ start after, Spells start after parts := by
  obtain ⟨first, rest, rfl⟩ := List.exists_cons_of_ne_nil some
  by_cases here : first = "."
  · subst here
    exact ⟨".", _, .here rest⟩
  · by_cases alone : first = "" → rest = []
    · exact ⟨"", _, .plain here alone⟩
    · obtain ⟨rfl, more⟩ := Classical.not_imp.mp alone
      obtain ⟨next, rest, rfl⟩ := List.exists_cons_of_ne_nil more
      exact ⟨"/", _, .root next rest⟩

theorem Spells.ne_nil (spells : Spells start after parts) : after ≠ [] := by
  cases spells <;> simp

theorem Spells.parts_ne_nil (spells : Spells start after parts) : parts ≠ [] := by
  cases spells <;> simp

theorem Spells.start_cases (spells : Spells start after parts) :
    start = "/" ∨ start = "." ∨ start = "" := by
  cases spells <;> simp

theorem Spells.solid (spells : Spells start after parts)
    (solid : ∀ part ∈ parts, '/' ∉ part.toList) : ∀ part ∈ after, '/' ∉ part.toList := by
  cases spells with
  | root => exact (List.forall_mem_cons.mp solid).2
  | here => exact List.forall_mem_cons.mpr ⟨by decide, (List.forall_mem_cons.mp solid).2⟩
  | plain => exact solid

/-- The end can be taken away as long as something stays. -/
theorem Spells.of_append {before rest : List String} (some : before ≠ [])
    (spells : Spells start (before ++ rest) parts) : ∃ parts', parts = parts' ++ rest ∧
      Spells start before parts' := by
  cases before with
  | nil => exact absurd rfl some
  | cons first before =>
      cases spells with
      | root => exact ⟨"" :: first :: before, rfl, .root first before⟩
      | here => exact ⟨"." :: before, rfl, .here before⟩
      | plain other alone =>
          exact ⟨first :: before, rfl, .plain other fun empty => by
            simpa using (List.append_eq_nil_iff.mp (alone empty)).1⟩

theorem Spells.intercalate (spells : Spells start after parts) :
    "/".intercalate parts = start ++ "/".intercalate after := by
  cases spells with
  | root first rest => rw [String.intercalate_cons_cons]; simp
  | here rest =>
      cases rest with
      | nil => rfl
      | cons next rest =>
          rw [String.intercalate_cons_cons, String.intercalate_cons_cons, String.append_assoc,
            String.append_assoc, String.empty_append]
  | plain => simp

/-- A path text is absolute just when its first piece is empty and not the only one. -/
theorem isAbsolute_iff :
    isAbsolute path = true ↔ ∃ next rest, pieces '/' path = "" :: next :: rest := by
  constructor
  · intro absolute
    obtain ⟨rest, spelled⟩ : ∃ rest, path.toList = '/' :: rest := by
      simpa [isAbsolute, List.head?_eq_some_iff] using absolute
    obtain rfl : path = "/" ++ String.ofList rest := by
      rw [← String.toList_inj, spelled]
      simp
    rw [Text.pieces_slash]
    obtain ⟨next, more, spelled⟩ :=
      List.exists_cons_of_ne_nil (Text.pieces_ne_nil (String.ofList rest))
    exact ⟨next, more, by rw [spelled]⟩
  · rintro ⟨next, rest, spelled⟩
    rw [← Text.intercalate_pieces path, spelled]
    simp [isAbsolute, String.intercalate_cons_cons]

theorem lead_of_spells (spells : Spells start after (pieces '/' path)) : lead path = start := by
  generalize spelled : pieces '/' path = parts at spells
  cases spells with
  | root first rest => rw [lead, if_pos (isAbsolute_iff.mpr ⟨first, rest, spelled⟩)]
  | here rest =>
      have relative : ¬ isAbsolute path = true := by simp [isAbsolute_iff, spelled]
      rw [lead, if_neg relative, spelled]
      rfl
  | @plain first rest other alone =>
      have relative : ¬ isAbsolute path = true := by
        rw [isAbsolute_iff, spelled]
        rintro ⟨next, more, same⟩
        obtain ⟨empty, some⟩ := List.cons.inj same
        simp [alone empty] at some
      rw [lead, if_neg relative, spelled, if_neg (by simpa using other)]

theorem body_of_spells (spells : Spells start after (pieces '/' path)) :
    body path = after.reverse := by
  have solid := spells.solid fun _ => Text.solid_of_mem_pieces
  have whole : path = start ++ "/".intercalate after := by
    rw [← spells.intercalate, Text.intercalate_pieces]
  have tail : path.toList.drop start.length = ("/".intercalate after).toList :=
    (congrArg (·.toList.drop start.length) whole).trans (by simp [← String.length_toList])
  rw [body, lead_of_spells spells, tail, String.ofList_toList,
    Text.pieces_intercalate spells.ne_nil solid]

theorem spells_of_path (path : String) :
    Spells (lead path) (body path).reverse (pieces '/' path) := by
  obtain ⟨start, after, spells⟩ := exists_spells (Text.pieces_ne_nil path)
  rw [lead_of_spells spells, body_of_spells spells, List.reverse_reverse]
  exact spells

theorem isAbsolute_iff_lead : isAbsolute path = true ↔ lead path = "/" := by
  unfold lead
  split
  · simp_all
  · split <;> simp_all

/-- The names that a path text leads through, without those that count for nothing. -/
def steps (path : String) : List String :=
  (names path).filter (· ≠ ".")

theorem Spells.filter_names (spells : Spells start after parts) :
    parts.filter (· ≠ "") =
      (if start = "." then ["."] else []) ++ after.filter (· ≠ "") := by
  cases spells <;> simp

theorem names_eq (path : String) :
    names path = (if lead path = "." then ["."] else []) ++ (body path).reverse.filter (· ≠ "") :=
  (spells_of_path path).filter_names

theorem filter_lead (start : String) :
    (if start = "." then ["."] else []).filter (· ≠ ".") = [] := by
  split <;> simp

theorem filter_named (pieces : List String) :
    (pieces.filter (· ≠ "")).filter (· ≠ ".") = pieces.filter (! isIdle ·) := by
  rw [List.filter_filter]
  congr 1
  funext piece
  rw [Bool.eq_iff_iff]
  simp [isIdle, and_comm]

theorem filter_dropWhile_isIdle (pieces : List String) :
    (pieces.dropWhile isIdle).filter (! isIdle ·) = pieces.filter (! isIdle ·) := by
  induction pieces with
  | nil => rfl
  | cons piece rest ih =>
      by_cases idle : isIdle piece = true
      · rw [List.dropWhile_cons_of_pos idle, ih, List.filter_cons_of_neg (by simpa using idle)]
      · rw [List.dropWhile_cons_of_neg idle]

theorem steps_eq (path : String) : steps path = (body path).reverse.filter (! isIdle ·) := by
  rw [steps, names_eq, List.filter_append, filter_lead, List.nil_append, filter_named]

/-- The pieces, the last one first, are those that remain of a path text of this lead when the last
ones are taken away. -/
def Remains (start : String) (remaining : List String) : Prop :=
  ∃ gone parts, Spells start (remaining.reverse ++ gone) parts ∧ ∀ part ∈ parts, '/' ∉ part.toList

variable {remaining : List String}

theorem remains_body (path : String) : Remains (lead path) (body path) :=
  ⟨[], pieces '/' path, by simpa using spells_of_path path, fun _ => Text.solid_of_mem_pieces⟩

theorem Remains.of_append (front : List String)
    (remains : Remains start (front ++ remaining)) : Remains start remaining := by
  obtain ⟨gone, parts, spells, solid⟩ := remains
  rw [List.reverse_append, List.append_assoc] at spells
  exact ⟨front.reverse ++ gone, parts, spells, solid⟩

theorem Remains.dropWhile (remains : Remains start remaining) :
    Remains start (remaining.dropWhile isIdle) :=
  .of_append (remaining.takeWhile isIdle) (by rwa [List.takeWhile_append_dropWhile])

/-- What remains spells a path text of its own, unless nothing does. -/
theorem Remains.spells (remains : Remains start remaining) (some : remaining ≠ []) :
    Spells start remaining.reverse (pieces '/' (build start remaining)) := by
  obtain ⟨gone, parts, whole, solid⟩ := remains
  obtain ⟨kept, rfl, spells⟩ := whole.of_append (by simpa using some)
  rwa [build, ← spells.intercalate, Text.pieces_intercalate spells.parts_ne_nil fun part member =>
    solid part (List.mem_append_left _ member)]

theorem Remains.start_cases (remains : Remains start remaining) :
    start = "/" ∨ start = "." ∨ start = "" :=
  let ⟨_, _, spells, _⟩ := remains
  spells.start_cases

theorem Remains.names_build (remains : Remains start remaining) :
    names (build start remaining) =
      (if start = "." then ["."] else []) ++ remaining.reverse.filter (· ≠ "") := by
  cases remaining with
  | nil => rcases remains.start_cases with rfl | rfl | rfl <;> decide
  | cons => exact (remains.spells (by simp)).filter_names

theorem Remains.steps_build (remains : Remains start remaining) :
    steps (build start remaining) = remaining.reverse.filter (! isIdle ·) := by
  rw [steps, remains.names_build, List.filter_append, filter_lead, List.nil_append, filter_named]

theorem Remains.isAbsolute_build (remains : Remains start remaining) :
    isAbsolute (build start remaining) = true ↔ start = "/" := by
  cases remaining with
  | nil => rcases remains.start_cases with rfl | rfl | rfl <;> decide
  | cons => rw [isAbsolute_iff_lead, lead_of_spells (remains.spells (by simp))]

theorem Remains.parents_build (remains : Remains start remaining) :
    parents (build start remaining) = parentsFrom start remaining := by
  cases remaining with
  | nil => rcases remains.start_cases with rfl | rfl | rfl <;> decide
  | cons name above =>
      have spells := remains.spells (by simp)
      rw [parents, lead_of_spells spells, body_of_spells spells, List.reverse_reverse]

theorem parentsFrom_dropWhile (start : String) (remaining : List String) :
    parentsFrom start (remaining.dropWhile isIdle) = parentsFrom start remaining := by
  induction remaining with
  | nil => rfl
  | cons name above ih =>
      by_cases idle : isIdle name = true
      · rw [List.dropWhile_cons_of_pos idle, parentsFrom, if_pos idle, ih]
      · rw [List.dropWhile_cons_of_neg idle]

/-- Names joined to a directory come after the same pieces. -/
theorem exists_prior (directory : String) : ∃ prior, prior.filter (· ≠ "") = names directory ∧
    ∀ name : String, '/' ∉ name.toList → pieces '/' (join directory name) = prior ++ [name] := by
  have relative : ∀ name : String, '/' ∉ name.toList → isAbsolute name = false := by
    intro name solid
    simp [← Bool.not_eq_true, isAbsolute_iff, Text.pieces_of_solid solid]
  by_cases empty : directory = ""
  · subst empty
    exact ⟨[], by decide, fun name solid => by
      simp [join, relative name solid, Text.pieces_of_solid solid]⟩
  · by_cases ends : isOpen directory = true
    · obtain ⟨front, spelled⟩ : ∃ front, directory.toList = front ++ ['/'] := by
        simpa [isOpen, List.getLast?_eq_some_iff] using ends
      obtain rfl : directory = String.ofList front ++ "/" := by
        rw [← String.toList_inj, spelled]
        simp
      have whole : pieces '/' (String.ofList front ++ "/") =
          pieces '/' (String.ofList front) ++ [""] := by
        simpa [Text.pieces_of_solid] using Text.pieces_append_slash (String.ofList front) ""
      refine ⟨pieces '/' (String.ofList front), by simp [names, whole], fun name solid => ?_⟩
      rw [join, if_neg (by simp [relative name solid]), if_pos (.inr ends),
        Text.pieces_append_slash, Text.pieces_of_solid solid]
    · refine ⟨pieces '/' directory, rfl, fun name solid => ?_⟩
      rw [join, if_neg (by simp [relative name solid]), if_neg (by simp [empty, ends]),
        Text.pieces_append_slash, Text.pieces_of_solid solid]

theorem exists_spells_snoc (prior : List String) : ∃ start above, ∀ name : String, name ≠ "" →
    name ≠ "." → Spells start (above ++ [name]) (prior ++ [name]) := by
  match prior with
  | [] => exact ⟨"", [], fun name some other => .plain other fun empty => absurd empty some⟩
  | first :: rest =>
      by_cases here : first = "."
      · exact ⟨".", "" :: rest, fun name _ _ => here ▸ .here (rest ++ [name])⟩
      · by_cases root : first = ""
        · refine ⟨"/", rest, fun name _ _ => ?_⟩
          cases rest with
          | nil => exact root ▸ .root name []
          | cons next rest => exact root ▸ .root next (rest ++ [name])
        · exact ⟨"", first :: rest, fun name _ _ => .plain here fun empty => absurd empty root⟩

/-- Whatever name is joined to a directory, what comes before it is the same. -/
theorem exists_join (directory : String) : ∃ start above, ∀ name : String, '/' ∉ name.toList →
    name ≠ "" → name ≠ "." →
    lead (join directory name) = start ∧ body (join directory name) = name :: above ∧
      names (join directory name) = names directory ++ [name] := by
  obtain ⟨prior, named, joined⟩ := exists_prior directory
  obtain ⟨start, above, spells⟩ := exists_spells_snoc prior
  refine ⟨start, above.reverse, fun name solid some other => ?_⟩
  have spells : Spells start (above ++ [name]) (pieces '/' (join directory name)) :=
    joined name solid ▸ spells name some other
  refine ⟨lead_of_spells spells, by simp [body_of_spells spells], ?_⟩
  rw [names, joined name solid, List.filter_append, named]
  simp [some]

theorem exists_of_fileName? {name : String} (found : fileName? path = some name) :
    ∃ above, (body path).dropWhile isIdle = name :: above := by
  unfold fileName? at found
  split at found
  · simp at found
  · simp at found
  · rename_i other above _ trimmed
    obtain rfl : other = name := by simpa using found
    exact ⟨above, trimmed⟩

theorem exists_idle_front {ps above : List String} {name : String}
    (trimmed : ps.dropWhile isIdle = name :: above) :
    isIdle name = false ∧
      ∃ idles, ps = idles ++ name :: above ∧ idles.filter (! isIdle ·) = [] := by
  have head := List.head?_dropWhile_not isIdle ps
  refine ⟨by simpa [trimmed] using head, ps.takeWhile isIdle, ?_, ?_⟩
  · rw [← trimmed, List.takeWhile_append_dropWhile]
  · rw [List.filter_eq_nil_iff]
    exact fun other inside => by simpa using List.mem_takeWhile_imp inside

/-- The file name of a path text is the last name that it leads through. -/
theorem steps_of_fileName? {name : String} (found : fileName? path = some name) :
    isIdle name = false ∧ '/' ∉ name.toList ∧ ∃ before, steps path = before ++ [name] := by
  obtain ⟨above, trimmed⟩ := exists_of_fileName? found
  obtain ⟨other, idles, whole, idle⟩ := exists_idle_front trimmed
  have solid : ∀ part ∈ body path, '/' ∉ part.toList := fun part member =>
    (spells_of_path path).solid (fun _ => Text.solid_of_mem_pieces) part
      (List.mem_reverse.mpr member)
  refine ⟨other, solid name (by simp [whole]), above.reverse.filter (! isIdle ·), ?_⟩
  rw [steps_eq, whole]
  simp only [List.reverse_append, List.filter_append, List.filter_reverse, idle]
  simp [other]

theorem stemOf_append_ending {stem : String} (some : stem ≠ "") {ending : String}
    (plain : '.' ∉ ending.toList) : stemOf (stem ++ "." ++ ending) = stem := by
  have none : ending.toList.reverse.dropWhile (· ≠ '.') = [] := by
    rw [List.dropWhile_eq_nil_iff]
    intro c member
    simpa using fun same : c = '.' => plain (same ▸ List.mem_reverse.mp member)
  have cut : (stem ++ "." ++ ending).toList.reverse.dropWhile (· ≠ '.') =
      '.' :: stem.toList.reverse := by
    rw [String.toList_append, String.toList_append, List.reverse_append, List.dropWhile_append,
      none]
    simp
  obtain ⟨last, before, spelled⟩ := List.exists_cons_of_ne_nil
    (show stem.toList.reverse ≠ [] by simpa using some)
  rw [stemOf, cut, spelled]
  simp [← spelled]

theorem stemOf_cases (name : String) : stemOf name = name ∨ ∃ last before,
    last :: before ⊆ name.toList.reverse ∧
      stemOf name = String.ofList (last :: before).reverse := by
  rw [stemOf]
  cases cut : name.toList.reverse.dropWhile (· ≠ '.') with
  | nil => exact .inl rfl
  | cons dot rest =>
      cases rest with
      | nil => exact .inl rfl
      | cons last before =>
          refine .inr ⟨last, before, fun c member => ?_, rfl⟩
          exact (List.dropWhile_subset _) (cut ▸ List.mem_cons_of_mem dot member)

theorem stemOf_ne_empty {name : String} (some : name ≠ "") : stemOf name ≠ "" := by
  rcases stemOf_cases name with same | ⟨last, before, -, same⟩
  · rwa [same]
  · simp [same]

theorem solid_stemOf {name : String} (solid : '/' ∉ name.toList) : '/' ∉ (stemOf name).toList := by
  rcases stemOf_cases name with same | ⟨last, before, inside, same⟩
  · rwa [same]
  · rw [same, String.toList_ofList, List.mem_reverse]
    exact fun slash => solid (List.mem_reverse.mp (inside slash))

/-- The output name of a path text comes from the last name that it leads through. -/
theorem steps_of_stem? {stem : String} (found : stem? path = some stem) :
    stem ≠ "" ∧ '/' ∉ stem.toList ∧
      ∃ before name, steps path = before ++ [name] ∧ stemOf name = stem := by
  obtain ⟨name, named, rfl⟩ := Option.map_eq_some_iff.mp found
  obtain ⟨other, solid, before, whole⟩ := steps_of_fileName? named
  have some : name ≠ "" := by
    rintro rfl
    cases other
  exact ⟨stemOf_ne_empty some, solid_stemOf solid, before, name, whole, rfl⟩

end ToolGrammar.Storage.PathText
