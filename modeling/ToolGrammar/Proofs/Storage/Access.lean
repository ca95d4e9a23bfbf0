import ToolGrammar.Proofs.Schema.Success
import ToolGrammar.Proofs.Storage.Spelling
import ToolGrammar.Storage.FileSystem

namespace ToolGrammar.Storage

open Schema (ok_of_bind ok_of_pure ok_of_throw)

/-- No part of the path text leads upward. -/
def PathText.Downward (path : String) : Prop :=
  ".." ∉ PathText.names path

/-- What every operation asks of a path text before it looks at anything. -/
def PathText.Proper (path : String) : Prop :=
  path ≠ "" ∧ '\x00' ∉ path.toList ∧ path.utf8ByteSize < 4096

/-- The name is short enough for a file system. -/
def Fits (name : String) : Prop :=
  name.utf8ByteSize ≤ 255

/-- The path text can name a file. -/
structure PathText.NamesFile (path : String) : Prop where
  proper : PathText.Proper path
  closed : PathText.isOpen path = false
  fits : ∀ name ∈ PathText.steps path, Fits name
  last : ∃ front name, PathText.names path = front ++ [name] ∧ name ≠ "."

theorem PathText.Downward.of_names {path name : String} {front : List String}
    (downward : PathText.Downward path) (named : PathText.names path = front ++ [name]) :
    ".." ∉ front ∧ name ≠ ".." := by
  rw [PathText.Downward, named, List.mem_append, not_or, List.mem_singleton] at downward
  exact ⟨downward.1, Ne.symm downward.2⟩

theorem PathText.steps_of_names {path name : String} {front : List String}
    (named : PathText.names path = front ++ [name]) (other : name ≠ ".") :
    PathText.steps path = front.filter (· ≠ ".") ++ [name] := by
  simp [PathText.steps, named, other]

namespace FileSystem

/-- Everything lies in a directory, and relative paths start at one. -/
structure Sound (files : FileSystem) : Prop where
  above : ∀ location name, files.node? (location ++ [name]) ≠ none →
    files.node? location = some .directory
  current : files.node? files.current = some .directory

def start (files : FileSystem) (path : String) : Location :=
  if PathText.isAbsolute path then [] else files.current

/-- Where a path text leads that leads nowhere upward. -/
def place (files : FileSystem) (path : String) : Location :=
  files.start path ++ PathText.steps path

variable {files : FileSystem} {here location : Location} {path : String}

theorem place_of_names {front : List String} {name : String}
    (named : PathText.names path = front ++ [name]) (other : name ≠ ".") :
    files.place path = files.start path ++ front.filter (· ≠ ".") ++ [name] := by
  rw [place, PathText.steps_of_names named other, List.append_assoc]

theorem Sound.start (sound : files.Sound) (path : String) :
    files.node? (files.start path) = some .directory := by
  unfold FileSystem.start
  split
  · rfl
  · exact sound.current

theorem Sound.of_nodes
    (above : ∀ entry ∈ files.nodes, files.node? entry.1.dropLast = some .directory)
    (current : files.node? files.current = some .directory) : files.Sound := by
  refine ⟨fun location name inside => ?_, current⟩
  rw [node?, if_neg (by simp)] at inside
  obtain ⟨node, found⟩ := Option.ne_none_iff_exists'.mp inside
  have directory := above _ (Keyed.mem_of_lookup? found)
  rwa [List.dropLast_concat] at directory

/-- All that lies above something is a directory. -/
theorem Sound.prefix (sound : files.Sound) {more : List String} (some : more ≠ [])
    (there : files.node? (location ++ more) ≠ none) :
    files.node? location = Option.some .directory := by
  induction more using List.reverseRecOn with
  | nil => exact absurd rfl some
  | append_singleton more name ih =>
      rw [← List.append_assoc] at there
      have upper := sound.above _ name there
      by_cases none : more = []
      · simpa [none] using upper
      · exact ih none (by simp [upper])

theorem lookUp_snoc (files : FileSystem) (here : Location) (name : String) :
    (Fits name ∧ files.lookUp (here ++ [name]) = .ok (files.node? (here ++ [name]))) ∨
      ¬ Fits name ∧ files.lookUp (here ++ [name]) = .error .nameTooLong := by
  by_cases fits : Fits name
  · exact .inl ⟨fits, by simpa [lookUp, Fits] using fits⟩
  · exact .inr ⟨fits, by simpa [lookUp, Fits] using fits⟩

theorem lookUp_eq_ok {name : String} {found : Option Node} :
    files.lookUp (here ++ [name]) = .ok found ↔
      Fits name ∧ files.node? (here ++ [name]) = found := by
  rcases files.lookUp_snoc here name with ⟨fits, same⟩ | ⟨long, same⟩
  · simp [same, fits]
  · simp [same, long]

theorem enter_eq_ok {name : String} (other : name ≠ ".") (downward : name ≠ "..") :
    files.enter here name = .ok location ↔ location = here ++ [name] ∧ Fits name ∧
      files.node? (here ++ [name]) = some .directory := by
  simp only [enter, if_neg other, if_neg downward, ok_of_bind, lookUp_eq_ok]
  cases files.node? (here ++ [name]) with
  | none => simp
  | some node => cases node <;> simp [@eq_comm _ location, and_comm]

/-- A walk gets to the end if the end is a directory: everything above it is one then. -/
theorem foldlM_enter_eq_ok (sound : files.Sound) (there : files.node? here = some .directory)
    {names : List String} (downward : ".." ∉ names) :
    names.foldlM files.enter here = .ok location ↔
      location = here ++ names.filter (· ≠ ".") ∧ (∀ name ∈ names.filter (· ≠ "."), Fits name) ∧
        files.node? (here ++ names.filter (· ≠ ".")) = some .directory := by
  induction names generalizing here with
  | nil => simp [there, pure, Except.pure, eq_comm]
  | cons name rest ih =>
      obtain ⟨up, later⟩ := not_or.mp (List.mem_cons.not.mp downward)
      rw [List.foldlM_cons, ok_of_bind]
      by_cases idle : name = "."
      · subst idle
        simp [enter, ih there later]
      · simp only [enter_eq_ok idle (Ne.symm up)]
        rw [List.filter_cons_of_pos (by simpa using idle), List.forall_mem_cons]
        constructor
        · rintro ⟨_, ⟨rfl, fits, inside⟩, walked⟩
          obtain ⟨rfl, others, last⟩ := (ih inside later).mp walked
          exact ⟨by simp, ⟨fits, others⟩, by simpa using last⟩
        · rintro ⟨rfl, ⟨fits, others⟩, last⟩
          rw [List.append_cons] at last
          have inside : files.node? (here ++ [name]) = some .directory := by
            by_cases none : rest.filter (· ≠ ".") = []
            · rwa [none, List.append_nil] at last
            · exact sound.prefix none (by rw [last]; exact nofun)
          exact ⟨_, ⟨rfl, fits, inside⟩,
            (ih inside later).mpr ⟨List.append_cons .., others, last⟩⟩

theorem target_of_improper (files : FileSystem) (improper : ¬ PathText.Proper path) :
    ∃ reason, files.target path = .error reason ∧ (path ≠ "" → reason ≠ .missing) := by
  unfold target
  by_cases empty : path = ""
  · exact ⟨.missing, by simp [empty]; rfl, fun some => absurd empty some⟩
  · by_cases null : '\x00' ∈ path.toList
    · exact ⟨.badPath, by simp [empty, null]; rfl, fun _ => nofun⟩
    · have long : 4096 ≤ path.utf8ByteSize := by
        by_contra short
        exact improper ⟨empty, null, Nat.lt_of_not_le short⟩
      exact ⟨.nameTooLong, by simp [empty, null, long]; rfl, fun _ => nofun⟩

theorem target_of_proper (files : FileSystem) (proper : PathText.Proper path) :
    files.target path = (PathText.names path).dropLast.foldlM files.enter (files.start path) >>=
      fun above =>
        match (PathText.names path).getLast? with
        | none | some "." => pure (.directory above)
        | some ".." => pure (.directory above.dropLast)
        | some name => pure (.entry (above ++ [name]) (PathText.isOpen path)) := by
  obtain ⟨some, clean, short⟩ := proper
  simp only [target, if_neg some, if_neg clean, if_neg (Nat.not_le.mpr short)]
  rfl

theorem target_of_name (files : FileSystem) (proper : PathText.Proper path) {front : List String}
    {name : String} (named : PathText.names path = front ++ [name]) (other : name ≠ ".")
    (downward : name ≠ "..") :
    files.target path = front.foldlM files.enter (files.start path) >>=
      fun above => pure (.entry (above ++ [name]) (PathText.isOpen path)) := by
  rw [target_of_proper files proper, named, List.dropLast_concat, List.getLast?_concat]
  congr 1
  funext above
  split <;> simp_all

/-- What a path text with a last name leads to has been walked to by the names before it. -/
theorem look_of_name (files : FileSystem) (proper : PathText.Proper path) {front : List String}
    {name : String} (named : PathText.names path = front ++ [name]) (other : name ≠ ".")
    (downward : name ≠ "..") {content : ByteArray} :
    files.look path = .ok (location, .file content) ↔ ∃ above,
      front.foldlM files.enter (files.start path) = .ok above ∧ location = above ++ [name] ∧
        Fits name ∧ files.node? (above ++ [name]) = some (.file content) ∧
        PathText.isOpen path = false := by
  simp only [look, target_of_name files proper named other downward, bind_assoc, pure_bind,
    ok_of_bind]
  refine exists_congr fun above => and_congr_right fun _ => ?_
  simp only [lookUp_eq_ok]
  constructor
  · rintro ⟨found, ⟨fits, there⟩, answered⟩
    rcases found with _ | own | _
    · simp at answered
    · cases opened : PathText.isOpen path with
      | true => simp [opened] at answered
      | false =>
          obtain ⟨rfl, rfl⟩ : above ++ [name] = location ∧ own = content := by
            simpa [opened] using answered
          exact ⟨rfl, fits, there, rfl⟩
    · simp at answered
  · rintro ⟨rfl, fits, there, closed⟩
    exact ⟨_, ⟨fits, there⟩, by simp [closed]⟩

theorem look_eq_file (sound : files.Sound) (downward : PathText.Downward path)
    {content : ByteArray} :
    files.look path = .ok (location, .file content) ↔ PathText.NamesFile path ∧
      location = files.place path ∧ files.node? (files.place path) = some (.file content) := by
  by_cases proper : PathText.Proper path
  swap
  · obtain ⟨reason, failed, -⟩ := target_of_improper files proper
    refine ⟨fun looked => ?_, fun names => absurd names.1.proper proper⟩
    simp [look, failed] at looked
  rcases List.eq_nil_or_concat (PathText.names path) with none | ⟨front, name, named⟩
  · refine ⟨fun looked => ?_, fun names => ?_⟩
    · simp [look, target_of_proper files proper, none] at looked
    · obtain ⟨front, name, named, -⟩ := names.1.last
      simp [none] at named
  rw [List.concat_eq_append] at named
  by_cases idle : name = "."
  · refine ⟨fun looked => ?_, fun names => ?_⟩
    · simp [look, target_of_proper files proper, named, idle] at looked
    · obtain ⟨front', name', again, other⟩ := names.1.last
      have same : name = name' := by simpa using congrArg List.getLast? (named.symm.trans again)
      exact absurd (same ▸ idle) other
  obtain ⟨later, down⟩ := downward.of_names named
  have steps := PathText.steps_of_names named idle
  simp only [look_of_name files proper named idle down, foldlM_enter_eq_ok sound (sound.start path)
    later, place_of_names named idle]
  constructor
  · rintro ⟨_, ⟨rfl, fits, -⟩, rfl, own, there, closed⟩
    refine ⟨⟨proper, closed, ?_, front, name, named, idle⟩, rfl, there⟩
    rw [steps]
    exact List.forall_mem_append.mpr ⟨fits, by simpa using own⟩
  · rintro ⟨names, rfl, there⟩
    have fits := steps ▸ names.fits
    rw [List.forall_mem_append] at fits
    exact ⟨_, ⟨rfl, fits.1, sound.above _ name (by rw [there]; exact nofun)⟩, rfl,
      by simpa using fits.2, there, names.closed⟩

theorem read_eq_ok_iff_look {text : String} : files.read path = .ok text ↔ ∃ location content,
    files.look path = .ok (location, .file content) ∧ String.fromUTF8? content = some text := by
  rw [read, ok_of_bind]
  constructor
  · rintro ⟨⟨location, node⟩, looked, answered⟩
    cases node with
    | directory => simp at answered
    | file content =>
        refine ⟨location, content, looked, ?_⟩
        cases read : String.fromUTF8? content with
        | none => simp [read] at answered
        | some own => simpa [read] using answered
  · rintro ⟨location, content, looked, decoded⟩
    exact ⟨_, looked, by simp [decoded]⟩

theorem read_eq_ok (sound : files.Sound) (downward : PathText.Downward path) {text : String} :
    files.read path = .ok text ↔ PathText.NamesFile path ∧ ∃ content,
      files.node? (files.place path) = some (.file content) ∧
        String.fromUTF8? content = some text := by
  simp only [read_eq_ok_iff_look, look_eq_file sound downward]
  constructor
  · rintro ⟨_, content, ⟨names, rfl, there⟩, decoded⟩
    exact ⟨names, content, there, decoded⟩
  · rintro ⟨names, content, there, decoded⟩
    exact ⟨_, content, ⟨names, rfl, there⟩, decoded⟩

/-- Writing needs the directory above and no directory in the place itself. -/
theorem write_eq_ok (sound : files.Sound) (downward : PathText.Downward path)
    (proper : PathText.Proper path) (closed : PathText.isOpen path = false) {front : List String}
    {name : String} (named : PathText.names path = front ++ [name]) (other : name ≠ ".")
    {text : String} {after : FileSystem} :
    files.write path text = .ok after ↔
      (∀ name ∈ PathText.steps path, Fits name) ∧
      files.node? (files.start path ++ front.filter (· ≠ ".")) = some .directory ∧
      files.node? (files.place path) ≠ some .directory ∧
      after = files.put (files.place path) (.file text.toUTF8) := by
  obtain ⟨later, down⟩ := downward.of_names named
  simp only [write, target_of_name files proper named other down, bind_assoc, pure_bind, closed,
    ok_of_bind, foldlM_enter_eq_ok sound (sound.start path) later, place_of_names named other,
    PathText.steps_of_names named other, List.forall_mem_append, List.forall_mem_singleton]
  constructor
  · rintro ⟨_, ⟨rfl, fits, above⟩, found, looked, answered⟩
    obtain ⟨own, there⟩ := lookUp_eq_ok.mp looked
    rw [there]
    rcases found with _ | _ | _
    · exact ⟨⟨fits, own⟩, above, by simp, (ok_of_pure.mp answered).symm⟩
    · exact ⟨⟨fits, own⟩, above, by simp, (ok_of_pure.mp answered).symm⟩
    · simp at answered
  · rintro ⟨⟨fits, own⟩, above, free, rfl⟩
    refine ⟨_, ⟨rfl, fits, above⟩, _, lookUp_eq_ok.mpr ⟨own, rfl⟩, ?_⟩
    generalize files.node? (files.start path ++ front.filter (· ≠ ".") ++ [name]) = found at free
    rcases found with _ | _ | _
    · rfl
    · rfl
    · exact absurd rfl free

end FileSystem

end ToolGrammar.Storage
