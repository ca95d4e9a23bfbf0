import ToolGrammar.Proofs.Storage.Access

/-!
Making directories. The directories of a path text are made from the top as far as the way is clear,
which it is of files and of names that are too long; they can all be made just when the whole way
is clear. So making them again changes nothing, and has the same answer.
-/
namespace ToolGrammar.Storage.FileSystem

variable {files made : FileSystem} {here location : Location} {names : List String}

/-- Nothing is in the way of a directory of this name. -/
def Free (files : FileSystem) (here : Location) (name : String) : Prop :=
  Fits name ∧ ∀ content, files.node? (here ++ [name]) ≠ some (.file content)

/-- Nothing is in the way of directories of these names, each in the one before. -/
def Clear (files : FileSystem) (here : Location) : List String → Prop
  | [] => True
  | name :: rest => files.Free here name ∧ files.Clear (here ++ [name]) rest

/-- The location is on the way, and nothing is in the way up to there. -/
def Reaches (files : FileSystem) (here : Location) (names : List String) (location : Location) :
    Prop :=
  ∃ front, front <+: names ∧ location = here ++ front ∧ files.Clear here front

theorem clear_append {front rest : List String} :
    files.Clear here (front ++ rest) ↔
      files.Clear here front ∧ files.Clear (here ++ front) rest := by
  induction front generalizing here with
  | nil => simp [Clear]
  | cons name front ih => simp [Clear, ih, and_assoc]

theorem clear_snoc {name : String} :
    files.Clear here (names ++ [name]) ↔
      files.Clear here names ∧ files.Free (here ++ names) name := by
  simp [clear_append, Clear]

/-- Only what lies on the way decides whether it is clear. -/
theorem clear_congr (same : ∀ front content, front <+: names →
    (made.node? (here ++ front) = some (.file content) ↔
      files.node? (here ++ front) = some (.file content))) :
    made.Clear here names ↔ files.Clear here names := by
  induction names generalizing here with
  | nil => exact Iff.rfl
  | cons name rest ih =>
      refine and_congr (and_congr_right fun _ => forall_congr' fun content =>
        not_congr (same [name] content ⟨rest, rfl⟩)) (ih fun front content within => ?_)
      rw [List.append_assoc]
      exact same (name :: front) content (List.cons_prefix_cons.mpr ⟨rfl, within⟩)

/-- The way to a directory is clear. -/
theorem clear_of_directory (sound : files.Sound) (fits : ∀ name ∈ names, Fits name)
    (there : files.node? (here ++ names) = some .directory) : files.Clear here names := by
  induction names using List.reverseRecOn with
  | nil => trivial
  | append_singleton names name ih =>
      obtain ⟨upper, own⟩ := List.forall_mem_append.mp fits
      rw [← List.append_assoc] at there
      have above := sound.above _ name (by rw [there]; exact nofun)
      refine clear_snoc.mpr ⟨ih upper above, by simpa using own, fun content file => ?_⟩
      rw [there] at file
      cases file

theorem reaches_snoc {name : String} : files.Reaches here (names ++ [name]) location ↔
    files.Reaches here names location ∨
      location = here ++ names ++ [name] ∧ files.Clear here (names ++ [name]) := by
  constructor
  · rintro ⟨front, within, rfl, clear⟩
    rcases List.prefix_concat_iff.mp within with rfl | within
    · exact .inr ⟨(List.append_assoc ..).symm, clear⟩
    · exact .inl ⟨front, within, rfl, clear⟩
  · rintro (⟨front, within, rfl, clear⟩ | ⟨rfl, clear⟩)
    · exact ⟨front, within.trans (List.prefix_append ..), rfl, clear⟩
    · exact ⟨names ++ [name], List.prefix_refl _, List.append_assoc .., clear⟩

/-- On the way to a directory all are directories. -/
theorem Reaches.directory (sound : files.Sound)
    (there : files.node? (here ++ names) = some .directory)
    (reaches : files.Reaches here names location) : files.node? location = some .directory := by
  obtain ⟨front, ⟨rest, rfl⟩, rfl, -⟩ := reaches
  by_cases none : rest = []
  · simpa [none] using there
  · exact sound.prefix none (by rw [List.append_assoc, there]; exact nofun)

/-- What an attempt to make directories of these names comes to. -/
structure Makes (files : FileSystem) (here : Location) (names : List String)
    (outcome : Except AccessError Unit × FileSystem) : Prop where
  answer : outcome.1.isOk = true ↔ files.Clear here names
  reached : ∀ location, files.Reaches here names location →
    outcome.2.node? location = some .directory
  kept : ∀ location, ¬ files.Reaches here names location →
    outcome.2.node? location = files.node? location
  current : outcome.2.current = files.current

/-- No file is reached. -/
theorem Reaches.no_file (there : files.node? here = some .directory)
    (reaches : files.Reaches here names location) (content : ByteArray) :
    files.node? location ≠ some (.file content) := by
  obtain ⟨front, -, rfl, clear⟩ := reaches
  rcases List.eq_nil_or_concat front with rfl | ⟨before, name, rfl⟩
  · rw [List.append_nil, there]
    exact nofun
  · rw [List.concat_eq_append] at clear ⊢
    rw [← List.append_assoc]
    exact (clear_snoc.mp clear).2.2 content

theorem reaches_cons {name : String} {rest : List String} :
    files.Reaches here (name :: rest) location ↔ location = here ∨
      files.Free here name ∧ files.Reaches (here ++ [name]) rest location := by
  constructor
  · rintro ⟨front, within, rfl, clear⟩
    cases front with
    | nil => exact .inl (List.append_nil _)
    | cons first front =>
        obtain ⟨rfl, inside⟩ := List.cons_prefix_cons.mp within
        exact .inr ⟨clear.1, front, inside, List.append_cons .., clear.2⟩
  · rintro (rfl | ⟨free, front, within, rfl, clear⟩)
    · exact ⟨[], List.nil_prefix, (List.append_nil _).symm, trivial⟩
    · exact ⟨name :: front, List.cons_prefix_cons.mpr ⟨rfl, within⟩, (List.append_cons ..).symm,
        free, clear⟩

theorem Clear.fits (clear : files.Clear here names) : ∀ name ∈ names, Fits name := by
  induction names generalizing here with
  | nil => simp
  | cons name rest ih => exact List.forall_mem_cons.mpr ⟨clear.1.1, ih clear.2⟩

/-- A walk that is stopped by something, and not by nothing, has come through directories. -/
theorem stopped_of_foldlM_enter (there : files.node? here = some .directory)
    (downward : ".." ∉ names) {reason : AccessError}
    (failed : names.foldlM files.enter here = .error reason) (other : reason ≠ .missing) :
    ¬ files.Clear here (names.filter (· ≠ ".")) ∧
      ∀ location, files.Reaches here (names.filter (· ≠ ".")) location →
        files.node? location = some .directory := by
  induction names generalizing here with
  | nil => cases failed
  | cons name rest ih =>
      obtain ⟨up, later⟩ := not_or.mp (List.mem_cons.not.mp downward)
      rw [List.foldlM_cons] at failed
      by_cases idle : name = "."
      · subst idle
        exact ih there later failed
      · rw [List.filter_cons_of_pos (by simpa using idle)]
        simp only [reaches_cons, Clear]
        rw [enter, if_neg idle, if_neg (Ne.symm up)] at failed
        by_cases free : files.Free here name
        · rcases files.lookUp_snoc here name with ⟨-, looked⟩ | ⟨long, -⟩
          · rcases found : files.node? (here ++ [name]) with _ | ⟨content⟩ | _ <;>
              rw [looked, found] at failed
            · cases failed
              exact absurd rfl other
            · exact absurd found (free.2 content)
            · obtain ⟨shut, through⟩ := ih found later failed
              exact ⟨fun clear => shut clear.2, fun location reaches =>
                reaches.elim (fun same => same ▸ there) fun reaches => through location reaches.2⟩
          · exact absurd free.1 long
        · exact ⟨fun clear => free clear.1, fun location reaches =>
            reaches.elim (fun same => same ▸ there) fun reaches => absurd reaches.1 free⟩

theorem Makes.of_same {answer : Except AccessError Unit}
    (same : answer.isOk = true ↔ files.Clear here names)
    (there : ∀ location, files.Reaches here names location →
      files.node? location = some .directory) : files.Makes here names (answer, files) :=
  ⟨same, there, fun _ _ => rfl, rfl⟩

section

variable {name : String} {answer : Except AccessError Unit}
  {outcome : Except AccessError Unit × FileSystem}

theorem Makes.directory (makes : files.Makes here names outcome) (clear : files.Clear here names) :
    outcome.2.node? (here ++ names) = some .directory :=
  makes.reached _ ⟨names, List.prefix_refl _, rfl, clear⟩

theorem Makes.file (makes : files.Makes here names outcome)
    (there : files.node? here = some .directory) {content : ByteArray} :
    outcome.2.node? location = some (.file content) ↔
      files.node? location = some (.file content) := by
  by_cases reaches : files.Reaches here names location
  · rw [makes.reached location reaches]
    exact ⟨nofun, fun file => absurd file (reaches.no_file there content)⟩
  · rw [makes.kept location reaches]

theorem Makes.sound (makes : files.Makes here names outcome) (sound : files.Sound)
    (there : files.node? here = some .directory) : outcome.2.Sound := by
  have stays {location : Location} (directory : files.node? location = some .directory) :
      outcome.2.node? location = some .directory := by
    by_cases reaches : files.Reaches here names location
    · exact makes.reached location reaches
    · rw [makes.kept location reaches, directory]
  refine ⟨fun location name inside => ?_, makes.current ▸ stays sound.current⟩
  by_cases before : files.node? (location ++ [name]) = none
  · by_cases reaches : files.Reaches here names (location ++ [name])
    · obtain ⟨front, within, whole, clear⟩ := reaches
      rcases List.eq_nil_or_concat front with rfl | ⟨front, last, rfl⟩
      · rw [whole, List.append_nil, there] at before
        cases before
      · rw [List.concat_eq_append] at within whole clear
        rw [← List.append_assoc] at whole
        obtain ⟨rfl, -⟩ := List.append_inj' whole rfl
        exact makes.reached _ ⟨front, (List.prefix_append ..).trans within, rfl,
          (clear_snoc.mp clear).1⟩
    · exact absurd (makes.kept _ reaches ▸ before) inside
  · exact stays (sound.above location name before)

theorem Makes.trans (first : files.Makes here names (answer, made))
    (there : files.node? here = some .directory)
    (second : made.Makes here (names ++ [name]) outcome) :
    files.Makes here (names ++ [name]) outcome := by
  have clear {names : List String} : made.Clear here names ↔ files.Clear here names :=
    clear_congr fun _ _ _ => first.file there
  have reaches {location : Location} : made.Reaches here (names ++ [name]) location ↔
      files.Reaches here (names ++ [name]) location := by
    simp only [Reaches, clear]
  refine ⟨second.answer.trans clear, fun location reached =>
    second.reached location (reaches.mpr reached), fun location beyond => ?_,
    second.current.trans first.current⟩
  rw [second.kept location (reaches.not.mpr beyond)]
  exact first.kept location fun reached => beyond (reaches_snoc.mpr (.inl reached))

/-- Once the way is not clear nothing more is made. -/
theorem Makes.stopped (makes : files.Makes here names outcome)
    (shut : ¬ files.Clear here names) : files.Makes here (names ++ [name]) outcome := by
  have further : ¬ files.Clear here (names ++ [name]) := fun clear =>
    shut (clear_snoc.mp clear).1
  have reaches {location : Location} : files.Reaches here (names ++ [name]) location ↔
      files.Reaches here names location :=
    reaches_snoc.trans (or_iff_left fun last => further last.2)
  exact ⟨by simpa [further, shut] using makes.answer, fun location reached =>
    makes.reached location (reaches.mp reached), fun location beyond =>
    makes.kept location (reaches.not.mp beyond), makes.current⟩

end

theorem makeUpward_of_found {path : String} {chain : List String} (some : path ≠ "")
    (found : files.makeDirectory path ≠ .error .missing) :
    files.makeUpward (path :: chain) = files.settleDirectory path := by
  rw [makeUpward, if_neg some]
  split
  · rename_i missing
    exact absurd missing found
  · rfl

theorem makeUpward_of_missing {path : String} {chain : List String} (some : path ≠ "")
    (missing : files.makeDirectory path = .error .missing) :
    files.makeUpward (path :: chain) =
      match files.makeUpward chain with
      | (.ok (), made) => made.settleDirectory path
      | failed => failed := by
  rw [makeUpward, if_neg some]
  generalize files.makeDirectory path = answer at missing ⊢
  subst missing
  rfl

section

variable {path name : String} {front : List String} {above : Location}
  (proper : PathText.Proper path) (named : PathText.names path = front ++ [name])
  (other : name ≠ ".") (downward : name ≠ "..")

include proper named other downward

theorem target_of_walk (walked : front.foldlM files.enter (files.start path) = .ok above) :
    files.target path = .ok (.entry (above ++ [name]) (PathText.isOpen path)) := by
  rw [target_of_name files proper named other downward, walked]
  rfl

theorem settleDirectory_of_walk
    (walked : front.foldlM files.enter (files.start path) = .ok above) :
    files.settleDirectory path =
      match files.lookUp (above ++ [name]) with
      | .error reason => (.error reason, files)
      | .ok none => (.ok (), files.put (above ++ [name]) .directory)
      | .ok (some .directory) => (.ok (), files)
      | .ok (some (.file _)) => (.error .occupied, files) := by
  have target := target_of_walk proper named other downward walked
  rw [settleDirectory, makeDirectory, isDirectory, look, target]
  cases looked : files.lookUp (above ++ [name]) with
  | error reason => simp [looked, bind, Except.bind]
  | ok found =>
      rcases found with _ | ⟨content⟩ | _ <;> cases PathText.isOpen path <;>
        simp [looked, bind, Except.bind, pure, Except.pure, throw, throwThe, MonadExceptOf.throw]

theorem settleDirectory_of_error {reason : AccessError}
    (failed : front.foldlM files.enter (files.start path) = .error reason) :
    files.makeDirectory path = .error reason ∧
      files.settleDirectory path = (.error reason, files) := by
  have target : files.target path = .error reason := by
    rw [target_of_name files proper named other downward, failed]
    rfl
  have made : files.makeDirectory path = .error reason := by
    rw [makeDirectory, target]
    rfl
  refine ⟨made, ?_⟩
  rw [settleDirectory, made, isDirectory, look, target]
  rfl

/-- Making the last directory where all above it are there already. -/
theorem Makes.settle (sound : files.Sound) (fits : ∀ name ∈ names, Fits name)
    (there : files.node? (here ++ names) = some .directory)
    (walked : front.foldlM files.enter (files.start path) = .ok (here ++ names)) :
    files.Makes here (names ++ [name]) (files.settleDirectory path) := by
  have clear := clear_of_directory sound fits there
  have upper : ∀ location, files.Reaches here names location →
      files.node? location = some .directory := fun _ reaches => reaches.directory sound there
  have blocked : ¬ files.Clear here (names ++ [name]) → ∀ location,
      files.Reaches here (names ++ [name]) location →
        files.node? location = some .directory := fun blocked location reaches =>
    (reaches_snoc.mp reaches).elim (upper location) fun last => absurd last.2 blocked
  have way : files.Clear here (names ++ [name]) ↔ files.Free (here ++ names) name := by
    rw [clear_snoc, and_iff_right clear]
  have stopped {reason : AccessError} (shut : ¬ files.Clear here (names ++ [name])) :
      files.Makes here (names ++ [name]) (.error reason, files) :=
    .of_same (by simpa [Except.isOk, Except.toBool] using shut) (blocked shut)
  rw [settleDirectory_of_walk proper named other downward walked]
  rcases files.lookUp_snoc (here ++ names) name with ⟨short, looked⟩ | ⟨long, looked⟩ <;>
    rw [looked]
  · rw [Free, and_iff_right short] at way
    rcases found : files.node? (here ++ names ++ [name]) with _ | ⟨content⟩ | _ <;>
      rw [found] at way
    · have clear : files.Clear here (names ++ [name]) := way.mpr nofun
      have put := fun other => node?_put files (here ++ names ++ [name]) other .directory (by simp)
      refine ⟨by simpa [Except.isOk, Except.toBool] using clear, fun location reaches => ?_,
        fun location beyond => ?_, rfl⟩
      · rw [put]
        split
        · rfl
        · rename_i before
          exact upper location ((reaches_snoc.mp reaches).resolve_right fun last => before last.1)
      · rw [put, if_neg fun last => beyond (reaches_snoc.mpr (.inr ⟨last, clear⟩))]
    · exact stopped fun clear => way.mp clear content rfl
    · have clear : files.Clear here (names ++ [name]) := way.mpr nofun
      refine .of_same (by simpa [Except.isOk, Except.toBool] using clear) fun location reaches => ?_
      rcases reaches_snoc.mp reaches with reaches | ⟨rfl, -⟩
      · exact upper location reaches
      · exact found
  · exact stopped fun clear => long (way.mp clear).1

/-- Directories are only missing where some directory above them is. -/
theorem makeDirectory_of_walk (walked : front.foldlM files.enter (files.start path) = .ok above) :
    files.makeDirectory path ≠ .error .missing := by
  rw [makeDirectory, target_of_walk proper named other downward walked]
  rcases files.lookUp_snoc above name with ⟨-, looked⟩ | ⟨-, looked⟩
  · rcases found : files.node? (above ++ [name]) with _ | node <;>
      simp [looked, found, bind, Except.bind, pure, Except.pure, throw, throwThe,
        MonadExceptOf.throw]
  · simp [looked, bind, Except.bind]

/-- One more directory below those that are made only if they are needed. -/
theorem Makes.upward (sound : files.Sound) (within : ".." ∉ front) {chain : List String}
    (upper : files.Makes (files.start path) (front.filter (· ≠ ".")) (files.makeUpward chain)) :
    files.Makes (files.start path) (front.filter (· ≠ ".") ++ [name])
      (files.makeUpward (path :: chain)) := by
  have there := sound.start path
  cases walked : front.foldlM files.enter (files.start path) with
  | ok above =>
      obtain ⟨rfl, fits, inside⟩ := (foldlM_enter_eq_ok sound there within).mp walked
      rw [makeUpward_of_found proper.1 (makeDirectory_of_walk proper named other downward walked)]
      exact .settle proper named other downward sound fits inside walked
  | error reason =>
      obtain ⟨failed, settled⟩ := settleDirectory_of_error proper named other downward walked
      by_cases missing : reason = .missing
      · rw [makeUpward_of_missing proper.1 (missing ▸ failed)]
        generalize files.makeUpward chain = outcome at upper ⊢
        obtain ⟨reason | _, made⟩ := outcome
        · exact upper.stopped fun clear => by
            simpa [Except.isOk, Except.toBool] using upper.answer.mpr clear
        · have clear := upper.answer.mp rfl
          have same : made.start path = files.start path := by
            rw [start, start, upper.current]
          have safe := upper.sound sound there
          have inside := upper.directory clear
          have again := (foldlM_enter_eq_ok safe (same ▸ safe.start path) within).mpr
            ⟨rfl, clear.fits, inside⟩
          exact upper.trans there
            (.settle proper named other downward safe clear.fits inside (same.symm ▸ again))
      · have stopped := stopped_of_foldlM_enter there within walked missing
        have further : ¬ files.Clear (files.start path) (front.filter (· ≠ ".") ++ [name]) :=
          fun clear => stopped.1 (clear_snoc.mp clear).1
        rw [makeUpward_of_found proper.1 (by simpa [failed] using missing), settled]
        exact .of_same (by simpa [Except.isOk, Except.toBool] using further)
          fun location reaches => stopped.2 location <|
            (reaches_snoc.mp reaches).resolve_right fun last => further last.2

end

section

variable {lead name text : String} {remaining above : List String}

theorem start_build (files : FileSystem) (remains : PathText.Remains lead remaining) :
    files.start (PathText.build lead remaining) = if lead = "/" then [] else files.current := by
  simp [start, remains.isAbsolute_build]

theorem build_upper (lead name : String) (above : List String) : ∃ rest,
    PathText.build lead (name :: above) =
      PathText.build lead (above.dropWhile PathText.isIdle) ++ rest := by
  have whole : (name :: above).reverse = (above.dropWhile PathText.isIdle).reverse ++
      ((above.takeWhile PathText.isIdle).reverse ++ [name]) := by
    rw [← List.append_assoc, ← List.reverse_append, List.takeWhile_append_dropWhile,
      List.reverse_cons]
  rw [PathText.build, whole]
  by_cases none : above.dropWhile PathText.isIdle = []
  · exact ⟨"/".intercalate ((above.takeWhile PathText.isIdle).reverse ++ [name]), by
      simp [none, PathText.build]⟩
  · exact ⟨"/" ++ "/".intercalate ((above.takeWhile PathText.isIdle).reverse ++ [name]), by
      rw [String.intercalate_append_of_ne_nil (by simpa using none) (by simp), PathText.build]
      simp only [String.append_assoc]⟩

theorem proper_of_append {text rest : String} (some : text ≠ "")
    (proper : PathText.Proper (text ++ rest)) : PathText.Proper text := by
  obtain ⟨-, clean, short⟩ := proper
  refine ⟨some, fun null => clean (by simp [null]), ?_⟩
  rw [String.utf8ByteSize_append] at short
  omega

/-- What an attempt to make a path text without names a directory comes to. -/
theorem makes_of_no_names (sound : files.Sound) (remains : PathText.Remains lead []) :
    files.Makes (files.start (PathText.build lead [])) (PathText.steps (PathText.build lead []))
      (files.makeUpward (PathText.build lead [] :: PathText.parentsFrom lead [])) := by
  have there := sound.start (PathText.build lead [])
  rw [remains.steps_build]
  have nothing : files.Makes (files.start (PathText.build lead [])) [] (.ok (), files) :=
    .of_same (by simp [Clear, Except.isOk, Except.toBool]) fun location reaches =>
      reaches.directory sound (by simpa using there)
  rcases remains.start_cases with rfl | rfl | rfl
  · exact nothing
  · exact nothing
  · exact nothing

theorem makes_makeUpward (sound : files.Sound) (remains : PathText.Remains lead remaining)
    (downward : ".." ∉ remaining) (trimmed : List String)
    (trims : remaining.dropWhile PathText.isIdle = trimmed)
    (proper : PathText.build lead trimmed ≠ "" → PathText.Proper (PathText.build lead trimmed)) :
    files.Makes (files.start (PathText.build lead trimmed))
      (PathText.steps (PathText.build lead trimmed))
      (files.makeUpward (PathText.build lead trimmed :: PathText.parentsFrom lead trimmed)) := by
  induction remaining generalizing trimmed with
  | nil =>
      subst trims
      exact makes_of_no_names sound remains
  | cons name above ih =>
      have lower : PathText.Remains lead above := remains.of_append [name]
      obtain ⟨up, later⟩ := not_or.mp (List.mem_cons.not.mp downward)
      by_cases idle : PathText.isIdle name = true
      · rw [List.dropWhile_cons_of_pos idle] at trims
        exact ih lower later trimmed trims proper
      · rw [List.dropWhile_cons_of_neg idle] at trims
        subst trims
        obtain ⟨some, other⟩ : name ≠ "" ∧ name ≠ "." := by
          simpa [PathText.isIdle] using idle
        let front := (if lead = "." then ["."] else []) ++ above.reverse.filter (· ≠ "")
        have named : PathText.names (PathText.build lead (name :: above)) = front ++ [name] := by
          rw [remains.names_build]
          simp [front, some]
        have within : ".." ∉ front := by
          simp [front, later]
        have skipped : PathText.steps (PathText.build lead (above.dropWhile PathText.isIdle)) =
            front.filter (· ≠ ".") := by
          rw [lower.dropWhile.steps_build, List.filter_append, PathText.filter_lead,
            List.nil_append, PathText.filter_named, List.filter_reverse, List.filter_reverse,
            PathText.filter_dropWhile_isIdle]
        have nonempty : PathText.build lead (name :: above) ≠ "" := by
          intro empty
          rw [empty] at named
          simp [show PathText.names "" = [] by decide] at named
        obtain ⟨rest, spelled⟩ := build_upper lead name above
        have upper := ih lower later _ rfl fun some =>
          proper_of_append some (spelled ▸ proper nonempty)
        rw [skipped, start_build files lower.dropWhile, ← start_build files remains] at upper
        rw [PathText.steps_of_names named other, PathText.parentsFrom, if_neg idle,
          ← PathText.parentsFrom_dropWhile lead above]
        exact .upward (proper nonempty) named other (Ne.symm up) sound within upper

/-- What an attempt to make a path text a directory comes to, if it is spelled as the parent of some
other path text is. -/
theorem makes_makeDirectories (sound : files.Sound) (remains : PathText.Remains lead remaining)
    (downward : ".." ∉ remaining)
    (spelled : text = PathText.build lead (remaining.dropWhile PathText.isIdle))
    (proper : text ≠ "" → PathText.Proper text) :
    files.Makes (files.start text) (PathText.steps text) (files.makeDirectories text) := by
  subst spelled
  rw [makeDirectories, remains.dropWhile.parents_build]
  exact makes_makeUpward sound remains downward _ rfl proper

/-- A path text that no operation takes is no directory and is not made one. -/
theorem makeDirectories_of_improper (files : FileSystem) (some : text ≠ "")
    (improper : ¬ PathText.Proper text) :
    ∃ reason, files.makeDirectories text = (.error reason, files) := by
  obtain ⟨reason, failed, present⟩ := target_of_improper files improper
  have made : files.makeDirectory text = .error reason := by
    rw [makeDirectory, failed]
    rfl
  refine ⟨reason, ?_⟩
  rw [makeDirectories, makeUpward_of_found some (by simpa [made] using present some),
    settleDirectory, made, isDirectory, look, failed]
  rfl

end

end ToolGrammar.Storage.FileSystem
