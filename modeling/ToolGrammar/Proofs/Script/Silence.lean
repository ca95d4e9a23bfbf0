import ToolGrammar.Proofs.Script.Worlds

namespace ToolGrammar.Script

variable {α β ε : Type} {world : World} {machine after : Machine} {exchanges : List Exchange}

/-- All ends of the script are of this kind, whatever is answered. -/
inductive Ends (kind : α → Prop) : Script α → Prop
  | done {value : α} (known : kind value) : Ends kind (.done value)
  | ask {request : Request} {next : request.Answer → Script α}
      (rest : ∀ answer, Ends kind (next answer)) : Ends kind (.ask request next)

theorem Ends.value {kind : α → Prop} {script : Script α} {value : α} (ends : Ends kind script)
    (runs : Runs world script machine exchanges value after) : kind value := by
  induction ends generalizing machine exchanges with
  | done known =>
      cases runs
      exact known
  | ask _ ih =>
      cases runs with
      | ask _ rest => exact ih _ rest

theorem Ends.bind {known : α → Prop} {kind : β → Prop} {script : Script α} {next : α → Script β}
    (first : Ends known script) (rest : ∀ value, known value → Ends kind (next value)) :
    Ends kind (script >>= next) := by
  induction first with
  | done known => exact rest _ known
  | ask _ ih => exact .ask ih

theorem ends_true (script : Script α) : Ends (fun _ => True) script := by
  induction script with
  | done => exact .done trivial
  | ask _ _ ih => exact .ask ih

/-- Some answers are always given, so no script is without an end. -/
theorem not_ends_false (script : Script α) : ¬ Ends (fun _ => False) script := fun ends =>
  let ⟨_, runs⟩ := exists_runs ⟨⟨[], []⟩, "", []⟩ script
  ends.value runs

/-- Only silent requests until all ends are of this kind. -/
inductive Staged (kind : α → Prop) : Script α → Prop
  | done (value : α) : Staged kind (.done value)
  | ask {request : Request} {next : request.Answer → Script α} (silent : request.IsSilent)
      (rest : ∀ answer, Staged kind (next answer)) : Staged kind (.ask request next)
  | ends {script : Script α} (ends : Ends kind script) : Staged kind script

/-- Only silent requests to the end. -/
abbrev Silent (script : Script α) : Prop :=
  Staged (fun _ => False) script

theorem Silent.bind {kind : β → Prop} {script : Script α} {next : α → Script β}
    (first : Silent script) (rest : ∀ value, Staged kind (next value)) :
    Staged kind (script >>= next) := by
  induction first with
  | done value => exact rest value
  | ask silent _ ih => exact .ask silent ih
  | ends ends => exact absurd ends (not_ends_false _)

theorem Staged.traceless {kind : α → Prop} {script : Script α} {value : α}
    (staged : Staged kind script) (runs : Runs world script machine exchanges value after)
    (other : ¬ kind value) : Traceless machine exchanges after := by
  induction staged generalizing machine exchanges with
  | done =>
      cases runs
      exact .nil _
  | ask silent _ ih =>
      cases runs with
      | ask serves rest => exact (serves.traceless silent).append (ih _ rest)
  | ends ends => exact absurd (ends.value runs) other

theorem Silent.traceless {script : Script α} {value : α} (silent : Silent script)
    (runs : Runs world script machine exchanges value after) :
    Traceless machine exchanges after :=
  Staged.traceless silent runs id

theorem Silent.andThen {kind : Except ε β → Prop} {work : ExceptT ε Script α}
    {next : α → ExceptT ε Script β} (first : Silent work.run)
    (rest : ∀ value, Staged kind (next value).run) : Staged kind (work >>= next).run := by
  rw [ExceptT.run_bind]
  refine first.bind fun outcome => ?_
  cases outcome with
  | error failure => exact .done _
  | ok value => exact rest value

theorem Staged.ite {kind : Except ε α → Prop} {condition : Prop} [Decidable condition]
    {yes no : ExceptT ε Script α} (first : Staged kind yes.run) (second : Staged kind no.run) :
    Staged kind (if condition then yes else no).run := by
  split
  · exact first
  · exact second

theorem Silent.adapt {ε' : Type} {work : ExceptT ε Script α} (silent : Silent work.run)
    (tell : ε → ε') : Silent (ExceptT.adapt tell work).run :=
  silent.bind fun _ => .done _

theorem Silent.mapM {work : α → ExceptT ε Script β} (each : ∀ item, Silent (work item).run)
    (items : List α) : Silent (items.mapM work).run := by
  induction items with
  | nil => exact .done _
  | cons item rest ih =>
      rw [List.mapM_cons]
      exact (each item).andThen fun _ => ih.andThen fun _ => .done _

theorem silent_noteAll (events : List Journal.Event) : Silent (noteAll events) := by
  induction events with
  | nil => exact .done ()
  | cons event rest ih => exact .ask trivial fun _ => ih

/-- If it fails, it fails with a failure of this kind. -/
def FailsAs (kind : ε → Prop) (outcome : Except ε α) : Prop :=
  ∀ failure, outcome = .error failure → kind failure

theorem failsAs_ok {kind : ε → Prop} (value : α) : FailsAs kind (.ok value) :=
  nofun

theorem failsAs_error {kind : ε → Prop} {failure : ε} (known : kind failure) :
    FailsAs kind (.error failure : Except ε α) := by
  intro other same
  cases same
  exact known

theorem failsAs_mapError {ε' : Type} {kind : ε → Prop} {tell : ε' → ε}
    (told : ∀ failure, kind (tell failure)) (outcome : Except ε' α) :
    FailsAs kind (outcome.mapError tell) := by
  cases outcome with
  | error failure => exact failsAs_error (told failure)
  | ok value => exact failsAs_ok value

theorem Ends.andThen {kind : ε → Prop} {work : ExceptT ε Script α}
    {next : α → ExceptT ε Script β} (first : Ends (FailsAs kind) work.run)
    (rest : ∀ value, Ends (FailsAs kind) (next value).run) :
    Ends (FailsAs kind) (work >>= next).run := by
  rw [ExceptT.run_bind]
  refine first.bind fun outcome known => ?_
  cases outcome with
  | error failure => exact .done (failsAs_error (known failure rfl))
  | ok value => exact rest value

theorem Ends.adapt {ε' : Type} {known : ε → Prop} {kind : ε' → Prop} {work : ExceptT ε Script α}
    (ends : Ends (FailsAs known) work.run) (tell : ε → ε')
    (told : ∀ failure, known failure → kind (tell failure)) :
    Ends (FailsAs kind) (ExceptT.adapt tell work).run := by
  refine Ends.bind ends fun outcome expected => .done ?_
  cases outcome with
  | error failure => exact failsAs_error (told failure (expected failure rfl))
  | ok value => exact failsAs_ok value

theorem Ends.ite {kind : Except ε α → Prop} {condition : Prop} [Decidable condition]
    {yes no : ExceptT ε Script α} (first : Ends kind yes.run) (second : Ends kind no.run) :
    Ends kind (if condition then yes else no).run := by
  split
  · exact first
  · exact second

/-- A script that knows of no failure does not fail. -/
theorem ends_lift {kind : ε → Prop} (script : Script α) :
    Ends (FailsAs kind) (liftM script : ExceptT ε Script α).run :=
  (ends_true script).bind fun value _ => .done (failsAs_ok value)

end ToolGrammar.Script
