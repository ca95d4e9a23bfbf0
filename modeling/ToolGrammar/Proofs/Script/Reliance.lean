import ToolGrammar.Proofs.Script.Interleaving

/-!
Scripts that rely on each other. A secured script writes files in its own places only, and ends as
it promises as long as between its steps files are written in the places of others only. Scripts
that are all secured keep their promises in every order of their steps.
-/
namespace ToolGrammar.Script

open Storage Storage.FileSystem

variable {α β : Type} {world : World} {mine others : Location → Prop}
  {promise : List Exchange → α → FileSystem → Prop} {files : FileSystem}

/-- What is promised of the end, after the exchanges up to it, holds then and from then on. -/
inductive Secured (world : World) (mine others : Location → Prop) :
    (List Exchange → α → FileSystem → Prop) → Script α → FileSystem → Prop
  | done {promise : List Exchange → α → FileSystem → Prop} {value : α} {files : FileSystem}
      (kept : ∀ after, Changes others files after → promise [] value after) :
      Secured world mine others promise (.done value) files
  | ask {promise : List Exchange → α → FileSystem → Prop} {request : Request}
      {next : request.Answer → Script α} {files : FileSystem}
      (own : ∀ {machine answer after}, Changes others files machine.files →
        world.Serves machine ⟨request, answer⟩ after → Changes mine machine.files after.files)
      (rest : ∀ {machine answer after}, Changes others files machine.files →
        world.Serves machine ⟨request, answer⟩ after →
          Secured world mine others (fun more => promise (⟨request, answer⟩ :: more))
            (next answer) after.files) :
      Secured world mine others promise (.ask request next) files

theorem Secured.step {request : Request} {next : request.Answer → Script α}
    (step : ∀ {machine answer after}, Changes others files machine.files →
      world.Serves machine ⟨request, answer⟩ after → Changes mine machine.files after.files ∧
        (next answer).Secured world mine others (fun more => promise (⟨request, answer⟩ :: more))
          after.files) :
    (Script.ask request next).Secured world mine others promise files :=
  .ask (fun changes serves => (step changes serves).1) fun changes serves => (step changes serves).2

/-- Nothing is lost while a script waits. -/
theorem Secured.wait {script : Script α} (secured : script.Secured world mine others promise files)
    {after : FileSystem} (changes : Changes others files after) :
    script.Secured world mine others promise after := by
  cases secured with
  | done kept => exact .done fun last more => kept last (changes.trans more)
  | ask own rest =>
      exact .ask (fun more => own (changes.trans more)) fun more => rest (changes.trans more)

theorem Secured.bind {known : List Exchange → α → FileSystem → Prop}
    {promise : List Exchange → β → FileSystem → Prop} {script : Script α} {next : α → Script β}
    (first : script.Secured world mine others known files)
    (later : ∀ exchanges value after, known exchanges value after →
      (next value).Secured world mine others (fun more => promise (exchanges ++ more)) after) :
    (script >>= next).Secured world mine others promise files := by
  induction first generalizing promise with
  | @done known value files kept => exact later [] value files (kept files (.refl others files))
  | ask own _ ih =>
      exact .ask own fun changes serves => ih changes serves fun exchanges => later (_ :: exchanges)

theorem Secured.note {event : Journal.Event} {next : Unit → Script α}
    (rest : (next ()).Secured world mine others (fun more => promise (⟨.note event, ()⟩ :: more))
      files) :
    (Script.ask (.note event) next).Secured world mine others promise files := by
  refine .step fun changes serves => ?_
  rw [(world.silent serves trivial).1]
  exact ⟨.refl _ _, rest.wait changes⟩

theorem Secured.noteAll {events : List Journal.Event} {next : Unit → Script α}
    (rest : ∀ noted : List Exchange, (∀ exchange ∈ noted, exchange.request.IsSilent) →
      (next ()).Secured world mine others (fun more => promise (noted ++ more)) files) :
    (Script.noteAll events >>= next).Secured world mine others promise files := by
  induction events generalizing promise with
  | nil => exact rest [] nofun
  | cons event events ih =>
      exact .note (ih fun noted silent =>
        rest (⟨.note event, ()⟩ :: noted) (List.forall_mem_cons.mpr ⟨trivial, silent⟩))

section

variable {ι : Type} [DecidableEq ι] {mine others : ι → Location → Prop}
  {promise : ι → List Exchange → α → FileSystem → Prop} {machine final : Machine}
  {scripts left : ι → Script α} {trace : List (ι × Exchange)}

/-- A step of one script is a wait of all others. -/
theorem Interleaved.secured (steps : Interleaved world machine scripts trace final left)
    (secured : ∀ i, (scripts i).Secured world (mine i) (others i) (promise i) machine.files)
    (apart : ∀ i j location, i ≠ j → mine i location → others j location) (i : ι) :
    (left i).Secured world (mine i) (others i) (fun more => promise i (exchangesOf trace i ++ more))
      final.files := by
  induction steps generalizing promise with
  | refl => exact secured i
  | @step machine between _ scripts _ _ j request next answer asks serves _ ih =>
      have first := secured j
      rw [asks] at first
      cases first with
      | ask own rest =>
          have still : Changes (others j) machine.files machine.files := .refl _ _
          have goesOn (k : ι) : (Function.update scripts j (next answer) k).Secured world (mine k)
              (others k) (Function.update promise j (fun more =>
                promise j (⟨request, answer⟩ :: more)) k) between.files := by
            by_cases same : k = j
            · subst same
              simpa only [Function.update_self] using rest still serves
            · simp only [Function.update_of_ne same]
              exact (secured k).wait ((own still serves).mono fun location =>
                apart j k location (Ne.symm same))
          have later := ih goesOn
          by_cases same : i = j
          · subst same
            simpa only [Function.update_self, exchangesOf_cons_self, List.cons_append] using later
          · simpa only [Function.update_of_ne same, exchangesOf_cons_of_ne (Ne.symm same)]
              using later

theorem Interleaved.kept {values : ι → α}
    (steps : Interleaved world machine scripts trace final fun i => .done (values i))
    (secured : ∀ i, (scripts i).Secured world (mine i) (others i) (promise i) machine.files)
    (apart : ∀ i j location, i ≠ j → mine i location → others j location) (i : ι) :
    promise i (exchangesOf trace i) (values i) final.files := by
  cases steps.secured secured apart i with
  | done kept => simpa only [List.append_nil] using kept final.files (.refl _ _)

end

end ToolGrammar.Script
