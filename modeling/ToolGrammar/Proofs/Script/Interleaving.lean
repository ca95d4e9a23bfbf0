import Mathlib.Data.List.FinRange
import Mathlib.Logic.Function.Basic
import Mathlib.Tactic.Choose
import ToolGrammar.Proofs.Script.Worlds

/-!
Scripts that are run in one world at the same time. Each step serves one request of one of them,
which one is free; the trace tells whose requests were served, in their order, and what was
answered. Scripts that are run one after another take their steps in one of these orders.
-/
namespace ToolGrammar.Script

variable {ι α : Type} [DecidableEq ι] {world : World}

/-- Steps of several scripts, from a machine to another one and to what is left of the scripts. -/
inductive Interleaved (world : World) : Machine → (ι → Script α) → List (ι × Exchange) → Machine →
    (ι → Script α) → Prop
  | refl (machine : Machine) (scripts : ι → Script α) :
      Interleaved world machine scripts [] machine scripts
  | step {machine between final : Machine} {scripts left : ι → Script α}
      {trace : List (ι × Exchange)} {i : ι} {request : Request}
      {next : request.Answer → Script α} {answer : request.Answer}
      (asks : scripts i = .ask request next)
      (serves : world.Serves machine ⟨request, answer⟩ between)
      (rest : Interleaved world between (Function.update scripts i (next answer)) trace final
        left) :
      Interleaved world machine scripts ((i, ⟨request, answer⟩) :: trace) final left

/-- The exchanges of one script, in their order. -/
def exchangesOf (trace : List (ι × Exchange)) (i : ι) : List Exchange :=
  (trace.filter (·.1 = i)).map (·.2)

theorem exchangesOf_cons_self (i : ι) (exchange : Exchange) (trace : List (ι × Exchange)) :
    exchangesOf ((i, exchange) :: trace) i = exchange :: exchangesOf trace i := by
  simp [exchangesOf]

theorem exchangesOf_cons_of_ne {i j : ι} (other : j ≠ i) (exchange : Exchange)
    (trace : List (ι × Exchange)) :
    exchangesOf ((j, exchange) :: trace) i = exchangesOf trace i := by
  simp [exchangesOf, other]

variable {machine between final : Machine} {scripts middle left : ι → Script α}
  {exchanges : List Exchange}

theorem Interleaved.trans {trace later : List (ι × Exchange)}
    (first : Interleaved world machine scripts trace between middle)
    (second : Interleaved world between middle later final left) :
    Interleaved world machine scripts (trace ++ later) final left := by
  induction first with
  | refl => exact second
  | step asks serves _ ih => exact .step asks serves (ih second)

/-- One of the scripts runs to its end while the others wait. -/
theorem Interleaved.of_runs {script : Script α} {value : α} {i : ι} (begins : scripts i = script)
    (runs : Runs world script machine exchanges value final) :
    Interleaved world machine scripts (exchanges.map (i, ·)) final
      (Function.update scripts i (.done value)) := by
  induction runs generalizing scripts with
  | done value machine =>
      have same : Function.update scripts i (.done value) = scripts :=
        begins ▸ Function.update_eq_self i scripts
      exact same.symm ▸ .refl machine scripts
  | ask serves _ ih =>
      refine .step begins serves ?_
      simpa only [Function.update_idem] using ih (Function.update_self i _ scripts)

/-- Scripts that are run one after another. -/
theorem Interleaved.of_runs_mapM {given : ι → Script α} {order : List ι} {values : List α}
    (nodup : order.Nodup) (agree : ∀ i ∈ order, scripts i = given i)
    (runs : Runs world (order.mapM given) machine exchanges values final) :
    ∃ trace left, Interleaved world machine scripts trace final left ∧
      trace.map (·.2) = exchanges ∧ order.map left = values.map .done ∧
      ∀ i, i ∉ order → left i = scripts i := by
  induction order generalizing machine scripts exchanges values with
  | nil =>
      cases runs
      exact ⟨[], scripts, .refl _ scripts, rfl, rfl, fun _ _ => rfl⟩
  | cons i rest ih =>
      obtain ⟨fresh, later⟩ := List.nodup_cons.mp nodup
      obtain ⟨mine, others⟩ := List.forall_mem_cons.mp agree
      rw [List.mapM_cons] at runs
      obtain ⟨own, value, between, _, rfl, first, runs⟩ := runs.split
      obtain ⟨more, values, after, _, rfl, second, runs⟩ := runs.split
      cases runs
      have still (j : ι) (member : j ∈ rest) :
          Function.update scripts i (.done value) j = given j := by
        rw [Function.update_of_ne (ne_of_mem_of_not_mem member fresh), others j member]
      obtain ⟨trace, left, steps, whole, ends, untouched⟩ := ih later still second
      refine ⟨_, left, (Interleaved.of_runs mine first).trans steps, ?_, ?_, fun j absent => ?_⟩
      · simp [whole, Function.comp_def]
      · rw [List.map_cons, untouched i fresh, Function.update_self, ends, List.map_cons]
      · obtain ⟨other, absent⟩ := not_or.mp (List.mem_cons.not.mp absent)
        rw [untouched j absent, Function.update_of_ne other]

/-- Scripts can be run one after another in every order. -/
theorem Interleaved.exists_of_order (machine : Machine) (scripts : ι → Script α) {order : List ι}
    (nodup : order.Nodup) (all : ∀ i, i ∈ order) : ∃ trace final, ∃ values : ι → α,
      Interleaved .faithful machine scripts trace final fun i => .done (values i) := by
  obtain ⟨_, runs⟩ := exists_runs machine (order.mapM scripts)
  obtain ⟨trace, left, steps, -, ends, -⟩ := Interleaved.of_runs_mapM nodup (fun _ _ => rfl) runs
  have ended (i : ι) : ∃ value, left i = .done value := by
    have member : left i ∈ order.map left := List.mem_map_of_mem (all i)
    rw [ends] at member
    obtain ⟨value, -, same⟩ := List.mem_map.mp member
    exact ⟨value, same.symm⟩
  choose values finished using ended
  obtain rfl : left = fun i => .done (values i) := funext finished
  exact ⟨trace, _, values, steps⟩

/-- Running scripts one after another takes the steps of all of them in one order. -/
theorem Interleaved.inTurn {β : Type} {script : β → Script α} {items : List β} {values : List α}
    (runs : Runs world (items.mapM script) machine exchanges values final) :
    ∃ trace, ∃ outcomes : Fin items.length → α,
      Interleaved world machine (fun i => script (items.get i)) trace final
        (fun i => .done (outcomes i)) ∧
      trace.map (·.2) = exchanges ∧ values = List.ofFn outcomes := by
  have whole : ((List.finRange items.length).mapM fun i => script (items.get i)) =
      items.mapM script := by
    conv => rhs; rw [← List.map_getElem_finRange items, List.mapM_map]
    rfl
  rw [← whole] at runs
  obtain ⟨trace, left, steps, told, ends, -⟩ :=
    Interleaved.of_runs_mapM (List.nodup_finRange _) (fun _ _ => rfl) runs
  have same : values.length = items.length := by
    simpa using (congrArg List.length ends).symm
  refine ⟨trace, fun i => values.get (i.cast same.symm), ?_, told, ?_⟩
  · have finished : left = fun i => .done (values.get (i.cast same.symm)) := by
      funext i
      have within : i.val < values.length := same.symm ▸ i.isLt
      have mine := congrArg (fun scripts => scripts[i.val]?) ends
      simpa [List.getElem?_eq_getElem within] using mine
    exact finished ▸ steps
  · exact List.ext_get (by simp [same]) fun _ _ _ => by simp

/-- Each of the scripts that are run one after another runs on the machine that those before it
leave. -/
theorem run_mapM {β : Type} (machine : Machine) (script : β → Script α) (items : List β) :
    ((items.mapM script).run machine).1 = List.ofFn fun i : Fin items.length =>
      ((script (items.get i)).run (((items.take i).mapM script).run machine).2).1 := by
  induction items generalizing machine with
  | nil => rfl
  | cons item rest ih =>
      rw [List.mapM_cons, run_bind, run_bind, List.ofFn_succ]
      refine congrArg (_ :: ·) ((ih _).trans (congrArg List.ofFn (funext fun i => ?_)))
      show _ = ((script (rest.get i)).run
        (((item :: rest.take i).mapM script).run machine).2).1
      rw [List.mapM_cons, run_bind, run_bind]
      rfl

end ToolGrammar.Script
