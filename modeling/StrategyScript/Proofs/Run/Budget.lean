/-
A budget of steps stops every run. Each step that is counted leaves less of the budget, and the step
that exceeds it ends the run. Between two steps tasks get smaller, with one exception: a called function
may have a body of any size. But the statements of the body all begin with a step, so calls and
statements are only stages on the way to the next one. The budget that is left, the stage and the size,
in this order, fall from every task to its parts, whatever functions the session has kept from earlier
runs.
-/
import StrategyScript.Proofs.Run.Onward
import StrategyScript.Proofs.Run.Hygiene

namespace StrategyScript

open Eval

/-- How many kinds of tasks there may be in between before a step is counted. -/
def Task.stage : Task → Nat
  | .evaluate _ | .evaluateAll _ | .loop _ _ _ => 3
  | .call _ _ _ => 2
  | .executeAll _ => 1
  | .execute _ => 0

theorem Task.stage_subtasks (task : Task) : ∀ part ∈ task.subtasks, part.stage ≤ task.stage := by
  have hstage : ∀ part : Task, part.stage ≤ 3 := fun part => by cases part <;> simp [stage]
  cases task with
  | evaluate _ | evaluateAll _ | loop _ _ _ => exact fun part _ => hstage part
  | executeAll stmts => cases stmts <;> simp [subtasks, stage]
  | call f args line | execute stmt => simp [subtasks]

/-- What is left of a budget when a task begins, and what may come before the next step. -/
noncomputable def Task.remaining (limit : Nat) (task : Task) (s : Session) : ℕ ×ₗ ℕ ×ₗ ℕ :=
  toLex (limit - s.steps, toLex (task.stage, task.size))

namespace Task

variable {limit n : Nat} {s t u : Session} {task part : Task}

theorem remaining_of_stage (ht : s.steps ≤ t.steps) (h : part.stage < task.stage) :
    part.remaining limit t < task.remaining limit s :=
  Prod.Lex.toLex_lt_toLex'.2 ⟨Nat.sub_le_sub_left ht limit, fun _ => Prod.Lex.toLex_lt_toLex.2 (.inl h)⟩

theorem remaining_of_size (ht : s.steps ≤ t.steps) (hstage : part.stage ≤ task.stage) (h : part.size < task.size) :
    part.remaining limit t < task.remaining limit s :=
  Prod.Lex.toLex_lt_toLex'.2 ⟨Nat.sub_le_sub_left ht limit, fun _ => Prod.Lex.toLex_lt_toLex'.2 ⟨hstage, fun _ => h⟩⟩

theorem remaining_of_counted (hl : s.limits.maxSteps = some limit) (hu : s.Onward u)
    (hb : u.limits.Affords (u.steps + 1)) (ht : u.counted.Onward t) :
    part.remaining limit t < task.remaining limit s := by
  have hlimit : u.steps + 1 ≤ limit := hb limit (hu.limits ▸ hl)
  have hsteps : u.steps + 1 ≤ t.steps := ht.steps
  have hbefore : s.steps ≤ u.steps := hu.steps
  have hless : limit - t.steps < limit - s.steps := by omega
  exact Prod.Lex.toLex_lt_toLex.2 (.inl hless)

/-- Each part is closer to the end of the budget, or to the next step. -/
theorem remaining_falls (hl : s.limits.maxSteps = some limit) :
    ∀ p ∈ task.parts n s, p.2.limits.maxSteps = some limit ∧ p.1.remaining limit p.2 < task.remaining limit s := by
  intro p hp
  have hlimits : ∀ {t : Session}, s.Onward t → t.limits.maxSteps = some limit := fun ht => ht.limits ▸ hl
  cases task.parts_begin p hp with
  | within ht hpart =>
    exact ⟨hlimits ht, remaining_of_size ht.steps (task.stage_subtasks _ hpart) (task.size_subtasks _ hpart)⟩
  | calls ht => exact ⟨hlimits ht, remaining_of_stage ht.steps (by simp [stage])⟩
  | enters hd => exact ⟨hl, remaining_of_stage le_rfl (by simp [stage])⟩
  | counts hb ht _ => exact ⟨hlimits (s.onward_counted.trans ht), remaining_of_counted hl (.refl s) hb ht⟩
  | repeats hu hb ht =>
    exact ⟨hlimits ((hu.trans (Session.onward_counted _)).trans ht), remaining_of_counted hl hu hb ht⟩

end Task

namespace Session

/-- Whatever a session has kept, a budget of steps ends its next run, in success or with an error. The
counter starts from zero, never falls, and never exceeds the budget by more than the one step that is
refused. -/
theorem budget_ends_run {s : Session} {limit : Nat} (hs : s.Reachable) (hl : s.limits.maxSteps = some limit)
    (p : Program) (market : Market) :
    ∃ e t, s.Ends p market e t ∧ t.steps ≤ limit + 1 ∧ ∀ fuel, s.run fuel p market = (e, t) →
      ((s.start fuel p market).trace.map (·.steps)).head? = some 0 ∧
      ((s.start fuel p market).trace.map (·.steps)).Pairwise (· ≤ ·) ∧
      ∀ n ∈ (s.start fuel p market).trace.map (·.steps), n ≤ t.steps := by
  have hsettles : (Task.executeAll p).Settles (s.prepare market) :=
    Task.settles_of_measure wellFounded_lt (Task.remaining limit) (P := fun _ u => u.limits.maxSteps = some limit)
      (fun hu => Task.remaining_falls hu) hl
  obtain ⟨e, t, hends⟩ := ends_of_settles hsettles
  refine ⟨e, t, hends, ?_, fun fuel hrun => ?_⟩
  · obtain ⟨-, fuel, hrun⟩ := hends
    have hsteady : Steady _ _ (executeProgram fuel p (s.prepare market)) :=
      steady.program fuel p (fun _ _ => trivial) (s.prepare market)
    have hsteps := (conclude_session (executeProgram fuel p (s.prepare market))).2
    rw [← run_eq, hrun] at hsteps
    exact hsteps.trans_le (hsteady.budget limit hl (Nat.zero_le limit)).1
  · have hsound := Discipline.sound_of_reachable Discipline.lax_lasts hs
    have hr := (Discipline.lax_lasts s.limits).start hsound fuel p market
    have hended : (s.start fuel p market).ended? = some t := by
      have hended := Discipline.ended?_of_run hr (by rw [hrun]; exact hends.1)
      rwa [hrun] at hended
    refine ⟨?_, ?_, ?_⟩
    · cases fuel <;> rfl
    · exact List.pairwise_map.2 (hr.ordered.imp (·.steps))
    · simpa using fun u hu => (hr.before hended u hu).steps

/-- A function from an earlier run that calls itself again and again: the budget is enough for the
call and for one round of the loop. -/
theorem run_ends_at_fourth_step :
    let p : Program := [.function "f" [] [.whileLoop (.boolean true ⟨1, 23⟩) (.expr (.call "f" [] ⟨1, 29⟩))]]
    let q : Program := [.expr (.call "f" [] ⟨1, 1⟩)]
    let s := ((new ⟨some 3, 64⟩).run 4 p .empty).2
    s.Reachable ∧ s.limits.maxSteps = some 3 ∧ ∃ e t, s.Ends q .empty e t ∧ t.steps = 4 ∧
      ∀ n ∈ (s.start 8 q .empty).trace.map (·.steps), n ≤ 4 := by
  intro p q s
  have hs : s.Reachable := (History.new.run (by decide +kernel)).reachable
  have hends : s.Ends q .empty (s.run 8 q .empty).1 (s.run 8 q .empty).2 := ⟨by decide +kernel, 8, Prod.mk.eta.symm⟩
  have hsteps : (s.run 8 q .empty).2.steps = 4 := by decide +kernel
  obtain ⟨e, t, hended, -, hcourse⟩ := budget_ends_run hs rfl q .empty
  obtain ⟨he, ht⟩ := hended.unique hends
  rw [he, ht, hsteps] at hcourse
  have hbound := (hcourse 8 Prod.mk.eta.symm).2.2
  exact ⟨hs, rfl, _, _, hends, hsteps, hbound⟩

end Session

end StrategyScript
