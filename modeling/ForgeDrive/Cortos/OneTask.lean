/-
**What the steps of the scheduler do to one task.**

Every function writes one task at most. `Touched` says for a task what a step writes to it, and
which steps do not touch it: `step_touched` is the one case analysis over the steps that the proofs
about a single task need. `step_frame` is the same for the clock and the thread.
-/

import ForgeDrive.Cortos.Notify

namespace ForgeDrive.Cortos

/-- The steps that are taken by the task that runs, and write it. -/
def Step.byTask : Step → Bool
  | .returns _ | .wait _ | .take | .sleep _ | .suspend => true
  | _ => false

/-- **What a step writes to the task `t`.** A step of the task that runs leaves the others. -/
inductive Touched (s : System) (t : Nat) (task : Task) : Step → Task → Prop
  | same {step : Step} (other : step.byTask → ∀ found, s.runs ≠ some (t, found)) :
      Touched s t task step task
  | called {pticks : UInt32} :
      Touched s t task (.scan pticks) { task with execCalls := task.execCalls + 1 }
  | returned {pticks start : UInt32} (was : s.thread = .exec start)
      (runs : s.runs = some (t, task)) :
      Touched s t task (.returns pticks) (task.profile (pticks - start))
  | waits {n : UInt32} (runs : s.runs = some (t, task)) :
      Touched s t task (.wait n) (task.notifyWait s.ticks n)
  | takes (runs : s.runs = some (t, task)) : Touched s t task .take task.notifyTake
  | sleeps {n : UInt32} (runs : s.runs = some (t, task)) :
      Touched s t task (.sleep n) (task.sleep s.ticks n)
  | suspends (runs : s.runs = some (t, task)) : Touched s t task .suspend task.suspend
  | notified {value : UInt32} : Touched s t task (.notify t value) (task.notify value)
  | resumed : Touched s t task (.resume t) task.resume
  | inspected : Touched s t task .ticker (task.inspect s.ticks)

variable {s next : System} {t u : Nat} {task found other : Task} {step : Step}

/-- A step that is not taken by the task that runs leaves what it does not write. -/
theorem Touched.others (byOthers : step.byTask = false) : Touched s t task step task :=
  .same fun byTask => Bool.noConfusion (byOthers.symm.trans byTask)

theorem write_self (is : s.tasks[t]? = some task) (task' : Task) :
    (s.write t task').tasks[t]? = some task' :=
  List.getElem?_set_self (List.getElem?_eq_some_iff.mp is).1

theorem write_other (differ : u ≠ t) (task' : Task) :
    (s.write u task').tasks[t]? = s.tasks[t]? :=
  List.getElem?_set_ne differ

/-- A step that writes one task: this one, or another. -/
theorem touched_set (is : s.tasks[t]? = some task) (there : s.tasks[u]? = some found)
    (tasks : next.tasks = s.tasks.set u other)
    (here : u = t → found = task → Touched s t task step other)
    (elsewhere : u ≠ t → Touched s t task step task) :
    ∃ task', next.tasks[t]? = some task' ∧ Touched s t task step task' := by
  by_cases same : u = t
  · refine ⟨other, ?_, here same ?_⟩
    · rw [tasks, same]
      exact write_self is other
    · rw [same] at there
      exact Option.some.inj (there.symm.trans is)
  · refine ⟨task, ?_, elsewhere same⟩
    rw [tasks]
    exact (write_other same other).trans is

/-- A step of the task that runs: this one, or another. -/
theorem touched_call {body : Nat → Task → System} {write : Task → Task}
    (is : s.tasks[t]? = some task) (called : s.call body = some next)
    (tasks : ∀ u found, (body u found).tasks = s.tasks.set u (write found))
    (here : s.runs = some (t, task) → Touched s t task step (write task)) :
    ∃ task', next.tasks[t]? = some task' ∧ Touched s t task step task' := by
  obtain ⟨u, found, runs, there, rfl⟩ := call_eq called
  refine touched_set is there (tasks u found) ?_ fun differ => .same fun _ other runs' => ?_
  · rintro rfl rfl
    exact here runs
  · exact differ (congrArg Prod.fst (Option.some.inj (runs.symm.trans runs')))

/-- A turn of the loop of the scheduler writes the task that it calls. -/
theorem touched_scanStep (is : s.tasks[t]? = some task) (i : Nat) (pticks : UInt32) :
    ∃ task', (s.scanStep i pticks).tasks[t]? = some task' ∧
      Touched s t task (.scan pticks) task' := by
  unfold System.scanStep
  split
  · exact ⟨task, is, .others rfl⟩
  · next found there =>
    split
    · refine touched_set is there rfl ?_ fun _ => .others rfl
      rintro rfl rfl
      exact .called
    · exact ⟨task, is, .others rfl⟩

/-- A turn of the loop of the interrupt writes the task that it inspects. -/
theorem touched_tickerStep (is : s.tasks[t]? = some task) :
    ∃ task', s.tickerStep.tasks[t]? = some task' ∧ Touched s t task .ticker task' := by
  unfold System.tickerStep
  split
  · exact ⟨task, is, .others rfl⟩
  · split
    · exact ⟨task, is, .others rfl⟩
    · next found there =>
      refine touched_set is there rfl ?_ fun _ => .others rfl
      rintro rfl rfl
      exact .inspected

/-- **What every step does to one task.** -/
theorem step_touched (stepped : s.step step = some next) (is : s.tasks[t]? = some task) :
    ∃ task', next.tasks[t]? = some task' ∧ Touched s t task step task' := by
  have kept (byOthers : step.byTask = false) (tasks : next.tasks = s.tasks) :
      ∃ task', next.tasks[t]? = some task' ∧ Touched s t task step task' :=
    ⟨task, tasks ▸ is, .others byOthers⟩
  cases step with
  | create budget =>
    obtain ⟨-, same⟩ := Option.ite_none_right_eq_some.mp stepped
    obtain rfl := Option.some.inj same
    split
    · refine ⟨task, ?_, .others rfl⟩
      rw [List.getElem?_append_left (List.getElem?_eq_some_iff.mp is).1]
      exact is
    · exact ⟨task, is, .others rfl⟩
  | start pticks =>
    obtain ⟨-, same⟩ := Option.ite_none_right_eq_some.mp stepped
    obtain rfl := Option.some.inj same
    exact kept rfl rfl
  | scan pticks =>
    simp only [System.step] at stepped
    split at stepped
    · obtain rfl := Option.some.inj stepped
      exact touched_scanStep is _ pticks
    · cases stepped
  | returns pticks =>
    simp only [System.step] at stepped
    split at stepped
    · next start was =>
      exact touched_call is stepped (fun _ _ => rfl) (.returned was)
    · cases stepped
  | wait n =>
    simp only [System.step] at stepped
    exact touched_call is stepped (fun _ _ => rfl) .waits
  | take =>
    simp only [System.step] at stepped
    exact touched_call is stepped (fun _ _ => rfl) .takes
  | sleep n =>
    simp only [System.step] at stepped
    exact touched_call is stepped (fun _ _ => rfl) .sleeps
  | suspend =>
    simp only [System.step] at stepped
    exact touched_call is stepped (fun _ _ => rfl) .suspends
  | notify u value =>
    obtain ⟨found, there, rfl⟩ := Option.map_eq_some_iff.mp stepped
    refine touched_set is there rfl ?_ fun _ => .others rfl
    rintro rfl rfl
    exact .notified
  | resume u =>
    obtain ⟨found, there, rfl⟩ := Option.map_eq_some_iff.mp stepped
    refine touched_set is there rfl ?_ fun _ => .others rfl
    rintro rfl rfl
    exact .resumed
  | ticker =>
    simp only [System.step] at stepped
    split at stepped
    · cases stepped
    · obtain rfl := Option.some.inj stepped
      exact touched_tickerStep is

/-- **Only the interrupt moves the clock** once the scheduler has started. -/
theorem step_frame (stepped : s.step step = some next) (started : s.thread ≠ .setup)
    (notTicker : step ≠ .ticker) :
    next.ticks = s.ticks ∧ next.ticker = s.ticker ∧ next.thread ≠ .setup := by
  cases step with
  | create budget =>
    obtain ⟨-, same⟩ := Option.ite_none_right_eq_some.mp stepped
    obtain rfl := Option.some.inj same
    split <;> exact ⟨rfl, rfl, started⟩
  | start pticks => exact absurd (Option.ite_none_right_eq_some.mp stepped).1 started
  | scan pticks =>
    simp only [System.step] at stepped
    split at stepped
    · obtain rfl := Option.some.inj stepped
      unfold System.scanStep
      split
      · exact ⟨rfl, rfl, Thread.noConfusion⟩
      · split <;> exact ⟨rfl, rfl, Thread.noConfusion⟩
    · cases stepped
  | returns pticks =>
    simp only [System.step] at stepped
    split at stepped
    · obtain ⟨u, found, -, -, rfl⟩ := call_eq stepped
      exact ⟨rfl, rfl, Thread.noConfusion⟩
    · cases stepped
  | wait n | take | sleep n | suspend =>
    simp only [System.step] at stepped
    obtain ⟨u, found, -, -, rfl⟩ := call_eq stepped
    exact ⟨rfl, rfl, started⟩
  | notify u value | resume u =>
    obtain ⟨found, -, rfl⟩ := Option.map_eq_some_iff.mp stepped
    exact ⟨rfl, rfl, started⟩
  | ticker => exact absurd rfl notTicker

end ForgeDrive.Cortos
