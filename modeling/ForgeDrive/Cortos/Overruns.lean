/-
**Overruns: which executions are counted** (`cortos.h`, `cortos.c`).

A task is created with a budget in profiling ticks, and `scheduler_execute` counts the executions
that take more. `xMS_TO_PROFTICK` is to convert milliseconds; but it multiplies by 1000 and divides
by the rate, which is the inverse: a rate of `R` has `ms * R / 1000` ticks in `ms` milliseconds.

* `step_overruns` — a step changes the counter of a task only by an execution of it that ends, which
  is compared with the budget of its creation;
* `counted_iff` — so which measured ticks are counted as they should be;
* `overruns_iff` — the counter is right throughout exactly the runs without an execution between the
  two budgets, and without an overrun when the counter is full.
-/

import ForgeDrive.Cortos.OneTask
import ForgeDrive.Cortos.Profiler

namespace ForgeDrive.Cortos

open LabelledSystem (exec Meets Throughout)

/-! ### Budgets and executions -/

/-- `xMS_TO_PROFTICK`, where the profiling ticks have a rate of `rateHz`. -/
def xMsToProftick (rateHz ms : UInt32) : UInt32 := ms * 1000 / rateHz

/-- The profiling ticks in `ms` milliseconds. -/
def askedPticks (rateHz ms : UInt32) : Nat := ms.toNat * rateHz.toNat / 1000

/-- What is measured of an execution of the task `t`, if the event ends one. -/
def Timed.executed (s : Timed) (t : Nat) : Event → Option UInt32
  | .scheduler (.returns pticks) =>
    match s.sys.thread, s.sys.runs with
    | .exec start, some (u, _) => if u = t ∧ pticks = s.pticks then some (pticks - start) else none
    | _, _ => none
  | _ => none

/-- The scheduler, with what was measured of the executions of a task. -/
structure Logged where
  timed : Timed
  executions : List UInt32
  deriving DecidableEq, Repr

def Logged.step (rateHz : UInt32) (t : Nat) (l : Logged) (event : Event) : Option Logged :=
  (l.timed.step rateHz event).map fun next =>
    ⟨next, l.executions ++ (l.timed.executed t event).toList⟩

/-- **The overruns of the task are the executions that took more than was asked for.** -/
def Logged.Counts (t asked : Nat) (l : Logged) : Prop :=
  ∃ task, l.timed.sys.tasks[t]? = some task ∧
    task.execOverruns.toNat = l.executions.countP fun elapsed => asked < elapsed.toNat

/-- A measured execution of the task **is not between the two budgets**: what the macro computes and
what was asked for. If it takes more than that, the counter is not full. -/
def ApartFrom (rateHz ms : UInt32) (t : Nat) (l : Logged) (elapsed : UInt32) : Prop :=
  (elapsed.toNat ≤ ms.toNat * 1000 / rateHz.toNat ∨ askedPticks rateHz ms < elapsed.toNat) ∧
    (askedPticks rateHz ms < elapsed.toNat →
      ∀ task ∈ l.timed.sys.tasks[t]?, task.execOverruns ≠ 0xFFFFFFFF)

/-- The execution that the event ends, if any, is apart from the budgets. -/
def Apart (rateHz ms : UInt32) (t : Nat) (l : Logged) (event : Event) : Prop :=
  ∀ elapsed ∈ l.timed.executed t event, ApartFrom rateHz ms t l elapsed

instance (rateHz ms : UInt32) (t : Nat) (l : Logged) (elapsed : UInt32) :
    Decidable (ApartFrom rateHz ms t l elapsed) := inferInstanceAs (Decidable (_ ∧ _))

instance (rateHz ms : UInt32) (t : Nat) (l : Logged) (event : Event) :
    Decidable (Apart rateHz ms t l event) := Option.decidableForallMem _

/-! ### The counter in one step -/

section Step

variable {rateHz ms : UInt32} {s next : Timed} {t : Nat} {task : Task} {event : Event}

/-- **When an execution of the task ends.** -/
theorem executed_iff {elapsed : UInt32} :
    s.executed t event = some elapsed ↔
      ∃ start task, event = .scheduler (.returns s.pticks) ∧ s.sys.thread = .exec start ∧
        s.sys.runs = some (t, task) ∧ elapsed = s.pticks - start := by
  constructor
  · intro executed
    unfold Timed.executed at executed
    split at executed
    · split at executed
      · next start u task thread runs =>
        obtain ⟨⟨rfl, rfl⟩, same⟩ := Option.ite_none_right_eq_some.mp executed
        exact ⟨start, task, rfl, thread, runs, (Option.some.inj same).symm⟩
      · cases executed
    · cases executed
  · rintro ⟨start, task, rfl, thread, runs, rfl⟩
    simp only [Timed.executed, thread, runs, and_self, if_true]

/-- Such an event can happen. -/
theorem enabled_of_executed (rateHz : UInt32) {elapsed : UInt32}
    (executed : s.executed t event = some elapsed) : ∃ next, s.step rateHz event = some next := by
  obtain ⟨start, task, rfl, thread, runs, -⟩ := executed_iff.mp executed
  have reads : (Step.returns s.pticks).reads s.pticks := beq_self_eq_true _
  simp only [Timed.step, reads, if_true, System.step, thread, System.call, runs, Option.map_some]
  exact ⟨_, rfl⟩

/-- The scheduler's state after an observed step is the step's. -/
@[simp] theorem observe_sys (s : Timed) (next : System) : (s.observe next).sys = next := by
  unfold Timed.observe
  split <;> rfl

/-- **What an event leaves of the budget and the counter of a task.** -/
theorem step_overruns (stepped : s.step rateHz event = some next)
    (is : s.sys.tasks[t]? = some task) :
    ∃ task', next.sys.tasks[t]? = some task' ∧ task'.execPtickBudget = task.execPtickBudget ∧
      task'.execOverruns = (s.executed t event).elim task.execOverruns fun elapsed =>
        if elapsed > task.execPtickBudget then task.execOverruns + 1 else task.execOverruns := by
  cases event with
  | elapse pticks =>
    obtain rfl := Option.some.inj stepped
    exact ⟨task, is, rfl, rfl⟩
  | isrEnter isr | isrExit isr =>
    obtain ⟨profile, -, rfl⟩ := Option.map_eq_some_iff.mp stepped
    exact ⟨task, is, rfl, rfl⟩
  | profiler =>
    obtain ⟨current, -, rfl⟩ := Option.map_eq_some_iff.mp stepped
    simp only [Timed.taskProfiler]
    split
    · exact ⟨task, is, rfl, rfl⟩
    · refine ⟨task.restart, ?_, rfl, rfl⟩
      rw [List.getElem?_map, is]
      rfl
  | scheduler step =>
    obtain ⟨reads, observed⟩ := Option.ite_none_right_eq_some.mp stepped
    obtain ⟨sys, taken, rfl⟩ := Option.map_eq_some_iff.mp observed
    obtain ⟨task', is', touched⟩ := step_touched taken is
    rw [observe_sys]
    refine ⟨task', is', ?_⟩
    cases touched with
    | called | waits | takes | sleeps | suspends | notified | resumed => exact ⟨rfl, rfl⟩
    | inspected =>
      unfold Task.inspect
      split_ifs <;> exact ⟨rfl, rfl⟩
    | returned was runs =>
      next pticks start =>
      obtain rfl : pticks = s.pticks := eq_of_beq reads
      have executed : s.executed t (.scheduler (.returns s.pticks)) = some (s.pticks - start) :=
        executed_iff.mpr ⟨start, task, rfl, was, runs, rfl⟩
      rw [executed]
      exact ⟨rfl, rfl⟩
    | same other =>
      have executed : s.executed t (.scheduler step) = none := by
        refine Option.eq_none_iff_forall_ne_some.mpr fun elapsed executed => ?_
        obtain ⟨start, found, same, -, runs, -⟩ := executed_iff.mp executed
        obtain rfl := Event.scheduler.inj same
        exact other rfl found runs
      rw [executed]
      exact ⟨rfl, rfl⟩

/-! ### The two budgets -/

/-- **Which measured ticks are counted as they should be.** -/
theorem counted_iff {budget : UInt32} {asked : Nat} (le : budget.toNat ≤ asked)
    (overruns elapsed : UInt32) :
    (if elapsed > budget then overruns + 1 else overruns).toNat =
        overruns.toNat + (if asked < elapsed.toNat then 1 else 0) ↔
      (elapsed.toNat ≤ budget.toNat ∨ asked < elapsed.toNat) ∧
        (asked < elapsed.toNat → overruns ≠ 0xFFFFFFFF) := by
  have greater : elapsed > budget ↔ budget.toNat < elapsed.toNat := UInt32.lt_iff_toNat_lt
  have full : overruns = 0xFFFFFFFF ↔ overruns.toNat = 2 ^ 32 - 1 := UInt32.toNat_inj.symm
  have bound := overruns.toNat_lt
  have next : (overruns + 1).toNat = (overruns.toNat + 1) % 2 ^ 32 := UInt32.toNat_add _ _
  by_cases inside : elapsed.toNat ≤ budget.toNat
  · have within : ¬ asked < elapsed.toNat := Nat.not_lt_of_le (inside.trans le)
    rw [if_neg (fun above => Nat.not_lt_of_le inside (greater.mp above)), if_neg within]
    exact iff_of_true rfl ⟨Or.inl inside, fun beyond => absurd beyond within⟩
  · rw [if_pos (greater.mpr (Nat.lt_of_not_le inside)), next, Ne, full]
    by_cases beyond : asked < elapsed.toNat
    · simp only [beyond, if_true, inside, false_or, true_and, forall_const]
      omega
    · simp only [beyond, if_false, inside, false_or, false_and, iff_false]
      omega

/-- What the macro computes, where it does not wrap. -/
theorem xMsToProftick_toNat (rate : 1000 ≤ rateHz.toNat) (fits : ms.toNat * rateHz.toNat < 2 ^ 32) :
    (xMsToProftick rateHz ms).toNat = ms.toNat * 1000 / rateHz.toNat := by
  have product : ms.toNat * 1000 < 2 ^ 32 := (Nat.mul_le_mul_left _ rate).trans_lt fits
  rw [xMsToProftick, UInt32.toNat_div, UInt32.toNat_mul]
  exact congrArg (· / rateHz.toNat) (Nat.mod_eq_of_lt product)

/-- **It is at most what was asked for**, from a rate of one tick a millisecond on. -/
theorem macro_le_asked (rate : 1000 ≤ rateHz.toNat) :
    ms.toNat * 1000 / rateHz.toNat ≤ askedPticks rateHz ms :=
  calc ms.toNat * 1000 / rateHz.toNat ≤ ms.toNat * 1000 / 1000 := Nat.div_le_div_left rate (by decide)
    _ ≤ ms.toNat * rateHz.toNat / 1000 := Nat.div_le_div_right (Nat.mul_le_mul_left _ rate)

end Step

/-! ### Runs -/

section Runs

variable {rateHz ms : UInt32} {s : Timed} {t : Nat} {l next : Logged} {event : Event}

/-- The task has the budget of its creation. -/
def Logged.Budgeted (t : Nat) (budget : UInt32) (l : Logged) : Prop :=
  ∃ task, l.timed.sys.tasks[t]? = some task ∧ task.execPtickBudget = budget

theorem Logged.Budgeted.step {budget : UInt32} (budgeted : l.Budgeted t budget)
    (stepped : l.step rateHz t event = some next) : next.Budgeted t budget := by
  obtain ⟨task, is, same⟩ := budgeted
  obtain ⟨timed, taken, rfl⟩ := Option.map_eq_some_iff.mp stepped
  obtain ⟨task', is', budget', -⟩ := step_overruns taken is
  exact ⟨task', is', budget'.trans same⟩

/-- **One event**: the counter stays right exactly where the execution it ends, if any, is apart from
both budgets. -/
theorem apart_iff (rate : 1000 ≤ rateHz.toNat) (fits : ms.toNat * rateHz.toNat < 2 ^ 32)
    (budgeted : l.Budgeted t (xMsToProftick rateHz ms))
    (counts : l.Counts t (askedPticks rateHz ms)) :
    Apart rateHz ms t l event ↔
      ∀ next, l.step rateHz t event = some next → next.Counts t (askedPticks rateHz ms) := by
  obtain ⟨task, is, budget⟩ := budgeted
  obtain ⟨found, there, counted⟩ := counts
  obtain rfl := Option.some.inj (there.symm.trans is)
  have exact_ := counted_iff ((xMsToProftick_toNat rate fits).trans_le (macro_le_asked rate))
    found.execOverruns
  simp only [xMsToProftick_toNat rate fits] at exact_
  constructor
  · intro apart next stepped
    obtain ⟨timed, taken, rfl⟩ := Option.map_eq_some_iff.mp stepped
    obtain ⟨task', is', -, overruns⟩ := step_overruns taken is
    refine ⟨task', is', ?_⟩
    rw [overruns, List.countP_append, ← counted, budget]
    cases executed : l.timed.executed t event with
    | none => rfl
    | some elapsed =>
      obtain ⟨outside, room⟩ := apart elapsed executed
      refine ((exact_ elapsed).mpr ⟨outside, fun beyond => room beyond found is⟩).trans ?_
      simp only [Option.toList_some, List.countP_singleton, decide_eq_true_eq]
  · intro keeps elapsed executed
    obtain ⟨timed, taken⟩ := enabled_of_executed rateHz executed
    obtain ⟨task', is', -, overruns⟩ := step_overruns taken is
    obtain ⟨after, there', counted'⟩ := keeps _ (congrArg (Option.map _) taken)
    obtain rfl := Option.some.inj (there'.symm.trans is')
    rw [overruns, executed, List.countP_append, ← counted, budget] at counted'
    simp only [Option.elim_some, Option.toList_some, List.countP_singleton, decide_eq_true_eq]
      at counted'
    obtain ⟨outside, room⟩ := (exact_ elapsed).mp counted'
    refine ⟨outside, fun beyond task same => ?_⟩
    obtain rfl := Option.some.inj (is.symm.trans same)
    exact room beyond

/-- A task that is created has its budget, and no overruns. -/
theorem created_task {budget : UInt32} {after : Timed} (room : s.sys.tasks.length < maxTasks)
    (created : s.step rateHz (.scheduler (.create budget)) = some after) :
    after.sys.tasks[s.sys.tasks.length]? = some (.create budget) := by
  have observed : (s.sys.step (.create budget)).map s.observe = some after := created
  obtain ⟨sys, taken, rfl⟩ := Option.map_eq_some_iff.mp observed
  obtain ⟨-, same⟩ := Option.ite_none_right_eq_some.mp taken
  obtain rfl := Option.some.inj same
  rw [observe_sys, if_pos room]
  exact List.getElem?_concat_length

/-- **The overruns are counted against the budget that was asked for** in exactly the runs whose
executions are apart from it and from what the macro computes. -/
theorem overruns_iff {after : Timed} (rate : 1000 ≤ rateHz.toNat)
    (fits : ms.toNat * rateHz.toNat < 2 ^ 32) (room : s.sys.tasks.length < maxTasks)
    (created : s.step rateHz (.scheduler (.create (xMsToProftick rateHz ms))) = some after)
    (events : List Event) :
    Throughout (Logged.step rateHz s.sys.tasks.length)
        (Logged.Counts s.sys.tasks.length (askedPticks rateHz ms)) ⟨after, []⟩ events ↔
      Meets (Logged.step rateHz s.sys.tasks.length) (Apart rateHz ms s.sys.tasks.length)
        ⟨after, []⟩ events := by
  have is := created_task room created
  exact LabelledSystem.throughout_iff_meets
    (Logged.Budgeted s.sys.tasks.length (xMsToProftick rateHz ms))
    (fun _ _ _ budgeted stepped => budgeted.step stepped)
    (fun _ _ budgeted counts => apart_iff rate fits budgeted counts) ⟨_, is, rfl⟩ ⟨_, is, rfl⟩ events

end Runs

/-! ### A budget of 50 ms at 84 MHz -/

/-- The task is created with a budget of no ticks. -/
def fiftyMs : Timed :=
  { Timed.init 0 0 0 with
    sys := { System.init 0 0 with tasks := [.create (xMsToProftick 84000000 50)] } }

/-- It runs once. -/
def onceRun (pticks : Nat) : List Event :=
  [.scheduler (.start 0), .scheduler (.scan 0), .elapse pticks,
    .scheduler (.returns (UInt32.ofNat pticks))]

/-- **An execution of 100 ticks**, about a microsecond, **is counted as an overrun of 50 ms.** -/
theorem not_overruns : ¬ ∀ (rateHz ms : UInt32) (s after : Timed), 1000 ≤ rateHz.toNat →
    ms.toNat * rateHz.toNat < 2 ^ 32 → s.sys.tasks.length < maxTasks →
    s.step rateHz (.scheduler (.create (xMsToProftick rateHz ms))) = some after →
    ∀ events, Throughout (Logged.step rateHz s.sys.tasks.length)
      (Logged.Counts s.sys.tasks.length (askedPticks rateHz ms)) ⟨after, []⟩ events := by
  intro always
  have counts := always 84000000 50 (Timed.init 0 0 0) fiftyMs (by decide) (by decide) (by decide)
    rfl (onceRun 100) (onceRun 100) [] (List.append_nil _).symm
  have final : (exec (Logged.step 84000000 0) ⟨fiftyMs, []⟩ (onceRun 100)).map
      (fun l => (l.timed.sys.tasks.map Task.execOverruns, l.executions)) = some ([1], [100]) := by
    decide
  obtain ⟨reached, run, same⟩ := Option.map_eq_some_iff.mp final
  obtain ⟨overruns, executions⟩ := Prod.mk.inj same
  obtain ⟨task, is, counted⟩ := counts reached run
  have one : task.execOverruns = 1 := by
    have mapped := congrArg (Option.map Task.execOverruns) is
    rw [← List.getElem?_map, overruns] at mapped
    exact (Option.some.inj mapped).symm
  rw [one, executions] at counted
  exact absurd counted (by decide)

/-- An execution of 60 ms is counted. -/
theorem overruns_sixtyMs :
    Throughout (Logged.step 84000000 0) (Logged.Counts 0 4200000) ⟨fiftyMs, []⟩ (onceRun 5040000) ∧
      (exec (Logged.step 84000000 0) ⟨fiftyMs, []⟩ (onceRun 5040000)).map Logged.executions =
        some [5040000] := by
  have created : (Timed.init 0 0 0).step 84000000
      (.scheduler (.create (xMsToProftick 84000000 50))) = some fiftyMs := rfl
  refine ⟨?_, by decide⟩
  exact (overruns_iff (by decide) (by decide) (by decide) created (onceRun 5040000)).mpr (by decide)

end ForgeDrive.Cortos
