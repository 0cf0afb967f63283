/-
**Timed waits: which of them end on time.**

`xTaskSleep` and `xTaskNotifyWait` write the tick at which the task is to be woken, and `Ticker_IRQ`
wakes it when the signed difference to that tick is not negative. So a tick is in the future if it is
at most `2 ^ 31` ahead; and the first interrupt comes when it is one less than the delay ahead.

* `Waits.step` — what the call, the interrupts and the other tasks leave of a wait of at most
  `2 ^ 31 + 1` ticks;
* `early` — a longer one is over at the first interrupt;
* `wakesOnTime_iff` — so which delays are kept, in every run and from every tick; a wait of
  `CORTOS_MAX_DELAY` is never ended by the interrupt.
-/

import Mathlib.Algebra.Order.Ring.Nat
import ForgeDrive.Cortos.OneTask

namespace ForgeDrive.Cortos

open LabelledSystem (exec Meets Throughout)

/-! ### A wait and its end -/

/-- The two calls with a timeout. -/
inductive Blocking
  | sleep
  | notifyWait
  deriving DecidableEq, Repr

def Blocking.step : Blocking → UInt32 → Step
  | .sleep, ticks => .sleep ticks
  | .notifyWait, ticks => .wait ticks

/-- The state of a task that waits. -/
def Blocking.state : Blocking → TaskState
  | .sleep => .sleeping
  | .notifyWait => .waitingEvent

/-- The system, with the number of interrupts of the ticker since the call. -/
structure Counted where
  sys : System
  interrupts : Nat

def Counted.step (c : Counted) (step : Step) : Option Counted :=
  (c.sys.step step).map fun next =>
    ⟨next, if step = .ticker ∧ c.sys.ticker = none then c.interrupts + 1 else c.interrupts⟩

/-- The task makes no other call that blocks it, and is not notified if it waits for that. -/
def LeftAlone (call : Blocking) (t : Nat) (c : Counted) : Step → Prop
  | .wait _ | .sleep _ | .suspend => ∀ task, c.sys.runs ≠ some (t, task)
  | .notify t' _ => call = .notifyWait → t' ≠ t
  | _ => True

/-- The interrupt that runs, if one does, has inspected the task. -/
def Counted.Inspected (c : Counted) (t : Nat) : Prop := ∀ i, c.sys.ticker = some i → t < i

/-- The `n`-th interrupt has inspected the task. -/
def Counted.Due (c : Counted) (t n : Nat) : Prop :=
  n < c.interrupts ∨ (c.interrupts = n ∧ c.Inspected t)

/-- The task is ready from the `n`-th interrupt on, and not before. -/
def Counted.OnTime (t n : Nat) (c : Counted) : Prop :=
  ∃ task, c.sys.tasks[t]? = some task ∧ (task.state = .ready ↔ c.Due t n)

/-- **The wait ends on time**, in every run that leaves the task alone. -/
def WakesOnTime (s : System) (t : Nat) (call : Blocking) (n : UInt32) : Prop :=
  ∀ after, s.step (call.step n) = some after →
    ∀ steps, Meets Counted.step (LeftAlone call t) ⟨after, 0⟩ steps →
      Throughout Counted.step (Counted.OnTime t n.toNat) ⟨after, 0⟩ steps

/-- **The wait does not end**, in any such run. -/
def NeverWakes (s : System) (t : Nat) (call : Blocking) : Prop :=
  ∀ after, s.step (call.step maxDelay) = some after →
    ∀ steps, Meets Counted.step (LeftAlone call t) ⟨after, 0⟩ steps →
      Throughout Counted.step
        (fun c => ∃ task, c.sys.tasks[t]? = some task ∧ task.state = call.state) ⟨after, 0⟩ steps

/-! ### The task in the steps of the others -/

/-- What a wait depends on is the same. -/
structure Undisturbed (task task' : Task) : Prop where
  state : task'.state = task.state
  flags : task'.flags = task.flags
  wakeTime : task'.wakeTime = task.wakeTime

/-- **A step leaves the task in its wait**, the ticks and the interrupt. -/
structure Undisturbs (t : Nat) (task : Task) (s next : System) : Prop where
  ticks : next.ticks = s.ticks
  ticker : next.ticker = s.ticker
  started : next.thread ≠ .setup
  task : ∃ task', next.tasks[t]? = some task' ∧ Undisturbed task task'

/-- **No step of the others disturbs the wait**, and no call of the task that does not block it. -/
theorem undisturbs_of_leftAlone {call : Blocking} {t : Nat} {task : Task} {c next : Counted}
    {step : Step} (stepped : c.step step = some next) (alone : LeftAlone call t c step)
    (started : c.sys.thread ≠ .setup) (is : c.sys.tasks[t]? = some task)
    (state : task.state = .ready ∨ task.state = call.state) (notTicker : step ≠ .ticker) :
    Undisturbs t task c.sys next.sys ∧ next.interrupts = c.interrupts := by
  obtain ⟨sys, taken, rfl⟩ := Option.map_eq_some_iff.mp stepped
  refine ⟨?_, if_neg fun both => notTicker both.1⟩
  obtain ⟨ticks, ticker, still⟩ := step_frame taken started notTicker
  obtain ⟨task', is', touched⟩ := step_touched taken is
  refine ⟨ticks, ticker, still, task', is', ?_⟩
  cases touched with
  | same | called | returned | takes => exact ⟨rfl, rfl, rfl⟩
  | waits runs | sleeps runs | suspends runs => exact absurd runs (alone task)
  | notified =>
    refine ⟨if_neg fun waiting => ?_, rfl, rfl⟩
    rcases state with ready | waits
    · exact absurd (ready.symm.trans waiting) nofun
    · cases call with
      | sleep => exact absurd (waits.symm.trans waiting) nofun
      | notifyWait => exact absurd rfl (alone rfl)
  | resumed =>
    refine ⟨if_neg fun suspended => ?_, rfl, rfl⟩
    rcases state with ready | waits
    · exact absurd (ready.symm.trans suspended) nofun
    · cases call <;> exact absurd (waits.symm.trans suspended) nofun
  | inspected => exact absurd rfl notTicker

/-! ### The test of the interrupt -/

/-- A difference counts as reached if its sign bit is clear. -/
theorem reached_iff (difference : UInt32) : 0 ≤ difference.toInt32 ↔ difference.toNat < 2 ^ 31 := by
  have value : difference.toInt32.toInt = difference.toBitVec.toInt := rfl
  rw [Int32.le_iff_toInt_le, value, Int32.toInt_zero, BitVec.toInt_eq_toNat_cond]
  have bound := difference.toNat_lt
  have word : difference.toBitVec.toNat = difference.toNat := rfl
  rw [word]
  split_ifs <;> omega

/-- The difference to a tick that is `n` behind the call, `k` ticks after it. -/
theorem difference_toNat (ticks n : UInt32) {k : Nat} (before : k ≤ n.toNat) :
    (ticks + UInt32.ofNat k - (ticks + n)).toNat = (2 ^ 32 - (n.toNat - k)) % 2 ^ 32 := by
  have bound := n.toNat_lt
  have cancel : ticks + UInt32.ofNat k - (ticks + n) = UInt32.ofNat k - n := by
    rw [UInt32.sub_eq_iff_eq_add, UInt32.add_comm ticks n, ← UInt32.add_assoc, UInt32.sub_add_cancel,
      UInt32.add_comm]
  rw [cancel, UInt32.toNat_sub, UInt32.toNat_ofNat']
  omega

section Inspect

variable {task : Task} {call : Blocking} {ticks n : UInt32} {k : Nat}

/-- A task that waits for a tick. -/
structure WaitsFor (task : Task) (call : Blocking) (wakeTime : UInt32) : Prop where
  state : task.state = call.state
  flags : task.flags &&& infTimeout = 0
  wakeTime : task.wakeTime = wakeTime

theorem WaitsFor.inspect {wakeTime now : UInt32} (waits : WaitsFor task call wakeTime) :
    task.inspect now =
      if 0 ≤ (now - wakeTime).toInt32 then { task with state := .ready } else task := by
  obtain ⟨state, flags, rfl⟩ := waits
  have blocked : task.state = .sleeping ∨ task.state = .waitingEvent := by
    rw [state]
    cases call
    · exact Or.inl rfl
    · exact Or.inr rfl
  rw [Task.inspect, if_pos ⟨blocked, flags⟩]

/-- **The interrupt wakes the task at its tick.** -/
theorem WaitsFor.inspect_due (waits : WaitsFor task call (ticks + n)) (due : k = n.toNat) :
    (task.inspect (ticks + UInt32.ofNat k)).state = .ready := by
  have reached : 0 ≤ (ticks + UInt32.ofNat k - (ticks + n)).toInt32 := by
    rw [reached_iff, difference_toNat _ _ due.le, due]
    omega
  rw [waits.inspect, if_pos reached]

/-- **Before its tick it leaves the task**, if that is not too far ahead. -/
theorem WaitsFor.inspect_before (waits : WaitsFor task call (ticks + n)) (before : k < n.toNat)
    (near : n.toNat - k ≤ 2 ^ 31) : task.inspect (ticks + UInt32.ofNat k) = task := by
  have ahead : ¬ 0 ≤ (ticks + UInt32.ofNat k - (ticks + n)).toInt32 := by
    rw [reached_iff, difference_toNat _ _ before.le]
    omega
  rw [waits.inspect, if_neg ahead]

/-- **A tick that is too far ahead** counts as reached. -/
theorem WaitsFor.inspect_far (waits : WaitsFor task call (ticks + n)) (before : k < n.toNat)
    (far : 2 ^ 31 < n.toNat - k) : (task.inspect (ticks + UInt32.ofNat k)).state = .ready := by
  have bound := n.toNat_lt
  have reached : 0 ≤ (ticks + UInt32.ofNat k - (ticks + n)).toInt32 := by
    rw [reached_iff, difference_toNat _ _ before.le]
    omega
  rw [waits.inspect, if_pos reached]

/-- A task that is ready, or that waits without a timeout, is left. -/
theorem inspect_ready (ready : task.state = .ready) (now : UInt32) : task.inspect now = task := by
  rw [Task.inspect, if_neg]
  rintro ⟨sleeping | waiting, -⟩
  · exact absurd (ready.symm.trans sleeping) nofun
  · exact absurd (ready.symm.trans waiting) nofun

theorem inspect_infinite (flags : task.flags &&& infTimeout ≠ 0) (now : UInt32) :
    task.inspect now = task := by
  rw [Task.inspect, if_neg fun blocked => flags blocked.2]

end Inspect

/-! ### The wait -/

section Wait

variable {s after : System} {t : Nat} {task : Task} {call : Blocking} {ticks n : UInt32}
  {c next : Counted}

/-- **What holds while the task waits**, and after it was woken. -/
structure Waits (t : Nat) (call : Blocking) (ticks n : UInt32) (c : Counted) : Prop where
  started : c.sys.thread ≠ .setup
  counted : c.sys.ticker ≠ none → 1 ≤ c.interrupts
  now : c.sys.ticks = ticks + UInt32.ofNat c.interrupts
  task : ∃ task, c.sys.tasks[t]? = some task ∧ (c.Due t n.toNat → task.state = .ready) ∧
    (¬ c.Due t n.toNat → WaitsFor task call (ticks + n))

theorem Undisturbed.waitsFor {task' : Task} {wakeTime : UInt32} (same : Undisturbed task task')
    (waits : WaitsFor task call wakeTime) : WaitsFor task' call wakeTime :=
  ⟨same.state.trans waits.state, same.flags.symm ▸ waits.flags,
    same.wakeTime.trans waits.wakeTime⟩

/-- A step of the others. -/
theorem Waits.other (waits : Waits t call ticks n c) {step : Step}
    (alone : LeftAlone call t c step) (notTicker : step ≠ .ticker)
    (stepped : c.step step = some next) : Waits t call ticks n next := by
  obtain ⟨started, counted, now, task, is, ready, waiting⟩ := waits
  have blocked : task.state = .ready ∨ task.state = call.state := by
    by_cases due : c.Due t n.toNat
    · exact Or.inl (ready due)
    · exact Or.inr (waiting due).state
  obtain ⟨⟨sameTicks, sameTicker, still, task', is', same⟩, interrupts⟩ :=
    undisturbs_of_leftAlone stepped alone started is blocked notTicker
  have due : next.Due t n.toNat ↔ c.Due t n.toNat := by
    simp only [Counted.Due, Counted.Inspected, interrupts, sameTicker]
  refine ⟨still, ?_, ?_, task', is', ?_, ?_⟩
  · rw [sameTicker, interrupts]
    exact counted
  · rw [sameTicks, interrupts]
    exact now
  · rw [due]
    exact fun isDue => same.state.trans (ready isDue)
  · rw [due]
    exact fun notDue => same.waitsFor (waiting notDue)

/-- **The entry of the interrupt**: it has not inspected the task yet. -/
theorem Waits.entry (waits : Waits t call ticks n c)
    (idle : c.sys.ticker = none) :
    Waits t call ticks n
      ⟨{ c.sys with ticks := c.sys.ticks + 1, ticker := some 0 }, c.interrupts + 1⟩ := by
  obtain ⟨started, counted, now, task, is, ready, waiting⟩ := waits
  have due : Counted.Due ⟨{ c.sys with ticks := c.sys.ticks + 1, ticker := some 0 },
      c.interrupts + 1⟩ t n.toNat ↔ c.Due t n.toNat := by
    have fresh : ¬ Counted.Inspected ⟨{ c.sys with ticks := c.sys.ticks + 1, ticker := some 0 },
        c.interrupts + 1⟩ t := fun inspected => absurd (inspected 0 rfl) (Nat.not_lt_zero t)
    have inspected : c.Inspected t := by simp [Counted.Inspected, idle]
    simp only [Counted.Due, fresh, inspected, and_false, and_true, or_false]
    omega
  refine ⟨started, fun _ => Nat.le_add_left 1 _, ?_, task, is, ?_, ?_⟩
  · show c.sys.ticks + 1 = ticks + UInt32.ofNat (c.interrupts + 1)
    rw [now, UInt32.ofNat_add, UInt32.add_assoc]
    rfl
  · rw [due]
    exact ready
  · rw [due]
    exact waiting

/-- The interrupt inspects the task: at its tick it wakes it. -/
theorem Waits.turn_self (near : n.toNat ≤ 2 ^ 31 + 1) (waits : Waits t call ticks n c)
    (running : c.sys.ticker = some t) {found : Task} (there : c.sys.tasks[t]? = some found) :
    Waits t call ticks n
      ⟨{ c.sys.write t (found.inspect c.sys.ticks) with ticker := some (t + 1) },
        c.interrupts⟩ := by
  obtain ⟨started, counted, now, task, is, ready, waiting⟩ := waits
  obtain rfl := Option.some.inj (there.symm.trans is)
  have some_ : 1 ≤ c.interrupts := counted (by simp [running])
  have notYet : ¬ c.Inspected t := fun inspected => Nat.lt_irrefl t (inspected t running)
  refine ⟨started, fun _ => some_, now, found.inspect c.sys.ticks, write_self is _, ?_, ?_⟩
  · rintro (later | ⟨same, -⟩)
    · have isReady := ready (Or.inl later)
      rw [inspect_ready isReady]
      exact isReady
    · have notDue : ¬ c.Due t n.toNat := by
        rintro (later | ⟨-, inspected⟩)
        · exact absurd same (Nat.ne_of_gt later)
        · exact notYet inspected
      rw [now]
      exact (waiting notDue).inspect_due same
  · intro notDue
    have ahead : c.interrupts < n.toNat := by
      by_contra reached
      rcases Nat.lt_or_eq_of_le (Nat.le_of_not_lt reached) with later | same
      · exact notDue (Or.inl later)
      · refine notDue (Or.inr ⟨same.symm, fun j is => ?_⟩)
        obtain rfl := Option.some.inj is
        exact Nat.lt_succ_self t
    have wait := waiting (by
      rintro (later | ⟨same, -⟩)
      · exact absurd later (Nat.not_lt_of_le ahead.le)
      · exact absurd same ahead.ne)
    rw [now, wait.inspect_before ahead (by omega)]
    exact wait

/-- The interrupt inspects another task. -/
theorem Waits.turn_other (waits : Waits t call ticks n c) {i : Nat}
    (running : c.sys.ticker = some i) (differ : i ≠ t) (written : Task) :
    Waits t call ticks n
      ⟨{ c.sys.write i written with ticker := some (i + 1) }, c.interrupts⟩ := by
  obtain ⟨started, counted, now, task, is, ready, waiting⟩ := waits
  have some_ : 1 ≤ c.interrupts := counted (by simp [running])
  have due : Counted.Due ⟨{ c.sys.write i written with ticker := some (i + 1) }, c.interrupts⟩ t
      n.toNat ↔ c.Due t n.toNat := by
    have before : c.Inspected t ↔ t < i := by simp [Counted.Inspected, running]
    have after : Counted.Inspected ⟨{ c.sys.write i written with ticker := some (i + 1) },
        c.interrupts⟩ t ↔ t < i + 1 := by simp [Counted.Inspected]
    simp only [Counted.Due, after, before]
    omega
  refine ⟨started, fun _ => some_, now, task, (write_other differ _).trans is, ?_, ?_⟩
  · rw [due]
    exact ready
  · rw [due]
    exact waiting

/-- **A turn of its loop.** -/
theorem Waits.turn (near : n.toNat ≤ 2 ^ 31 + 1) (waits : Waits t call ticks n c) {i : Nat}
    (running : c.sys.ticker = some i) {found : Task} (there : c.sys.tasks[i]? = some found) :
    Waits t call ticks n
      ⟨{ c.sys.write i (found.inspect c.sys.ticks) with ticker := some (i + 1) },
        c.interrupts⟩ := by
  by_cases here : i = t
  · subst here
    exact waits.turn_self near running there
  · exact waits.turn_other running here _

/-- **The end of the interrupt**: it has inspected all tasks. -/
theorem Waits.leave (waits : Waits t call ticks n c) {i : Nat} (running : c.sys.ticker = some i)
    (none_ : c.sys.tasks[i]? = none) :
    Waits t call ticks n ⟨{ c.sys with ticker := none }, c.interrupts⟩ := by
  obtain ⟨started, counted, now, task, is, ready, waiting⟩ := waits
  have inside : t < c.sys.tasks.length := (List.getElem?_eq_some_iff.mp is).1
  have past := List.getElem?_eq_none_iff.mp none_
  have due : Counted.Due ⟨{ c.sys with ticker := none }, c.interrupts⟩ t n.toNat ↔
      c.Due t n.toNat := by
    have before : c.Inspected t := fun j is => by
      obtain rfl := Option.some.inj (running.symm.trans is)
      omega
    have after : Counted.Inspected ⟨{ c.sys with ticker := none }, c.interrupts⟩ t := nofun
    simp only [Counted.Due, before, after]
  refine ⟨started, nofun, now, task, is, ?_, ?_⟩
  · rw [due]
    exact ready
  · rw [due]
    exact waiting

/-- **What a step of the interrupt does**: its entry, its end, or a turn of its loop. -/
theorem ticker_cases (started : c.sys.thread ≠ .setup) (stepped : c.step .ticker = some next) :
    (c.sys.ticker = none ∧ next =
      ⟨{ c.sys with ticks := c.sys.ticks + 1, ticker := some 0 }, c.interrupts + 1⟩) ∨
    (∃ i, c.sys.ticker = some i ∧ c.sys.tasks[i]? = none ∧ next =
      ⟨{ c.sys with ticker := none }, c.interrupts⟩) ∨
    ∃ i found, c.sys.ticker = some i ∧ c.sys.tasks[i]? = some found ∧ next =
      ⟨{ c.sys.write i (found.inspect c.sys.ticks) with ticker := some (i + 1) },
        c.interrupts⟩ := by
  obtain ⟨sys, taken, rfl⟩ := Option.map_eq_some_iff.mp stepped
  have same : some c.sys.tickerStep = some sys := by
    rw [← taken]
    exact (if_neg started).symm
  obtain rfl := Option.some.inj same
  cases running : c.sys.ticker with
  | none =>
    left
    simp only [System.tickerStep, running, and_self, if_true]
  | some i =>
    right
    cases there : c.sys.tasks[i]? with
    | none =>
      left
      exact ⟨i, rfl, there, by simp [System.tickerStep, running, there]⟩
    | some found =>
      right
      exact ⟨i, found, rfl, there, by simp [System.tickerStep, running, there]⟩

/-- **A wait of at most `2 ^ 31 + 1` ticks goes on as it should in every step.** -/
theorem Waits.step (near : n.toNat ≤ 2 ^ 31 + 1) {step : Step} (waits : Waits t call ticks n c)
    (alone : LeftAlone call t c step) (stepped : c.step step = some next) :
    Waits t call ticks n next := by
  by_cases isTicker : step = .ticker
  · subst isTicker
    obtain ⟨idle, rfl⟩ | ⟨i, running, past, rfl⟩ | ⟨i, found, running, there, rfl⟩ :=
      ticker_cases waits.started stepped
    · exact waits.entry idle
    · exact waits.leave running past
    · exact waits.turn near running there
  · exact waits.other alone isTicker stepped

theorem Waits.onTime (waits : Waits t call ticks n c) : c.OnTime t n.toNat := by
  obtain ⟨task, is, ready, waiting⟩ := waits.task
  refine ⟨task, is, fun isReady => ?_, ready⟩
  by_contra notDue
  have blocked := (waiting notDue).state
  rw [isReady] at blocked
  cases call <;> exact absurd blocked nofun

/-! ### The call -/

/-- What the call writes. -/
theorem call_after (runs : s.runs = some (t, task)) (called : s.step (call.step n) = some after) :
    ∃ task', after = s.write t task' ∧ task'.state = call.state ∧
      task'.wakeTime = s.ticks + n ∧
      task'.flags = if n = maxDelay then (task.flags &&& ~~~infTimeout) ||| infTimeout
        else task.flags &&& ~~~infTimeout := by
  cases call with
  | sleep =>
    change s.call (fun t task => s.write t (task.sleep s.ticks n)) = some after at called
    obtain ⟨u, found, runs', -, rfl⟩ := call_eq called
    obtain ⟨rfl, rfl⟩ := Prod.mk.inj (Option.some.inj (runs.symm.trans runs'))
    exact ⟨_, rfl, rfl, rfl, rfl⟩
  | notifyWait =>
    change s.call (fun t task => s.write t (task.notifyWait s.ticks n)) = some after at called
    obtain ⟨u, found, runs', -, rfl⟩ := call_eq called
    obtain ⟨rfl, rfl⟩ := Prod.mk.inj (Option.some.inj (runs.symm.trans runs'))
    exact ⟨_, rfl, rfl, rfl, rfl⟩

/-- A task that runs is called by the scheduler, outside of the interrupt. -/
theorem runs_outside (runs : s.runs = some (t, task)) : s.thread ≠ .setup ∧ s.ticker = none := by
  unfold System.runs at runs
  split at runs
  · next thread ticker => exact ⟨by rw [thread]; exact nofun, ticker⟩
  · cases runs

/-- **The wait begins.** -/
theorem Waits.begin (runs : s.runs = some (t, task)) (positive : 1 ≤ n.toNat)
    (finite : n ≠ maxDelay) (called : s.step (call.step n) = some after) :
    Waits t call s.ticks n ⟨after, 0⟩ := by
  obtain ⟨task', rfl, state, wakeTime, flags⟩ := call_after runs called
  obtain ⟨started, idle⟩ := runs_outside runs
  refine ⟨started, fun running => absurd idle running, ?_, task', write_self (runs_task runs) task',
    ?_, ?_⟩
  · exact (UInt32.add_zero _).symm
  · rintro (later | ⟨same, -⟩)
    · exact absurd later (Nat.not_lt_zero _)
    · exact absurd same.symm (Nat.ne_of_gt positive)
  · intro _
    refine ⟨state, ?_, wakeTime⟩
    rw [flags, if_neg finite, UInt8.and_assoc]
    exact UInt8.and_zero

/-! ### A wait that is too long -/

/-- The first interrupt has inspected the tasks below `i`, and not this one. -/
structure Inspecting (t : Nat) (task : Task) (ticks : UInt32) (i : Nat) (c : Counted) : Prop where
  started : c.sys.thread ≠ .setup
  running : c.sys.ticker = some i
  first : c.interrupts = 1
  now : c.sys.ticks = ticks + UInt32.ofNat 1
  is : c.sys.tasks[t]? = some task

/-- A turn of the loop. -/
theorem Inspecting.turn {i : Nat} (inspecting : Inspecting t task ticks i c) {found : Task}
    (there : c.sys.tasks[i]? = some found) :
    c.step .ticker = some ⟨{ c.sys.write i (found.inspect c.sys.ticks) with
      ticker := some (i + 1) }, c.interrupts⟩ := by
  have stepped : c.sys.step .ticker = some c.sys.tickerStep := if_neg inspecting.started
  rw [Counted.step, stepped]
  simp [System.tickerStep, inspecting.running, there]

/-- The loop comes to the task. -/
theorem inspecting_of_idle (started : c.sys.thread ≠ .setup) (idle : c.sys.ticker = none)
    (fresh : c.interrupts = 0) (is : c.sys.tasks[t]? = some task) {i : Nat} (le : i ≤ t) :
    ∃ reached, exec Counted.step c (List.replicate (i + 1) .ticker) = some reached ∧
      Inspecting t task c.sys.ticks i reached := by
  induction i with
  | zero =>
    have stepped : c.sys.step .ticker = some c.sys.tickerStep := if_neg started
    refine ⟨⟨{ c.sys with ticks := c.sys.ticks + 1, ticker := some 0 }, 1⟩, ?_, started, rfl, rfl,
      rfl, is⟩
    rw [List.replicate_one, LabelledSystem.exec_cons, Counted.step, stepped]
    simp [System.tickerStep, idle, fresh]
  | succ i ih =>
    obtain ⟨reached, run, inspecting⟩ := ih (by omega)
    have inside : i < reached.sys.tasks.length := by
      have last := (List.getElem?_eq_some_iff.mp inspecting.is).1
      omega
    have there := List.getElem?_eq_getElem inside
    refine ⟨⟨{ reached.sys.write i (reached.sys.tasks[i].inspect reached.sys.ticks) with
      ticker := some (i + 1) }, reached.interrupts⟩, ?_, ?_⟩
    · rw [List.replicate_succ', LabelledSystem.exec_append _ run, LabelledSystem.exec_cons,
        inspecting.turn there]
      rfl
    · refine ⟨inspecting.started, rfl, inspecting.first, inspecting.now, ?_⟩
      exact (write_other (by omega) _).trans inspecting.is

/-- **A longer wait is over at the first interrupt.** -/
theorem early (runs : s.runs = some (t, task)) (finite : n.toNat ≤ 2 ^ 32 - 2)
    (far : 2 ^ 31 + 1 < n.toNat) (call : Blocking) : ¬ WakesOnTime s t call n := by
  intro onTime
  have notMax : n ≠ maxDelay := by
    rintro rfl
    exact absurd finite (by decide)
  have called : ∃ after, s.step (call.step n) = some after := by
    cases call <;> exact ⟨_, congrArg (Option.map _) runs⟩
  obtain ⟨after, called⟩ := called
  have waits := Waits.begin runs (by omega) notMax called
  obtain ⟨task', is, -, waiting⟩ := waits.task
  have wait := waiting (by
    rintro (later | ⟨same, -⟩)
    · exact absurd later (Nat.not_lt_zero _)
    · exact absurd same (by show 0 ≠ n.toNat; omega))
  obtain ⟨started, idle⟩ := runs_outside runs
  obtain ⟨written, rfl, -⟩ := call_after runs called
  obtain ⟨reached, run, inspecting⟩ := inspecting_of_idle (c := ⟨s.write t written, 0⟩) started idle
    rfl is (Nat.le_refl t)
  have alone : Meets Counted.step (LeftAlone call t) ⟨s.write t written, 0⟩
      (List.replicate (t + 2) .ticker) := by
    refine LabelledSystem.meets_of_labels (fun step member state => ?_) _
    rw [List.eq_of_mem_replicate member]
    trivial
  have woken : exec Counted.step ⟨s.write t written, 0⟩ (List.replicate (t + 2) .ticker) =
      some ⟨{ reached.sys.write t (task'.inspect reached.sys.ticks) with ticker := some (t + 1) },
        reached.interrupts⟩ := by
    rw [List.replicate_succ', LabelledSystem.exec_append _ run, LabelledSystem.exec_cons,
      inspecting.turn inspecting.is]
    rfl
  obtain ⟨found, there, ready⟩ := onTime _ called _ alone _ [] (List.append_nil _).symm _ woken
  obtain rfl : task'.inspect reached.sys.ticks = found :=
    Option.some.inj ((write_self inspecting.is _).symm.trans there)
  have isReady : (task'.inspect reached.sys.ticks).state = .ready := by
    rw [inspecting.now]
    exact wait.inspect_far (by omega) (by omega)
  rcases ready.mp isReady with later | ⟨same, -⟩
  · have later' : n.toNat < reached.interrupts := later
    rw [inspecting.first] at later'
    omega
  · have same' : reached.interrupts = n.toNat := same
    rw [inspecting.first] at same'
    omega

/-! ### A wait without an end -/

/-- A task that waits without a timeout. -/
structure Held (t : Nat) (call : Blocking) (c : Counted) : Prop where
  started : c.sys.thread ≠ .setup
  task : ∃ task, c.sys.tasks[t]? = some task ∧ task.state = call.state ∧
    task.flags &&& infTimeout ≠ 0

theorem Held.step {step : Step} (held : Held t call c) (alone : LeftAlone call t c step)
    (stepped : c.step step = some next) : Held t call next := by
  obtain ⟨started, task, is, state, flags⟩ := held
  by_cases isTicker : step = .ticker
  · subst isTicker
    obtain ⟨idle, rfl⟩ | ⟨i, running, past, rfl⟩ | ⟨i, found, running, there, rfl⟩ :=
      ticker_cases started stepped
    · exact ⟨started, task, is, state, flags⟩
    · exact ⟨started, task, is, state, flags⟩
    · refine ⟨started, task, ?_, state, flags⟩
      by_cases here : i = t
      · subst here
        obtain rfl := Option.some.inj (there.symm.trans is)
        rw [inspect_infinite flags]
        exact write_self is found
      · exact (write_other here _).trans is
  · obtain ⟨⟨-, -, still, task', is', same⟩, -⟩ :=
      undisturbs_of_leftAlone stepped alone started is (Or.inr state) isTicker
    exact ⟨still, task', is', same.state.trans state, same.flags.symm ▸ flags⟩

/-- A flag that is set. -/
theorem or_and_self_right (flags flag : UInt8) : (flags ||| flag) &&& flag = flag := by
  refine UInt8.toBitVec_inj.mp (BitVec.eq_of_getLsbD_eq fun i _ => ?_)
  rw [UInt8.toBitVec_and, UInt8.toBitVec_or, BitVec.getLsbD_and, BitVec.getLsbD_or]
  cases flags.toBitVec.getLsbD i <;> simp

/-- **A wait of `CORTOS_MAX_DELAY` is never ended by the interrupt.** -/
theorem neverWakes (runs : s.runs = some (t, task)) (call : Blocking) : NeverWakes s t call := by
  intro after called steps alone
  have held : Held t call ⟨after, 0⟩ := by
    obtain ⟨task', rfl, state, -, flags⟩ := call_after runs called
    refine ⟨(runs_outside runs).1, task', write_self (runs_task runs) task', state, ?_⟩
    rw [flags, if_pos rfl, or_and_self_right]
    decide
  intro before rest split reached run
  obtain ⟨task', is, state, -⟩ := (LabelledSystem.throughout_of_meets (Held t call)
    (fun _ _ _ held alone stepped => held.step alone stepped) held alone before rest split reached
    run).task
  exact ⟨task', is, state⟩

/-- **Which timed waits end on time**: those of at most `2 ^ 31 + 1` ticks, whatever the tick at the
call is. -/
theorem wakesOnTime_iff (runs : s.runs = some (t, task)) (call : Blocking)
    (positive : 1 ≤ n.toNat) (finite : n.toNat ≤ 2 ^ 32 - 2) :
    (WakesOnTime s t call n ↔ n.toNat ≤ 2 ^ 31 + 1) ∧ NeverWakes s t call := by
  refine ⟨⟨fun onTime => ?_, fun near => ?_⟩, neverWakes runs call⟩
  · by_contra far
    exact early runs finite (Nat.lt_of_not_le far) call onTime
  · intro after called steps alone before rest split reached run
    have notMax : n ≠ maxDelay := by
      rintro rfl
      exact absurd finite (by decide)
    exact (LabelledSystem.throughout_of_meets (Waits t call s.ticks n)
      (fun _ _ _ waits alone stepped => waits.step near alone stepped)
      (Waits.begin runs positive notMax called) alone before rest split reached run).onTime

end Wait

/-- One task that runs. -/
def running : System where
  tasks := [.create 0]
  ticks := 0
  pticksLast := 0
  current := some 0
  thread := .exec 0
  ticker := none
  calls := []

/-- **A sleep of 25 days**, at a thousand ticks a second, is over at the next tick. -/
theorem not_wakesOnTime : ¬ ∀ (s : System) (t : Nat) (task : Task), s.runs = some (t, task) →
    ∀ (call : Blocking) (n : UInt32), 1 ≤ n.toNat → n.toNat ≤ 2 ^ 32 - 2 →
      WakesOnTime s t call n ∧ NeverWakes s t call := fun onTime =>
  early (s := running) (t := 0) (n := 2160000000) rfl (by decide) (by decide) .sleep
    (onTime running 0 _ rfl .sleep 2160000000 (by decide) (by decide)).1

/-- A sleep of a second is on time. -/
theorem wakesOnTime_second : WakesOnTime running 0 .sleep 1000 ∧ NeverWakes running 0 .sleep := by
  have slept := wakesOnTime_iff (s := running) (t := 0) (n := 1000) rfl .sleep (by decide) (by decide)
  exact ⟨slept.1.mpr (by decide), slept.2⟩

end ForgeDrive.Cortos
