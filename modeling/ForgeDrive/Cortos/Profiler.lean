/-
**The profiler of the scheduler: which periods add up** (`cortos.h`, `cortos.c`).

`scheduler_execute` charges a task with the time of a call when the call ends. `xTaskProfiler`,
which a task calls, turns what was charged into shares of the time since it was called before, and
begins a new period: in the middle of the run that called it. When that run ends, all of it is
charged to the new period, also the time before.

* `Accounted.step` — what is charged in a period is the time of it in which the runs ran that have
  ended (`covered`), and the time that the first of them had run before it (`overhang`);
* `addsUp_throughout` — the shares add up in every run in which at each call the overhang is no
  longer than the rest of the period;
* `not_addsUp_of_exceeds` — where it is longer by more than the rounding, they do not;
* `not_always_addsUp` — a task that calls the profiler early in its second run has 105 percent.
-/

import Mathlib.Algebra.Order.BigOperators.Group.List
import Mathlib.Algebra.Order.Ring.Nat
import ForgeDrive.Cortos.Notify

namespace ForgeDrive.Cortos

open LabelledSystem (exec Meets Throughout)

/-! ### Reports -/

/-- `ISRProfiler`. -/
structure IsrProfiler where
  ptickLast : UInt32
  execPtickMax : UInt32
  execPtickTotal : UInt32
  execCalls : UInt16
  profCalls : UInt16
  profExecQ16 : UInt16
  deriving DecidableEq, Repr

/-- An entry of the zeroed `isrprof`. -/
def IsrProfiler.zero : IsrProfiler := ⟨0, 0, 0, 0, 0, 0⟩

/-- `CORTOS_MAX_ISRPROF`. -/
def maxIsrprof : Nat := 3

/-- `xISRProfilerEnter`. -/
def IsrProfiler.enter (isr : IsrProfiler) (pticks : UInt32) : IsrProfiler :=
  { isr with ptickLast := pticks }

/-- `xISRProfilerExit`. -/
def IsrProfiler.exit (isr : IsrProfiler) (pticks : UInt32) : IsrProfiler :=
  let elapsed := pticks - isr.ptickLast
  { isr with
    execPtickMax := if elapsed > isr.execPtickMax then elapsed else isr.execPtickMax
    execPtickTotal := isr.execPtickTotal + elapsed
    execCalls := isr.execCalls + 1 }

/-- What of a period is charged, in 65535ths, as it is computed in 64 bits. -/
def share (profPticks execPtickTotal : UInt32) : UInt64 :=
  execPtickTotal.toUInt64 * 65535 / profPticks.toUInt64

/-- The loop body of `xTaskProfiler` over the interrupts. -/
def IsrProfiler.report (profPticks : UInt32) (isr : IsrProfiler) : IsrProfiler :=
  { isr with
    profCalls := isr.execCalls
    execCalls := 0
    profExecQ16 := (share profPticks isr.execPtickTotal).toUInt16
    execPtickTotal := 0 }

/-- `prof_calls` and `prof_exec_q16` of a task. -/
structure TaskProfile where
  profCalls : UInt16
  profExecQ16 : UInt16
  deriving DecidableEq, Repr

/-- What the loop body of `xTaskProfiler` over the tasks reports. -/
def Task.report (profPticks : UInt32) (task : Task) : TaskProfile where
  profCalls := task.execCalls
  profExecQ16 := (share profPticks task.execPtickTotal).toUInt16

/-- The task after the loop body. -/
def Task.restart (task : Task) : Task := { task with execCalls := 0, execPtickTotal := 0 }

/-- The shares of the tasks. -/
def System.shares (s : System) (profPticks : UInt32) : List UInt64 :=
  s.tasks.map fun task => share profPticks task.execPtickTotal

/-- **The shares of a report add up**: each fits in the 16 bits it is stored in, and together they
are one at most. -/
structure AddsUp (shares : List UInt64) : Prop where
  each : ∀ share ∈ shares, share ≤ 65535 ∧ share.toUInt16.toUInt64 = share
  sum : (shares.map UInt64.toNat).sum ≤ 65535

/-! ### The scheduler on a clock -/

/-- The scheduler with its profiling data, and the time in profiling ticks. For the proofs there is
what the code does not keep: when the call of the present task began, when the period began, the
time of the period in which the runs ran that have ended in it, the time that the first of them had
run before the period, and the shares of each report as they were computed. -/
structure Timed where
  sys : System
  isrprof : List IsrProfiler
  profiles : List TaskProfile
  profPeriodUs : UInt32
  profExecQ16 : UInt32
  now : Nat
  began : Nat
  last : Nat
  covered : Nat
  overhang : Nat
  reports : List (List UInt64)
  deriving DecidableEq, Repr

/-- `xSchedulerInit`, at any time. -/
def Timed.init (ticks pticksLast : UInt32) (now : Nat) : Timed where
  sys := .init ticks pticksLast
  isrprof := List.replicate maxIsrprof .zero
  profiles := []
  profPeriodUs := 0
  profExecQ16 := 0
  now := now
  began := now
  last := now
  covered := 0
  overhang := 0
  reports := []

/-- `CORTOS_PortProfTicks`. -/
def Timed.pticks (s : Timed) : UInt32 := UInt32.ofNat s.now

/-- `xTaskProfiler`, where the profiling ticks have a rate of `rateHz`. -/
def Timed.taskProfiler (s : Timed) (rateHz : UInt32) : Timed :=
  let profPticks := s.pticks - s.sys.pticksLast
  if profPticks = 0 then s
  else
    let profiles := s.sys.tasks.map (Task.report profPticks)
    { s with
      sys := { s.sys with tasks := s.sys.tasks.map Task.restart, pticksLast := s.pticks }
      isrprof := s.isrprof.map (IsrProfiler.report profPticks)
      profiles := profiles
      profPeriodUs := (profPticks.toUInt64 * 1000000 / rateHz.toUInt64).toUInt32
      profExecQ16 := profiles.foldl (fun sum profile => sum + profile.profExecQ16.toUInt32) 0
      last := s.now
      covered := 0
      overhang := 0
      reports := s.reports ++ [s.sys.shares profPticks] }

/-- The times after a step of the scheduler: a start, a call or the end of one. -/
def Timed.observe (s : Timed) (next : System) : Timed :=
  match s.sys.thread, next.thread with
  | .setup, .scan _ => { s with sys := next, last := s.now }
  | .scan _, .exec _ => { s with sys := next, began := s.now }
  | .exec _, .scan _ =>
    { s with
      sys := next
      covered := s.covered + (s.now - max s.began s.last)
      overhang := s.overhang + (s.last - s.began) }
  | _, _ => { s with sys := next }

/-- The step reads these profiling ticks, if any. -/
def Step.reads (pticks : UInt32) : Step → Bool
  | .start read | .scan read | .returns read => read == pticks
  | _ => true

/-- Time passes, the scheduler takes a step, an interrupt is profiled, or the task that runs calls
`xTaskProfiler`. -/
inductive Event
  | elapse (pticks : Nat)
  | scheduler (step : Step)
  | isrEnter (isr : Nat)
  | isrExit (isr : Nat)
  | profiler
  deriving DecidableEq, Repr

/-- Writing the profile of an interrupt. -/
def Timed.writeIsr (s : Timed) (isr : Nat) (write : IsrProfiler → IsrProfiler) : Option Timed :=
  s.isrprof[isr]?.map fun profile => { s with isrprof := s.isrprof.set isr (write profile) }

/-- One step of the scheduler on its clock. -/
def Timed.step (rateHz : UInt32) (s : Timed) : Event → Option Timed
  | .elapse pticks => some { s with now := s.now + pticks }
  | .scheduler step => if step.reads s.pticks then (s.sys.step step).map s.observe else none
  | .isrEnter isr => s.writeIsr isr fun profile => profile.enter s.pticks
  | .isrExit isr => s.writeIsr isr fun profile => profile.exit s.pticks
  | .profiler => s.sys.runs.map fun _ => s.taskProfiler rateHz

/-- Every report so far adds up. -/
def Timed.AddUp (s : Timed) : Prop := ∀ shares ∈ s.reports, AddsUp shares

/-- The time that is measured: the call of a task when it ends, a period when it is reported. -/
def Timed.elapsed (s : Timed) : Event → Nat
  | .scheduler (.returns _) => s.now - s.began
  | .profiler => s.now - s.last
  | _ => 0

/-- No call of a task and no period takes 2^32 profiling ticks. -/
def Short (s : Timed) (event : Event) : Prop := s.elapsed event < 2 ^ 32

/-- **The time that the run of the call before had run until then**, if it has ended, **is no longer
than the time of this period in which no run ran that has ended.** -/
def Fits (s : Timed) (event : Event) : Prop :=
  event = .profiler → s.overhang ≤ s.now - s.last - s.covered

instance (s : Timed) (event : Event) : Decidable (Short s event) := Nat.decLt _ _

instance (s : Timed) (event : Event) : Decidable (Fits s event) :=
  inferInstanceAs (Decidable (event = .profiler → s.overhang ≤ s.now - s.last - s.covered))

/-! ### What is charged -/

/-- What is charged to the tasks together. -/
def System.charged (s : System) : Nat := (s.tasks.map fun task => task.execPtickTotal.toNat).sum

/-- **What a step does to the profiling data**: the scheduler starts, a call begins or ends, or
nothing is charged. -/
inductive Charging (pticks : UInt32) (s next : System) : Prop
  | starts (was : s.thread = .setup) (thread : next.thread = .scan 0)
      (last : next.pticksLast = pticks) (charged : next.charged = s.charged)
  | begins {i : Nat} (was : s.thread = .scan i) (thread : next.thread = .exec pticks)
      (last : next.pticksLast = s.pticksLast) (charged : next.charged = s.charged)
  | ends {start : UInt32} {t : Nat} {task : Task} (was : s.thread = .exec start)
      (thread : next.thread = .scan 0) (last : next.pticksLast = s.pticksLast)
      (is : s.tasks[t]? = some task)
      (charged : next.charged + task.execPtickTotal.toNat =
        s.charged + (task.execPtickTotal + (pticks - start)).toNat)
  | scans {i j : Nat} (was : s.thread = .scan i) (thread : next.thread = .scan j)
      (last : next.pticksLast = s.pticksLast) (charged : next.charged = s.charged)
  | keeps (thread : next.thread = s.thread) (last : next.pticksLast = s.pticksLast)
      (charged : next.charged = s.charged)

variable {sys next : System} {t : Nat} {task : Task}

/-- Writing a task replaces what it is charged. -/
theorem charged_write (is : sys.tasks[t]? = some task) (task' : Task) :
    (sys.write t task').charged + task.execPtickTotal.toNat =
      sys.charged + task'.execPtickTotal.toNat := by
  have replaced : ∀ (tasks : List Task) (t : Nat), tasks[t]? = some task →
      ((tasks.set t task').map fun task => task.execPtickTotal.toNat).sum +
          task.execPtickTotal.toNat =
        (tasks.map fun task => task.execPtickTotal.toNat).sum + task'.execPtickTotal.toNat := by
    intro tasks
    induction tasks with
    | nil => exact fun t is => by cases is
    | cons head rest ih =>
      intro t is
      cases t with
      | zero =>
        obtain rfl := Option.some.inj is
        rw [List.set_cons_zero, List.map_cons, List.map_cons, List.sum_cons, List.sum_cons]
        omega
      | succ t =>
        have later := ih t is
        rw [List.set_cons_succ, List.map_cons, List.map_cons, List.sum_cons, List.sum_cons]
        omega
  exact replaced sys.tasks t is

/-- A write that charges nothing. -/
theorem charged_write_same (is : sys.tasks[t]? = some task) {task' : Task}
    (same : task'.execPtickTotal = task.execPtickTotal) :
    (sys.write t task').charged = sys.charged := by
  have written := charged_write is task'
  rw [same] at written
  exact Nat.add_right_cancel written

theorem charging_scan (sys : System) (i : Nat) (was : sys.thread = .scan i) (pticks : UInt32) :
    Charging pticks sys (sys.scanStep i pticks) := by
  unfold System.scanStep
  split
  · exact .scans was rfl rfl rfl
  · next task is =>
    split
    · exact .begins was rfl rfl (charged_write_same is rfl)
    · exact .scans was rfl rfl rfl

theorem charging_ticker (sys : System) (pticks : UInt32) : Charging pticks sys sys.tickerStep := by
  unfold System.tickerStep
  split
  · exact .keeps rfl rfl rfl
  · split
    · exact .keeps rfl rfl rfl
    · next task is =>
      refine .keeps rfl rfl (charged_write_same is ?_)
      unfold Task.inspect
      split_ifs <;> rfl

theorem step_charging {pticks : UInt32} {step : Step} (reads : step.reads pticks)
    (stepped : sys.step step = some next) : Charging pticks sys next := by
  cases step with
  | create budget =>
    simp only [System.step] at stepped
    split at stepped
    · obtain rfl := Option.some.inj stepped
      split
      · refine .keeps rfl rfl ?_
        rw [System.charged, List.map_append, List.sum_append]
        rfl
      · exact .keeps rfl rfl rfl
    · cases stepped
  | start read =>
    obtain rfl : read = pticks := eq_of_beq reads
    obtain ⟨was, same⟩ := Option.ite_none_right_eq_some.mp stepped
    obtain rfl := Option.some.inj same
    exact .starts was rfl rfl rfl
  | scan read =>
    obtain rfl : read = pticks := eq_of_beq reads
    simp only [System.step] at stepped
    split at stepped
    · next i was _ =>
      obtain rfl := Option.some.inj stepped
      exact charging_scan sys i was read
    · cases stepped
  | returns read =>
    obtain rfl : read = pticks := eq_of_beq reads
    simp only [System.step] at stepped
    split at stepped
    · next start was =>
      obtain ⟨t, task, -, is, rfl⟩ := call_eq stepped
      exact .ends was rfl rfl is (charged_write is (task.profile (read - start)))
    · cases stepped
  | wait timeoutTicks | take | sleep sleepTicks | suspend =>
    simp only [System.step] at stepped
    obtain ⟨t, task, -, is, rfl⟩ := call_eq stepped
    exact .keeps rfl rfl (charged_write_same is rfl)
  | notify t value =>
    obtain ⟨task, is, rfl⟩ := Option.map_eq_some_iff.mp stepped
    exact .keeps rfl rfl (charged_write_same is rfl)
  | resume t =>
    obtain ⟨task, is, rfl⟩ := Option.map_eq_some_iff.mp stepped
    refine .keeps rfl rfl (charged_write_same is ?_)
    unfold Task.resume
    split_ifs <;> rfl
  | ticker =>
    simp only [System.step] at stepped
    split at stepped
    · cases stepped
    · obtain rfl := Option.some.inj stepped
      exact charging_ticker sys pticks

/-! ### Shares of a period -/

theorem share_toNat (profPticks total : UInt32) :
    (share profPticks total).toNat = total.toNat * 65535 / profPticks.toNat := by
  have bound := total.toNat_lt
  rw [share, UInt64.toNat_div, UInt64.toNat_mul, UInt32.toNat_toUInt64, UInt32.toNat_toUInt64]
  show total.toNat * 65535 % 2 ^ 64 / profPticks.toNat = _
  rw [Nat.mod_eq_of_lt (by omega)]

/-- A quotient and the sum of others, each one too small at most. -/
theorem add_le_add_one_mul {own others : Nat} {a b count period : Nat}
    (first : own ≤ a * period + period) (rest : others ≤ (b + count) * period) :
    own + others ≤ (a + b + (count + 1)) * period :=
  calc own + others ≤ a * period + period + (b + count) * period := Nat.add_le_add first rest
    _ = (a + 1 + (b + count)) * period := by
      rw [Nat.add_mul (a + 1), Nat.add_mul a 1, Nat.one_mul]
    _ = (a + b + (count + 1)) * period := by
      congr 1
      omega

/-- **The shares together are at most the share of all that is charged**, and less by at most one
for each task. -/
theorem shares_sum (sys : System) (profPticks : UInt32) (positive : 0 < profPticks.toNat) :
    ((sys.shares profPticks).map UInt64.toNat).sum ≤ sys.charged * 65535 / profPticks.toNat ∧
      sys.charged * 65535 ≤
        (((sys.shares profPticks).map UInt64.toNat).sum + sys.tasks.length) * profPticks.toNat := by
  unfold System.shares System.charged
  induction sys.tasks with
  | nil => exact ⟨Nat.zero_le _, Nat.zero_le _⟩
  | cons task rest ih =>
    obtain ⟨most, least⟩ := ih
    simp only [List.map_cons, List.sum_cons, List.length_cons, share_toNat]
    constructor
    · rw [Nat.add_mul]
      exact (Nat.add_le_add_left most _).trans Nat.div_add_div_le_add_div
    · rw [Nat.add_mul]
      exact add_le_add_one_mul (Nat.le_of_lt (Nat.lt_div_mul_add positive)) least

/-- **What is charged within the period has shares that add up.** -/
theorem addsUp_of_charged_le {profPticks : UInt32} (positive : 0 < profPticks.toNat)
    (within : sys.charged ≤ profPticks.toNat) : AddsUp (sys.shares profPticks) := by
  have all : sys.charged * 65535 / profPticks.toNat ≤ 65535 :=
    Nat.div_le_of_le_mul (Nat.mul_le_mul_right 65535 within)
  have sum := (shares_sum sys profPticks positive).1.trans all
  refine ⟨fun share member => ?_, sum⟩
  have bound : share.toNat ≤ 65535 :=
    (List.single_le_sum (fun _ _ => Nat.zero_le _) _ (List.mem_map_of_mem member)).trans sum
  refine ⟨UInt64.le_iff_toNat_le.mpr bound, ?_⟩
  rw [← UInt64.toNat_inj, UInt16.toNat_toUInt64, UInt64.toNat_toUInt16]
  exact Nat.mod_eq_of_lt (Nat.lt_succ_of_le bound)

/-! ### What each step keeps -/

/-- The profiling ticks between two times. -/
theorem elapsed_toNat {before after : Nat} (le : before ≤ after) :
    (UInt32.ofNat after - UInt32.ofNat before).toNat = (after - before) % 2 ^ 32 := by
  rw [UInt32.toNat_sub, UInt32.toNat_ofNat', UInt32.toNat_ofNat']
  omega

/-- **What is charged are the runs that have ended in the period**: the time in it and the overhang;
less, if the counter of a task has wrapped. -/
structure Accounted (s : Timed) : Prop where
  last_le : s.last ≤ s.now
  began_le : s.began ≤ s.now
  setup : s.sys.thread = .setup → s.covered = 0
  period : s.sys.thread ≠ .setup → s.sys.pticksLast = UInt32.ofNat s.last
  run : ∀ start, s.sys.thread = .exec start →
    start = UInt32.ofNat s.began ∧ s.covered ≤ s.began - s.last
  covered_le : s.covered ≤ s.now - s.last
  charged_le : s.sys.charged ≤ s.overhang + s.covered
  charged_eq : s.overhang + s.covered < 2 ^ 32 → s.sys.charged = s.overhang + s.covered

variable {s : Timed}

theorem accounted_init (ticks pticksLast : UInt32) (now : Nat) :
    Accounted (Timed.init ticks pticksLast now) where
  last_le := Nat.le_refl now
  began_le := Nat.le_refl now
  setup := fun _ => rfl
  period := fun started => absurd rfl started
  run := fun _ running => by cases running
  covered_le := Nat.zero_le _
  charged_le := Nat.zero_le _
  charged_eq := fun _ => rfl

theorem Accounted.elapse (accounted : Accounted s) (pticks : Nat) :
    Accounted { s with now := s.now + pticks } :=
  { accounted with
    last_le := Nat.le_add_right_of_le accounted.last_le
    began_le := Nat.le_add_right_of_le accounted.began_le
    covered_le := accounted.covered_le.trans (Nat.sub_le_sub_right (Nat.le_add_right _ _) _) }

/-- The end of a run charges its task with all of it. -/
theorem Accounted.ends (accounted : Accounted s) {start : UInt32}
    (was : s.sys.thread = .exec start) (thread : next.thread = .scan 0)
    (last : next.pticksLast = s.sys.pticksLast) (is : s.sys.tasks[t]? = some task)
    (charged : next.charged + task.execPtickTotal.toNat =
      s.sys.charged + (task.execPtickTotal + (s.pticks - start)).toNat) :
    Accounted { s with
      sys := next
      covered := s.covered + (s.now - max s.began s.last)
      overhang := s.overhang + (s.last - s.began) } := by
  obtain ⟨rfl, ran⟩ := accounted.run start was
  have elapsed : (s.pticks - UInt32.ofNat s.began).toNat = (s.now - s.began) % 2 ^ 32 :=
    elapsed_toNat accounted.began_le
  have own : task.execPtickTotal.toNat ≤ s.sys.charged := by
    have cleared := charged_write is task.restart
    exact Nat.le_of_add_left_le (Nat.le_of_eq cleared)
  have lastLe := accounted.last_le
  have beganLe := accounted.began_le
  have chargedLe := accounted.charged_le
  have chargedEq := accounted.charged_eq
  rw [UInt32.toNat_add, elapsed] at charged
  have time : s.now - max s.began s.last + (s.last - s.began) = s.now - s.began := by omega
  exact {
    last_le := lastLe
    began_le := beganLe
    setup := fun setting => by rw [thread] at setting; cases setting
    period := fun _ => last.trans (accounted.period (by rw [was]; nofun))
    run := fun start running => by rw [thread] at running; cases running
    covered_le := by
      show s.covered + (s.now - max s.began s.last) ≤ s.now - s.last
      omega
    charged_le := by
      show next.charged ≤ s.overhang + (s.last - s.began) +
        (s.covered + (s.now - max s.began s.last))
      omega
    charged_eq := by
      intro small
      show next.charged = s.overhang + (s.last - s.began) +
        (s.covered + (s.now - max s.began s.last))
      replace small : s.overhang + (s.last - s.began) +
        (s.covered + (s.now - max s.began s.last)) < 2 ^ 32 := small
      have before := chargedEq (by omega)
      omega }

/-- A step that charges nothing, and may begin a run. -/
theorem Accounted.quiet (accounted : Accounted s) {began : Nat} (beganLe : began ≤ s.now)
    (last : next.pticksLast = s.sys.pticksLast) (charged : next.charged = s.sys.charged)
    (setup : next.thread = .setup ↔ s.sys.thread = .setup)
    (run : ∀ start, next.thread = .exec start →
      start = UInt32.ofNat began ∧ s.covered ≤ began - s.last) :
    Accounted { s with sys := next, began := began } :=
  { accounted with
    began_le := beganLe
    setup := fun setting => accounted.setup (setup.mp setting)
    period := fun started =>
      last.trans (accounted.period fun setting => started (setup.mpr setting))
    run := run
    charged_le := charged.trans_le accounted.charged_le
    charged_eq := fun small => charged.trans (accounted.charged_eq small) }

theorem Accounted.observe (accounted : Accounted s) (charging : Charging s.pticks s.sys next) :
    Accounted (s.observe next) := by
  cases charging with
  | starts was thread last charged =>
    have after : s.observe next = { s with sys := next, last := s.now } := by
      simp only [Timed.observe, was, thread]
    have nothing := accounted.setup was
    rw [after]
    exact {
      accounted with
      last_le := Nat.le_refl _
      setup := fun _ => nothing
      period := fun _ => last
      run := fun start running => by cases thread.symm.trans running
      covered_le := nothing.trans_le (Nat.zero_le _)
      charged_le := charged.trans_le accounted.charged_le
      charged_eq := fun small => charged.trans (accounted.charged_eq small) }
  | begins was thread last charged =>
    have after : s.observe next = { s with sys := next, began := s.now } := by
      simp only [Timed.observe, was, thread]
    rw [after]
    refine accounted.quiet (Nat.le_refl _) last charged ?_ fun start running => ?_
    · rw [was, thread]
      simp only [reduceCtorEq]
    · cases thread.symm.trans running
      exact ⟨rfl, accounted.covered_le⟩
  | ends was thread last is charged =>
    have after : s.observe next = { s with
        sys := next
        covered := s.covered + (s.now - max s.began s.last)
        overhang := s.overhang + (s.last - s.began) } := by
      simp only [Timed.observe, was, thread]
    rw [after]
    exact accounted.ends was thread last is charged
  | scans was thread last charged =>
    have after : s.observe next = { s with sys := next } := by
      simp only [Timed.observe, was, thread]
    rw [after]
    refine accounted.quiet accounted.began_le last charged ?_ fun start running => ?_
    · rw [was, thread]
      simp only [reduceCtorEq]
    · cases thread.symm.trans running
  | keeps thread last charged =>
    have after : s.observe next = { s with sys := next } := by
      unfold Timed.observe
      rw [thread]
      cases s.sys.thread <;> rfl
    rw [after]
    refine accounted.quiet accounted.began_le last charged ?_ fun start running => ?_
    · rw [thread]
    · exact accounted.run start (thread.symm.trans running)

/-- The function of a task runs in no setup. -/
theorem runs_thread (runs : sys.runs = some (t, task)) : ∃ start, sys.thread = .exec start := by
  unfold System.runs at runs
  split at runs
  · next start thread _ => exact ⟨start, thread⟩
  · cases runs

/-- A new period has nothing charged. -/
theorem charged_restart (tasks : List Task) :
    ((tasks.map Task.restart).map fun task => task.execPtickTotal.toNat).sum = 0 := by
  rw [List.map_map]
  exact List.sum_eq_zero fun _ member => by
    obtain ⟨_, -, rfl⟩ := List.mem_map.mp member
    rfl

/-- The profiler begins a period, unless no time has passed. -/
theorem Accounted.taskProfiler (accounted : Accounted s) (rateHz : UInt32)
    (runs : s.sys.runs = some (t, task)) : Accounted (s.taskProfiler rateHz) := by
  unfold Timed.taskProfiler
  dsimp only
  split
  · exact accounted
  · obtain ⟨start, thread⟩ := runs_thread runs
    have nothing := charged_restart s.sys.tasks
    exact {
      last_le := Nat.le_refl _
      began_le := accounted.began_le
      setup := fun _ => rfl
      period := fun _ => rfl
      run := fun start running => ⟨(accounted.run start running).1, Nat.zero_le _⟩
      covered_le := Nat.zero_le _
      charged_le := Nat.le_of_eq nothing
      charged_eq := fun _ => nothing }

/-- **What each step keeps.** -/
theorem Accounted.step {rateHz : UInt32} {event : Event} {after : Timed}
    (accounted : Accounted s) (stepped : s.step rateHz event = some after) : Accounted after := by
  cases event with
  | elapse pticks =>
    obtain rfl := Option.some.inj stepped
    exact accounted.elapse pticks
  | scheduler step =>
    obtain ⟨reads, taken⟩ := Option.ite_none_right_eq_some.mp stepped
    obtain ⟨next, moved, rfl⟩ := Option.map_eq_some_iff.mp taken
    exact accounted.observe (step_charging reads moved)
  | isrEnter isr =>
    obtain ⟨_, -, rfl⟩ := Option.map_eq_some_iff.mp stepped
    exact { accounted with }
  | isrExit isr =>
    obtain ⟨_, -, rfl⟩ := Option.map_eq_some_iff.mp stepped
    exact { accounted with }
  | profiler =>
    obtain ⟨⟨t, task⟩, runs, rfl⟩ := Option.map_eq_some_iff.mp stepped
    exact accounted.taskProfiler rateHz runs

/-! ### The reports -/

/-- The period of a call of the profiler, as it is computed. -/
theorem Accounted.profPticks_toNat (accounted : Accounted s) (runs : s.sys.runs = some (t, task))
    (short : s.now - s.last < 2 ^ 32) :
    (s.pticks - s.sys.pticksLast).toNat = s.now - s.last := by
  obtain ⟨start, thread⟩ := runs_thread runs
  rw [accounted.period (by rw [thread]; nofun), Timed.pticks, elapsed_toNat accounted.last_le]
  exact Nat.mod_eq_of_lt short

/-- **A report of a period that the overhang fits into adds up.** -/
theorem Accounted.addUp_taskProfiler (accounted : Accounted s) (addUp : s.AddUp) (rateHz : UInt32)
    (runs : s.sys.runs = some (t, task)) (short : Short s .profiler) (fits : Fits s .profiler) :
    (s.taskProfiler rateHz).AddUp := by
  have period := accounted.profPticks_toNat runs short
  unfold Timed.taskProfiler
  dsimp only
  split
  · exact addUp
  · next passed =>
    intro shares member
    rcases List.mem_append.mp member with earlier | now
    · exact addUp shares earlier
    · obtain rfl := List.mem_singleton.mp now
      have positive : 0 < (s.pticks - s.sys.pticksLast).toNat :=
        Nat.pos_of_ne_zero fun zero => passed (UInt32.toNat_inj.mp zero)
      have chargedLe := accounted.charged_le
      have coveredLe := accounted.covered_le
      have room := fits rfl
      refine addsUp_of_charged_le positive ?_
      rw [period]
      omega

theorem Timed.AddUp.step {rateHz : UInt32} {event : Event} {after : Timed} (addUp : s.AddUp)
    (accounted : Accounted s) (short : Short s event) (fits : Fits s event)
    (stepped : s.step rateHz event = some after) : after.AddUp := by
  cases event with
  | elapse pticks =>
    obtain rfl := Option.some.inj stepped
    exact addUp
  | scheduler step =>
    obtain ⟨-, taken⟩ := Option.ite_none_right_eq_some.mp stepped
    obtain ⟨next, -, rfl⟩ := Option.map_eq_some_iff.mp taken
    unfold Timed.observe
    split <;> exact addUp
  | isrEnter isr | isrExit isr =>
    obtain ⟨_, -, rfl⟩ := Option.map_eq_some_iff.mp stepped
    exact addUp
  | profiler =>
    obtain ⟨⟨t, task⟩, runs, rfl⟩ := Option.map_eq_some_iff.mp stepped
    exact accounted.addUp_taskProfiler addUp rateHz runs short fits

/-- **The shares add up at every call of the profiler, in every run in which at each call the
overhang fits into the period.** -/
theorem addsUp_throughout (ticks pticksLast rateHz : UInt32) (now : Nat) (events : List Event)
    (short : Meets (Timed.step rateHz) Short (Timed.init ticks pticksLast now) events)
    (fits : Meets (Timed.step rateHz) Fits (Timed.init ticks pticksLast now) events) :
    Throughout (Timed.step rateHz) Timed.AddUp (Timed.init ticks pticksLast now) events := by
  intro before after split reached run
  have sound := LabelledSystem.throughout_of_meets (fun s => Accounted s ∧ s.AddUp)
    (fun s event next sound allowed stepped =>
      ⟨sound.1.step stepped, sound.2.step sound.1 allowed.1 allowed.2 stepped⟩)
    ⟨accounted_init ticks pticksLast now, nofun⟩ (short.and fits) before after split reached run
  exact sound.2

/-- **Where the overhang is longer than the rest of the period** by more than the rounding of the
shares, they do not add up. -/
theorem Accounted.not_addsUp_of_exceeds (accounted : Accounted s)
    (runs : s.sys.runs = some (t, task)) (short : Short s .profiler) (passed : s.last < s.now)
    (counted : s.overhang + s.covered < 2 ^ 32)
    (exceeds : (65535 + s.sys.tasks.length) * (s.now - s.last) <
      (s.overhang + s.covered) * 65535) :
    ¬ AddsUp (s.sys.shares (s.pticks - s.sys.pticksLast)) := by
  intro addsUp
  have period := accounted.profPticks_toNat runs short
  have all := accounted.charged_eq counted
  obtain ⟨-, least⟩ := shares_sum s.sys (s.pticks - s.sys.pticksLast) (by rw [period]; omega)
  rw [period, all] at least
  have most := Nat.mul_le_mul_right (s.now - s.last)
    (Nat.add_le_add_right addsUp.sum s.sys.tasks.length)
  exact absurd (exceeds.trans_le (least.trans most)) (Nat.lt_irrefl _)

/-! ### Periods that begin in the middle of a run -/

/-- A task calls the profiler ten ticks into its run of a hundred, and five ticks into the next. -/
def earlyRun : List Event :=
  [.scheduler (.create 0), .scheduler (.start 0), .scheduler (.scan 0), .elapse 10, .profiler,
    .elapse 90, .scheduler (.returns 100), .scheduler (.scan 100), .elapse 5, .profiler]

/-- The same with fifty idle ticks between the two runs. -/
def idleRun : List Event :=
  [.scheduler (.create 0), .scheduler (.start 0), .scheduler (.scan 0), .elapse 10, .profiler,
    .elapse 90, .scheduler (.returns 100), .elapse 50, .scheduler (.scan 150), .elapse 10,
    .profiler]

/-- In the idle run the second report is of 100 ticks of 150. -/
theorem addsUp_throughout_idle :
    Throughout (Timed.step 84000000) Timed.AddUp (Timed.init 0 0 0) idleRun ∧
      (exec (Timed.step 84000000) (Timed.init 0 0 0) idleRun).map Timed.reports =
        some [[0], [43690]] :=
  ⟨addsUp_throughout 0 0 84000000 0 idleRun (by decide) (by decide), by decide⟩

/-- **A task has a share of 105 percent**: 100 ticks are charged to a period of 95, and what is
stored is the share modulo 2^16. -/
theorem not_always_addsUp :
    (¬ ∀ (ticks pticksLast rateHz : UInt32) (now : Nat) (events : List Event),
      Meets (Timed.step rateHz) Short (Timed.init ticks pticksLast now) events →
        Throughout (Timed.step rateHz) Timed.AddUp (Timed.init ticks pticksLast now) events) ∧
    (exec (Timed.step 84000000) (Timed.init 0 0 0) earlyRun).map
      (fun s => (s.reports, s.profiles)) = some ([[0], [68984]], [⟨1, 3448⟩]) := by
  have reported : (exec (Timed.step 84000000) (Timed.init 0 0 0) earlyRun).map
      (fun s => (s.reports, s.profiles)) = some ([[0], [68984]], [⟨1, 3448⟩]) := by
    decide
  refine ⟨fun always => ?_, reported⟩
  obtain ⟨s, run, same⟩ := Option.map_eq_some_iff.mp reported
  obtain ⟨reports, -⟩ := Prod.mk.inj same
  have addUp := always 0 0 84000000 0 earlyRun (by decide) earlyRun []
    (List.append_nil _).symm s run [68984] (by rw [reports]; decide)
  exact absurd addUp.sum (by decide)

end ForgeDrive.Cortos
