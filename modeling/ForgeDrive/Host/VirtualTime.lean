/-
**The virtual time of the simulated platform** (`platform/host/platform.cpp`).

`tick` cuts the elapsed time into steps of the smallest period and drops what is left; a timer runs
at the first step at which its period has passed since it last ran.

* `VTimer.OnPace` — how a timer stands after `n` steps: it waits for its first run, or it has run at
  every `c`-th step since, where `c` is its period in steps, rounded up;
* `Platform.iterate_paced` — every timer is on pace after any number of steps;
* `VTimer.OnPace.near` — so its runs are the rounded periods begun so far, or one less;
* `ticks_track` — after any elapsed times, virtual time is behind by the remainders dropped, and a
  timer is in rate as long as the rounding has not cost it a period.
-/

import Mathlib.Algebra.Order.Floor.Div
import Mathlib.Algebra.Order.Field.Basic
import Mathlib.Data.Rat.Defs
import Mathlib.Algebra.Order.Ring.Rat
import Mathlib.Algebra.BigOperators.Group.List.Basic
import Mathlib.Tactic.Linarith
import Mathlib.Tactic.Ring

namespace ForgeDrive.Host

/-! ### The platform -/

/-- `vtimer_t`. Of the callback: whether there is one, and how often it has run. -/
structure VTimer where
  periodicTimeNs : UInt64
  lastTimeNs : UInt64
  cb : Bool
  calls : Nat

/-- `vtimer_manager_t`, with the timers in use. -/
structure VTimerManager where
  timers : List VTimer
  minTimestepNs : Int64

/-- `HOST_TIMERS`. -/
def hostTimers : Nat := 30

/-- The timers, and `sim`. -/
structure Platform where
  timerManager : VTimerManager
  timeNs : UInt64

/-- The manager that `platform_init` leaves. -/
def VTimerManager.init : VTimerManager := ⟨[], 1000000⟩

/-- `register_timer`, where the clock of the host reads `nowNs`. -/
def VTimerManager.registerTimer (mgr : VTimerManager) (nowNs : UInt64) (cb : Bool)
    (timestepNs : UInt64) : VTimerManager × Nat :=
  if mgr.timers.length ≥ hostTimers then
    (mgr, 0)
  else
    ({ timers := mgr.timers ++ [⟨timestepNs, nowNs, cb, 0⟩]
       minTimestepNs :=
         if timestepNs < mgr.minTimestepNs.toUInt64 then timestepNs.toInt64
         else mgr.minTimestepNs },
      mgr.timers.length)

/-- The arguments of a call of `register_timer`, with the reading of the clock. -/
structure Registration where
  nowNs : UInt64
  cb : Bool
  timestepNs : UInt64

/-- The timers are registered before virtual time starts. -/
def Platform.setup (registrations : List Registration) : Platform where
  timerManager := registrations.foldl
    (fun mgr call => (mgr.registerTimer call.nowNs call.cb call.timestepNs).1) VTimerManager.init
  timeNs := 0

/-- `dt_ns` in `tick`. -/
def Platform.dtNs (platform : Platform) : UInt64 :=
  platform.timerManager.minTimestepNs.toUInt64

/-- What a step does with one timer, at the virtual time `timeNs`. -/
def VTimer.check (timeNs : UInt64) (timer : VTimer) : VTimer :=
  if timer.cb then
    if timer.periodicTimeNs ≤ timeNs - timer.lastTimeNs then
      { timer with lastTimeNs := timeNs, calls := timer.calls + 1 }
    else timer
  else timer

/-- A pass through the loop of `tick`. -/
def Platform.step (dtNs : UInt64) (platform : Platform) : Platform where
  timerManager :=
    { platform.timerManager with
      timers := platform.timerManager.timers.map (VTimer.check (platform.timeNs + dtNs)) }
  timeNs := platform.timeNs + dtNs

/-- `tick`. -/
def Platform.tick (platform : Platform) (elapsedNs : UInt64) : Platform :=
  (Platform.step platform.dtNs)^[(elapsedNs / platform.dtNs).toNat] platform

/-- A sequence of calls of `tick`. -/
def Platform.ticks (platform : Platform) (elapsed : List UInt64) : Platform :=
  elapsed.foldl Platform.tick platform

/-- The elapsed times together. -/
def totalNs (elapsed : List UInt64) : Nat := (elapsed.map UInt64.toNat).sum

/-- What the calls of `tick` drop, with steps of `dtNs`. -/
def droppedNs (dtNs : UInt64) (elapsed : List UInt64) : Nat :=
  (elapsed.map fun elapsedNs => elapsedNs.toNat % dtNs.toNat).sum

/-- The steps that the calls of `tick` make, with steps of `dtNs`. -/
def stepCount (dtNs : UInt64) (elapsed : List UInt64) : Nat :=
  (elapsed.map fun elapsedNs => elapsedNs.toNat / dtNs.toNat).sum

/-! ### One timer -/

variable {timer : VTimer} {dt n : Nat} {timeNs : UInt64}

@[simp] theorem VTimer.check_periodicTimeNs :
    (timer.check timeNs).periodicTimeNs = timer.periodicTimeNs := by
  unfold VTimer.check
  split_ifs <;> rfl

@[simp] theorem VTimer.check_cb : (timer.check timeNs).cb = timer.cb := by
  unfold VTimer.check
  split_ifs <;> rfl

theorem VTimer.check_due (active : timer.cb = true)
    (due : timer.periodicTimeNs ≤ timeNs - timer.lastTimeNs) :
    timer.check timeNs = { timer with lastTimeNs := timeNs, calls := timer.calls + 1 } := by
  rw [VTimer.check, if_pos active, if_pos due]

theorem VTimer.check_early (early : ¬ timer.periodicTimeNs ≤ timeNs - timer.lastTimeNs) :
    timer.check timeNs = timer := by
  rw [VTimer.check, if_neg early, ite_self]

/-- The period, in steps of `dt`, rounded up. -/
def VTimer.periodSteps (dt : Nat) (timer : VTimer) : Nat := timer.periodicTimeNs.toNat ⌈/⌉ dt

theorem VTimer.periodSteps_le (positive : 0 < dt) {steps : Nat} :
    timer.periodSteps dt ≤ steps ↔ timer.periodicTimeNs.toNat ≤ dt * steps :=
  ceilDiv_le_iff_le_mul positive

theorem VTimer.le_periodSteps (positive : 0 < dt) :
    timer.periodicTimeNs.toNat ≤ dt * timer.periodSteps dt :=
  (VTimer.periodSteps_le positive).mp le_rfl

theorem VTimer.periodSteps_pos (positive : 0 < dt) (nonzero : 0 < timer.periodicTimeNs.toNat) :
    0 < timer.periodSteps dt := by
  have bound := timer.le_periodSteps positive
  exact Nat.pos_of_mul_pos_left (nonzero.trans_le bound)

/-- **How a timer stands after `n` steps**, at the virtual time `timeNs`. Until its first run it has
waited less than its period, unless that is longer than half of the range of the time. From then on
`last` is the step of its last run, less than a period ago, and the runs `called + 1` so far came a
period apart, the first after a period and a step at most. -/
inductive VTimer.OnPace (dt n : Nat) (timeNs : UInt64) (timer : VTimer) : Prop
  | waiting (uncalled : timer.calls = 0)
      (soon : n = 0 ∨ 2 ^ 63 ≤ timer.periodicTimeNs.toNat ∨
        ((timeNs - timer.lastTimeNs).toNat < timer.periodicTimeNs.toNat ∧
          n * dt ≤ (timeNs - timer.lastTimeNs).toNat + dt))
  | running (called last : Nat) (calls : timer.calls = called + 1)
      (lastTime : timer.lastTimeNs.toNat = last * dt) (past : last ≤ n)
      (recent : n < last + timer.periodSteps dt) (fast : called * timer.periodSteps dt < last)
      (slow : last ≤ (called + 1) * timer.periodSteps dt + 1 ∨
        2 ^ 63 ≤ timer.periodicTimeNs.toNat)

/-- A timer that waits has not waited more than a period. -/
theorem VTimer.waiting_le (positive : 0 < dt)
    (soon : n = 0 ∨ 2 ^ 63 ≤ timer.periodicTimeNs.toNat ∨
      ((timeNs - timer.lastTimeNs).toNat < timer.periodicTimeNs.toNat ∧
        n * dt ≤ (timeNs - timer.lastTimeNs).toNat + dt)) :
    n ≤ timer.periodSteps dt ∨ 2 ^ 63 ≤ timer.periodicTimeNs.toNat := by
  have covered := timer.le_periodSteps positive
  rcases soon with rfl | huge | ⟨early, close⟩
  · exact .inl (Nat.zero_le _)
  · exact .inr huge
  · have behind : dt * n < dt * (timer.periodSteps dt + 1) := by
      rw [mul_add, mul_one, mul_comm dt n]
      omega
    exact .inl (Nat.lt_succ_iff.mp (Nat.lt_of_mul_lt_mul_left behind))

/-- **A step keeps a timer on pace.** -/
theorem VTimer.OnPace.check {next : UInt64} (paced : timer.OnPace dt n timeNs)
    (active : timer.cb = true) (positive : 0 < dt) (fine : dt ≤ timer.periodicTimeNs.toNat)
    (time : timeNs.toNat = n * dt) (nextTime : next.toNat = (n + 1) * dt) :
    (timer.check next).OnPace dt (n + 1) next := by
  have nonzero : 0 < timer.periodicTimeNs.toNat := positive.trans_le fine
  have some := timer.periodSteps_pos positive nonzero
  have one : (n + 1) * dt = n * dt + dt := Nat.succ_mul n dt
  have nextFits := next.toNat_lt
  cases paced with
  | waiting uncalled soon =>
    have within := timer.waiting_le positive soon
    by_cases due : timer.periodicTimeNs ≤ next - timer.lastTimeNs
    · rw [VTimer.check_due active due]
      refine .running 0 (n + 1) (congrArg (· + 1) uncalled) nextTime le_rfl
        (Nat.lt_add_of_pos_right some) (by omega) (within.imp_left fun short => ?_)
      show n + 1 ≤ (0 + 1) * timer.periodSteps dt + 1
      omega
    · rw [VTimer.check_early due]
      refine .waiting uncalled (.inr ?_)
      -- the wait grows by a step, unless the clock of the host was ahead and it starts only now
      have wait : (next - timer.lastTimeNs).toNat < timer.periodicTimeNs.toNat := by
        rwa [UInt64.le_iff_toNat_le, not_le] at due
      by_cases huge : 2 ^ 63 ≤ timer.periodicTimeNs.toNat
      · exact .inl huge
      · refine .inr ⟨wait, ?_⟩
        rw [UInt64.toNat_sub] at wait soon ⊢
        rcases soon with rfl | soon | ⟨early, close⟩ <;> omega
  | running called last calls lastTime past recent fast slow =>
    have order : last * dt ≤ (n + 1) * dt := Nat.mul_le_mul_right dt (by omega)
    have since : (next - timer.lastTimeNs).toNat = dt * (n + 1 - last) := by
      rw [UInt64.toNat_sub_of_le _ _ (by rwa [UInt64.le_iff_toNat_le, lastTime, nextTime]),
        nextTime, lastTime, ← Nat.sub_mul, mul_comm]
    have due_iff : timer.periodicTimeNs ≤ next - timer.lastTimeNs ↔
        timer.periodSteps dt ≤ n + 1 - last := by
      rw [UInt64.le_iff_toNat_le, since, VTimer.periodSteps_le positive]
    by_cases due : timer.periodicTimeNs ≤ next - timer.lastTimeNs
    · rw [VTimer.check_due active due]
      have apart := due_iff.mp due
      refine .running (called + 1) (n + 1) (congrArg (· + 1) calls) nextTime le_rfl
        (Nat.lt_add_of_pos_right some) ?_ (slow.imp_left fun short => ?_)
      · show (called + 1) * timer.periodSteps dt < n + 1
        rw [Nat.succ_mul]
        omega
      · show n + 1 ≤ (called + 1 + 1) * timer.periodSteps dt + 1
        rw [Nat.succ_mul (called + 1)]
        omega
    · rw [VTimer.check_early due]
      rw [due_iff] at due
      exact .running called last calls lastTime (by omega) (by omega) fast slow

/-- **The runs of a timer on pace** are the periods begun in the steps so far, in whole steps, or one
less; for a period that is half of the range of the time no less are promised. -/
theorem VTimer.OnPace.near (paced : timer.OnPace dt n timeNs) (positive : 0 < dt)
    (nonzero : 0 < timer.periodicTimeNs.toNat) :
    timer.calls ≤ n ⌈/⌉ timer.periodSteps dt ∧
      (n ⌈/⌉ timer.periodSteps dt ≤ timer.calls + 1 ∨ 2 ^ 63 ≤ timer.periodicTimeNs.toNat) := by
  have some := timer.periodSteps_pos positive nonzero
  have begun : n ≤ timer.periodSteps dt * (n ⌈/⌉ timer.periodSteps dt) :=
    (ceilDiv_le_iff_le_mul some).mp le_rfl
  rw [ceilDiv_le_iff_le_mul some]
  cases paced with
  | waiting uncalled soon =>
    rw [uncalled, Nat.zero_add, Nat.mul_one]
    exact ⟨Nat.zero_le _, timer.waiting_le positive soon⟩
  | running called last calls lastTime past recent fast slow =>
    rw [calls]
    constructor
    · have less : timer.periodSteps dt * called <
          timer.periodSteps dt * (n ⌈/⌉ timer.periodSteps dt) := by
        rw [mul_comm _ called]
        exact fast.trans_le (past.trans begun)
      exact Nat.lt_of_mul_lt_mul_left less
    · refine slow.imp_left fun short => ?_
      rw [mul_comm, Nat.succ_mul (called + 1)]
      omega

/-! ### Any number of steps -/

variable {platform : Platform} {dtNs : UInt64}

/-- How the platform stands after `n` steps: no timer is finer than a step, and those with a
callback are on pace. -/
structure Platform.Paced (dtNs : UInt64) (n : Nat) (platform : Platform) : Prop where
  time : platform.timeNs.toNat = n * dtNs.toNat
  fine : ∀ timer ∈ platform.timerManager.timers, dtNs.toNat ≤ timer.periodicTimeNs.toNat
  timers : ∀ timer ∈ platform.timerManager.timers, timer.cb = true →
    timer.OnPace dtNs.toNat n platform.timeNs

theorem Platform.step_paced (paced : platform.Paced dtNs n) (positive : 0 < dtNs.toNat)
    (fits : (n + 1) * dtNs.toNat < 2 ^ 64) : (platform.step dtNs).Paced dtNs (n + 1) := by
  have nextTime : (platform.timeNs + dtNs).toNat = (n + 1) * dtNs.toNat := by
    rw [UInt64.toNat_add, paced.time, ← Nat.succ_mul, Nat.mod_eq_of_lt fits]
  refine ⟨nextTime, ?_, ?_⟩
  · intro after member
    obtain ⟨timer, before, rfl⟩ := List.mem_map.mp member
    rw [VTimer.check_periodicTimeNs]
    exact paced.fine timer before
  · intro after member active
    obtain ⟨timer, before, rfl⟩ := List.mem_map.mp member
    rw [VTimer.check_cb] at active
    exact (paced.timers timer before active).check active positive (paced.fine timer before)
      paced.time nextTime

/-- **After any number of steps every timer is on pace.** -/
theorem Platform.iterate_paced (start : platform.Paced dtNs 0) (positive : 0 < dtNs.toNat)
    (fits : n * dtNs.toNat < 2 ^ 64) : ((Platform.step dtNs)^[n] platform).Paced dtNs n := by
  induction n with
  | zero => exact start
  | succ n ih =>
    rw [Function.iterate_succ_apply']
    have before := ih (lt_of_le_of_lt (Nat.mul_le_mul_right _ n.le_succ) fits)
    exact Platform.step_paced before positive fits

/-- The steps keep the size of a step. -/
theorem Platform.iterate_dtNs : ((Platform.step dtNs)^[n] platform).dtNs = platform.dtNs := by
  induction n with
  | zero => rfl
  | succ n ih =>
    rw [Function.iterate_succ_apply']
    exact ih

/-- The calls of `tick` are steps. -/
theorem Platform.ticks_eq (elapsed : List UInt64) (size : platform.dtNs = dtNs) :
    platform.ticks elapsed = (Platform.step dtNs)^[stepCount dtNs elapsed] platform := by
  induction elapsed generalizing platform with
  | nil => rfl
  | cons elapsedNs rest ih =>
    have next : (platform.tick elapsedNs).dtNs = dtNs := Platform.iterate_dtNs.trans size
    rw [Platform.ticks, List.foldl_cons, ← Platform.ticks, ih next, Platform.tick, size,
      ← Function.iterate_add_apply, stepCount, stepCount, List.map_cons, List.sum_cons, add_comm,
      UInt64.toNat_div]

/-- The elapsed times are the steps and what is dropped. -/
theorem totalNs_eq (dtNs : UInt64) (elapsed : List UInt64) :
    totalNs elapsed = stepCount dtNs elapsed * dtNs.toNat + droppedNs dtNs elapsed := by
  induction elapsed with
  | nil => simp [totalNs, stepCount, droppedNs]
  | cons elapsedNs rest ih =>
    have split := Nat.div_add_mod' elapsedNs.toNat dtNs.toNat
    simp only [totalNs, stepCount, droppedNs, List.map_cons, List.sum_cons] at ih ⊢
    rw [ih, add_mul]
    omega

/-! ### The registered timers -/

/-- What registering timers keeps: no timer has run, and none is finer than a step. -/
structure VTimerManager.Ready (mgr : VTimerManager) : Prop where
  positive : 0 < mgr.minTimestepNs.toUInt64.toNat
  fine : ∀ timer ∈ mgr.timers, mgr.minTimestepNs.toUInt64.toNat ≤ timer.periodicTimeNs.toNat
  uncalled : ∀ timer ∈ mgr.timers, timer.calls = 0

theorem VTimerManager.init_ready : VTimerManager.init.Ready :=
  ⟨by decide, List.forall_mem_nil _, List.forall_mem_nil _⟩

theorem VTimerManager.registerTimer_ready {mgr : VTimerManager} (ready : mgr.Ready)
    (nowNs : UInt64) (cb : Bool) {timestepNs : UInt64} (nonzero : 1 ≤ timestepNs.toNat) :
    (mgr.registerTimer nowNs cb timestepNs).1.Ready := by
  rw [VTimerManager.registerTimer]
  split_ifs with full lower
  · exact ready
  · rw [UInt64.lt_iff_toNat_lt] at lower
    rw [← UInt64.toUInt64_toInt64 timestepNs] at nonzero
    refine ⟨nonzero, ?_, List.forall_mem_append.mpr
      ⟨ready.uncalled, List.forall_mem_singleton.mpr rfl⟩⟩
    rw [UInt64.toUInt64_toInt64]
    exact List.forall_mem_append.mpr
      ⟨fun timer old => lower.le.trans (ready.fine timer old), List.forall_mem_singleton.mpr le_rfl⟩
  · rw [UInt64.lt_iff_toNat_lt, not_lt] at lower
    exact ⟨ready.positive,
      List.forall_mem_append.mpr ⟨ready.fine, List.forall_mem_singleton.mpr lower⟩,
      List.forall_mem_append.mpr ⟨ready.uncalled, List.forall_mem_singleton.mpr rfl⟩⟩

theorem Platform.setup_ready (registrations : List Registration)
    (nonzero : ∀ call ∈ registrations, 1 ≤ call.timestepNs.toNat) :
    (Platform.setup registrations).timerManager.Ready :=
  List.foldlRecOn registrations _ VTimerManager.init_ready fun _ ready call member =>
    VTimerManager.registerTimer_ready ready call.nowNs call.cb (nonzero call member)

/-- What the registered timers are after calls of `tick`: on pace. -/
theorem Platform.ticks_paced {registrations : List Registration} {elapsed : List UInt64}
    (nonzero : ∀ call ∈ registrations, 1 ≤ call.timestepNs.toNat)
    (size : (Platform.setup registrations).dtNs = dtNs) (fits : totalNs elapsed < 2 ^ 64) :
    ((Platform.setup registrations).ticks elapsed).Paced dtNs (stepCount dtNs elapsed) := by
  have ready := Platform.setup_ready registrations nonzero
  have start : (Platform.setup registrations).Paced dtNs 0 := by
    refine ⟨(Nat.zero_mul _).symm, size ▸ ready.fine, fun timer member _ => ?_⟩
    exact .waiting (ready.uncalled timer member) (.inl rfl)
  rw [Platform.ticks_eq elapsed size]
  refine Platform.iterate_paced start (size ▸ ready.positive) ?_
  have := totalNs_eq dtNs elapsed
  omega

/-! ### Virtual time and the runs of the timers -/

/-- Virtual time is less than a step away from the elapsed times. -/
def Platform.OnTime (platform : Platform) (elapsed : List UInt64) : Prop :=
  |(totalNs elapsed : ℤ) - platform.timeNs.toNat| < platform.dtNs.toNat

/-- The runs of the timer are within two of virtual time divided by its period. -/
def VTimer.InRate (timeNs : UInt64) (timer : VTimer) : Prop :=
  |(timer.calls : ℚ) - timeNs.toNat / timer.periodicTimeNs.toNat| < 2

theorem VTimer.inRate_iff (nonzero : 0 < timer.periodicTimeNs.toNat) :
    timer.InRate timeNs ↔
      timer.calls * timer.periodicTimeNs.toNat < timeNs.toNat + 2 * timer.periodicTimeNs.toNat ∧
      timeNs.toNat < (timer.calls + 2) * timer.periodicTimeNs.toNat := by
  have period : (0 : ℚ) < timer.periodicTimeNs.toNat := by exact_mod_cast nonzero
  rw [VTimer.InRate, abs_sub_lt_iff, sub_lt_iff_lt_add', sub_lt_iff_lt_add', div_lt_iff₀ period,
    ← sub_lt_iff_lt_add, lt_div_iff₀ period, sub_mul, sub_lt_iff_lt_add]
  norm_cast

/-- A timer on pace has not run more often than its period says. -/
theorem VTimer.OnPace.notFast (paced : timer.OnPace dt n timeNs) (positive : 0 < dt)
    (nonzero : 0 < timer.periodicTimeNs.toNat) (time : timeNs.toNat = n * dt) :
    timer.calls * timer.periodicTimeNs.toNat < timeNs.toNat + 2 * timer.periodicTimeNs.toNat := by
  cases paced with
  | waiting uncalled soon =>
    rw [uncalled, Nat.zero_mul]
    omega
  | running called last calls lastTime past recent fast slow =>
    have covered := timer.le_periodSteps positive
    have bound : called * timer.periodicTimeNs.toNat ≤ timeNs.toNat := by
      calc called * timer.periodicTimeNs.toNat
          ≤ called * (dt * timer.periodSteps dt) := Nat.mul_le_mul_left called covered
        _ = called * timer.periodSteps dt * dt := by ring
        _ ≤ n * dt := Nat.mul_le_mul_right dt (fast.le.trans past)
        _ = timeNs.toNat := time.symm
    rw [calls, Nat.succ_mul]
    omega

/-- **A timer on pace is in rate** as long as one period more than are begun, in whole steps, is longer
than the steps so far. A period that is a whole number of steps always is. -/
theorem VTimer.OnPace.inRate (paced : timer.OnPace dt n timeNs) (positive : 0 < dt)
    (nonzero : 0 < timer.periodicTimeNs.toNat) (time : timeNs.toNat = n * dt)
    (enough : n * dt < (n ⌈/⌉ timer.periodSteps dt + 1) * timer.periodicTimeNs.toNat) :
    timer.InRate timeNs := by
  rw [VTimer.inRate_iff nonzero]
  refine ⟨paced.notFast positive nonzero time, ?_⟩
  rcases (paced.near positive nonzero).2 with near | huge
  · rw [time]
    exact enough.trans_le (Nat.mul_le_mul_right _ (Nat.succ_le_succ near))
  · have range := timeNs.toNat_lt
    rw [add_mul]
    omega

/-- **A timer on pace is behind** once two periods more than are begun, in whole steps, are not longer
than the steps so far. -/
theorem VTimer.OnPace.behind (paced : timer.OnPace dt n timeNs) (positive : 0 < dt)
    (nonzero : 0 < timer.periodicTimeNs.toNat) (time : timeNs.toNat = n * dt)
    (lost : (n ⌈/⌉ timer.periodSteps dt + 2) * timer.periodicTimeNs.toNat ≤ n * dt) :
    ¬ timer.InRate timeNs := by
  have most := (paced.near positive nonzero).1
  rw [VTimer.inRate_iff nonzero, not_and, not_lt, time]
  exact fun _ => (Nat.mul_le_mul_right _ (Nat.add_le_add_right most 2)).trans lost

/-- Virtual time is behind by what the calls of `tick` dropped. -/
theorem Platform.onTime_iff {registrations : List Registration} {elapsed : List UInt64}
    (nonzero : ∀ call ∈ registrations, 1 ≤ call.timestepNs.toNat)
    (size : (Platform.setup registrations).dtNs = dtNs) (fits : totalNs elapsed < 2 ^ 64) :
    ((Platform.setup registrations).ticks elapsed).OnTime elapsed ↔
      droppedNs dtNs elapsed < dtNs.toNat := by
  have kept : ((Platform.setup registrations).ticks elapsed).dtNs = dtNs := by
    rw [Platform.ticks_eq elapsed size, Platform.iterate_dtNs, size]
  have time := (Platform.ticks_paced nonzero size fits).time
  rw [Platform.OnTime, kept, time, totalNs_eq dtNs, Nat.cast_add, add_sub_cancel_left, Nat.abs_cast,
    Nat.cast_lt]

/-- **Virtual time does not drift exactly if the calls of `tick` drop less than a step in all.** A
timer is in rate as long as the whole steps of the elapsed times are shorter than one period more than
are begun in them, where the periods begun are counted in whole steps, rounded up; so a timer whose
period is a whole number of steps always is. With two periods more that are not longer it is behind.
In between it depends on when the clock of the host was read. -/
theorem ticks_track (registrations : List Registration) (elapsed : List UInt64)
    (nonzero : ∀ call ∈ registrations, 1 ≤ call.timestepNs.toNat)
    (fits : totalNs elapsed < 2 ^ 64) :
    ((∀ before, before <+: elapsed →
        ((Platform.setup registrations).ticks before).OnTime before) ↔
      droppedNs (Platform.setup registrations).dtNs elapsed <
        (Platform.setup registrations).dtNs.toNat) ∧
    ∀ before, before <+: elapsed →
      ∀ timer ∈ ((Platform.setup registrations).ticks before).timerManager.timers,
        timer.cb = true →
        let dt := (Platform.setup registrations).dtNs.toNat
        let steps := stepCount (Platform.setup registrations).dtNs before
        let begun := steps ⌈/⌉ timer.periodSteps dt
        (steps * dt < (begun + 1) * timer.periodicTimeNs.toNat →
          timer.InRate ((Platform.setup registrations).ticks before).timeNs) ∧
        ((begun + 2) * timer.periodicTimeNs.toNat ≤ steps * dt →
          ¬ timer.InRate ((Platform.setup registrations).ticks before).timeNs) := by
  have positive : 0 < (Platform.setup registrations).dtNs.toNat :=
    (Platform.setup_ready registrations nonzero).positive
  have within : ∀ before, before <+: elapsed → totalNs before < 2 ^ 64 := by
    rintro before ⟨rest, rfl⟩
    rw [totalNs, List.map_append, List.sum_append] at fits
    exact (Nat.le_add_right _ _).trans_lt fits
  refine ⟨⟨fun every => ?_, fun dropped before start => ?_⟩,
    fun before start timer member active => ?_⟩
  · exact (Platform.onTime_iff nonzero rfl fits).mp (every elapsed List.prefix_rfl)
  · rw [Platform.onTime_iff nonzero rfl (within before start)]
    obtain ⟨rest, rfl⟩ := start
    rw [droppedNs, List.map_append, List.sum_append] at dropped
    exact (Nat.le_add_right _ _).trans_lt dropped
  · have paced := Platform.ticks_paced nonzero rfl (within before start)
    have onPace := paced.timers timer member active
    have some := positive.trans_le (paced.fine timer member)
    exact ⟨onPace.inRate positive some paced.time, onPace.behind positive some paced.time⟩

/-- Timers of 10 and 15 µs, and a call of `tick` with 40 µs: nothing is dropped, and the second timer,
whose period is rounded up to 20 µs, is not behind yet. -/
theorem ticks_track_twoTimers :
    ((Platform.setup [⟨5000000000, true, 10000⟩, ⟨5000000000, true, 15000⟩]).ticks
      [40000]).OnTime [40000] ∧
    ∀ timer ∈ ((Platform.setup [⟨5000000000, true, 10000⟩, ⟨5000000000, true, 15000⟩]).ticks
        [40000]).timerManager.timers,
      timer.InRate ((Platform.setup [⟨5000000000, true, 10000⟩, ⟨5000000000, true, 15000⟩]).ticks
        [40000]).timeNs := by
  obtain ⟨onTime, inRate⟩ := ticks_track
    [⟨5000000000, true, 10000⟩, ⟨5000000000, true, 15000⟩] [40000] (by decide) (by decide)
  refine ⟨onTime.mpr (by decide) _ List.prefix_rfl, fun timer member => ?_⟩
  refine (inRate _ List.prefix_rfl timer member ?_).1 ?_
  · revert timer
    decide
  · revert timer
    decide

/-- Two milliseconds of the simulation thread, with a timer whose period is 15 µs: each call of
`tick` drops 10 µs. -/
theorem notAlwaysTracks :
    ¬ ∀ (registrations : List Registration) (elapsed : List UInt64),
      (∀ call ∈ registrations, 1 ≤ call.timestepNs.toNat) → totalNs elapsed < 2 ^ 64 →
      ∀ before, before <+: elapsed →
        ((Platform.setup registrations).ticks before).OnTime before ∧
        ∀ timer ∈ ((Platform.setup registrations).ticks before).timerManager.timers,
          timer.cb = true →
          timer.InRate ((Platform.setup registrations).ticks before).timeNs := by
  intro always
  have nonzero : ∀ call ∈ [(⟨5000000000, true, 15000⟩ : Registration)],
      1 ≤ call.timestepNs.toNat := by decide
  have fits : totalNs [1000000, 1000000] < 2 ^ 64 := by decide
  have onTime := (always _ _ nonzero fits _ List.prefix_rfl).1
  rw [Platform.onTime_iff nonzero rfl fits] at onTime
  exact absurd onTime (by decide)

end ForgeDrive.Host
