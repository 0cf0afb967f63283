/-
**The idle thread of the host and its wake-up** (`cortos.c`; `platform/host/hconf/cortos_port.c`).

With no task ready the main thread blocks in `CORTOS_PortIdle`, on a condition variable with the flag
`idle_wakeup`; `Ticker_IRQ` and `xTaskNotify` make tasks ready and call `CORTOS_PortWake` after that.
They run on other threads, so a task may become ready when the loop of `scheduler_execute` has passed
it, and between the end of the loop and the wait. The sections under a mutex are one step each.
`xTaskResume` does not call `CORTOS_PortWake`.

* `HostInvariant` — a ready task is still to be looked at, or a wake-up is set, due, or to come;
* `calls_ready` — so the main thread by itself gets to a ready task when nothing is under way;
* `no_lost_wakeup` — in every run in which only tasks resume tasks.
-/

import ForgeDrive.Cortos.Priority

namespace ForgeDrive.Cortos

open LabelledSystem (exec Meets Throughout)

/-! ### The system -/

/-- Where the main thread is in `CORTOS_PortIdle`: not in it, at the test of `idle_wakeup`, or in
`pthread_cond_wait`. -/
inductive IdlePc
  | outside
  | test
  | waiting
  deriving DecidableEq, Repr

/-- The scheduler, the main thread in `CORTOS_PortIdle`, `idle_wakeup`, and how many calls of
`CORTOS_PortWake` are due: tasks were made ready and the thread that did so has not called it yet. -/
structure Hosted where
  system : System
  idle : IdlePc
  idleWakeup : Bool
  due : Nat
  deriving DecidableEq, Repr

/-- The steps: the next of the main thread outside the functions of tasks; one of `main` or of the
task that runs; `xTaskNotify` and `xTaskResume`, by any thread, without the wake-up; the next of
`Ticker_IRQ`; `CORTOS_PortWake`; and a wait that ends for no reason. -/
inductive HostStep
  | main (pticks : UInt32)
  | create (execPtickBudget : UInt32)
  | start (pticks : UInt32)
  | returns (pticks : UInt32)
  | wait (timeoutTicks : UInt32)
  | take
  | sleep (sleepTicks : UInt32)
  | suspend
  | notify (task : Nat) (value : UInt32)
  | resume (task : Nat)
  | ticker
  | wake
  | spurious
  deriving DecidableEq, Repr

def Hosted.init (ticks pticksLast : UInt32) : Hosted :=
  ⟨.init ticks pticksLast, .outside, false, 0⟩

/-- A step of the scheduler while `Ticker_IRQ` runs on its own thread or does not. -/
def System.beside (s : System) (step : Step) : Option System :=
  (System.step { s with ticker := none } step).map fun next => { next with ticker := s.ticker }

/-- A step of the scheduler. -/
def Hosted.lift (s : Hosted) (step : Step) : Option Hosted :=
  (s.system.beside step).map fun next => { s with system := next }

/-- The next step of the main thread in `scheduler_execute`, or in `CORTOS_PortIdle`. -/
def Hosted.mainStep (s : Hosted) (pticks : UInt32) : Option Hosted :=
  match s.idle with
  | .outside =>
    match s.system.thread with
    | .scan i => (s.system.beside (.scan pticks)).map fun next => { s with
        system := next
        idle := if i < s.system.tasks.length then .outside else .test }
    | _ => none
  | .test => some (if s.idleWakeup then { s with idleWakeup := false, idle := .outside }
      else { s with idle := .waiting })
  | .waiting => none

/-- One step of the system. -/
def Hosted.step (s : Hosted) : HostStep → Option Hosted
  | .main pticks => s.mainStep pticks
  | .create budget => s.lift (.create budget)
  | .start pticks => s.lift (.start pticks)
  | .returns pticks => s.lift (.returns pticks)
  | .wait timeoutTicks => s.lift (.wait timeoutTicks)
  | .take => s.lift .take
  | .sleep sleepTicks => s.lift (.sleep sleepTicks)
  | .suspend => s.lift .suspend
  | .notify t value => (s.lift (.notify t value)).map fun next => { next with due := next.due + 1 }
  | .resume t => s.lift (.resume t)
  | .ticker =>
    if s.system.thread = .setup then none
    else some { s with
      system := s.system.tickerStep
      due := if s.system.tickerStep.ticker = none then s.due + 1 else s.due }
  | .wake =>
    if 0 < s.due then some { s with
      due := s.due - 1
      idleWakeup := true
      idle := if s.idle = .waiting then .test else s.idle }
    else none
  | .spurious => if s.idle = .waiting then some { s with idle := .test } else none

/-! ### No ready task is forgotten -/

/-- The main thread is in the function of this task. -/
def Hosted.InTask (s : Hosted) (t : Nat) : Prop :=
  ∃ start, s.system.thread = .exec start ∧ s.system.current = some t

/-- A ready task. -/
def System.IsReady (s : System) (t : Nat) : Prop :=
  ∃ task, s.tasks[t]? = some task ∧ task.state = .ready

/-- **The main thread gets to a ready task by itself**, if it is at the loop of `scheduler_execute` or
idle, there is one, and no wake-up is due or to come: in so many steps at most. In particular it is
not blocked. -/
def Hosted.CallsReady (s : Hosted) : Prop :=
  (∃ i, s.system.thread = .scan i) → (∃ t, s.system.IsReady t) → s.due = 0 →
    s.system.ticker = none → ∀ pticks, ∃ n ≤ 2 * s.system.tasks.length + 3, ∃ after t,
      exec Hosted.step s (List.replicate n (.main pticks)) = some after ∧
        after.InTask t ∧ s.system.IsReady t

/-- The main thread is at the loop of `scheduler_execute`, or idle. -/
def Thread.atLoop : Thread → Bool
  | .scan _ => true
  | _ => false

/-- The step is a call of `xTaskResume`. -/
def HostStep.resumes : HostStep → Bool
  | .resume _ => true
  | _ => false

/-- Tasks are resumed by tasks, and before the scheduler starts. -/
def ResumedByTasks (s : Hosted) (step : HostStep) : Prop :=
  step.resumes → s.system.thread.atLoop = false

instance (s : Hosted) (step : HostStep) : Decidable (ResumedByTasks s step) :=
  inferInstanceAs (Decidable (_ → _))

/-- The task is still to be looked at in this turn of `scheduler_execute`, or in the next one. -/
def Hosted.Looks (s : Hosted) (t : Nat) : Prop :=
  s.idle = .outside ∧ ∀ i, s.system.thread = .scan i → i ≤ t

/-- A wake-up is set, due, or to come at the end of `Ticker_IRQ`. -/
def Hosted.Underway (s : Hosted) : Prop :=
  s.idleWakeup = true ∨ 0 < s.due ∨ s.system.ticker ≠ none

/-- The invariant of the system. -/
structure HostInvariant (s : Hosted) : Prop where
  seen : ∀ t, s.system.IsReady t → s.Looks t ∨ s.Underway
  blocked : s.idle = .waiting → s.idleWakeup = false
  idle : s.idle ≠ .outside → s.system.thread = .scan 0

/-! ### What the main thread does by itself -/

section Main

variable {s : Hosted} (pticks : UInt32)

/-- The loop of `scheduler_execute` leaves `Ticker_IRQ` alone. -/
theorem beside_scan {system : System} {i : Nat} (thread : system.thread = .scan i) :
    system.beside (.scan pticks) = some (system.scanStep i pticks) := by
  have stepped : System.step { system with ticker := none } (.scan pticks) =
      some (System.scanStep { system with ticker := none } i pticks) := by
    simp only [System.step, thread]
  rw [System.beside, stepped, Option.map_some]
  cases found : system.tasks[i]? with
  | none => simp only [System.scanStep, found]
  | some task =>
    by_cases ready : task.state = .ready
    · simp only [System.scanStep, found, if_pos ready]
      rfl
    · simp only [System.scanStep, found, if_neg ready]

/-- A turn of the loop of `scheduler_execute`. -/
theorem main_scan {i : Nat} (outside : s.idle = .outside) (thread : s.system.thread = .scan i) :
    s.step (.main pticks) = some { s with
      system := s.system.scanStep i pticks
      idle := if i < s.system.tasks.length then .outside else .test } := by
  simp [Hosted.step, Hosted.mainStep, outside, thread, beside_scan]

/-- A task that is ready is not one that is not. -/
theorem System.IsReady.other {system : System} {t i : Nat} {task : Task} (ready : system.IsReady t)
    (found : system.tasks[i]? = some task) (notReady : task.state ≠ .ready) : i ≠ t := by
  rintro rfl
  obtain ⟨task', there, readyTask⟩ := ready
  rw [found] at there
  exact notReady (Option.some.inj there ▸ readyTask)

/-- Behind the last task there is none that is ready. -/
theorem System.IsReady.inside {system : System} {t : Nat} (ready : system.IsReady t) :
    t < system.tasks.length := by
  obtain ⟨task, there, -⟩ := ready
  exact (List.getElem?_eq_some_iff.mp there).1

/-- In `CORTOS_PortIdle` no task is to be looked at in this turn. -/
theorem not_looks (inside : s.idle ≠ .outside) (t : Nat) : ¬ s.Looks t :=
  fun looks => inside looks.1

/-- **The loop of `scheduler_execute`** calls a task that is ready at this place or behind it, or
comes to its end. -/
theorem scan_run (outside : s.idle = .outside) {i : Nat} (thread : s.system.thread = .scan i) :
    ((∃ t, i ≤ t ∧ s.system.IsReady t) → ∃ n ≤ s.system.tasks.length - i, ∃ after t,
      exec Hosted.step s (List.replicate n (.main pticks)) = some after ∧ after.InTask t ∧
        s.system.IsReady t) ∧
    ((∀ t, i ≤ t → ¬ s.system.IsReady t) → ∃ n ≤ s.system.tasks.length - i + 1,
      exec Hosted.step s (List.replicate n (.main pticks)) = some { s with
        system := { s.system with current := none, thread := .scan 0 }, idle := .test }) := by
  generalize rest : s.system.tasks.length - i = k
  have step := main_scan pticks outside thread
  induction k generalizing s i with
  | zero =>
    have behind : s.system.tasks[i]? = none := List.getElem?_eq_none (by omega)
    rw [if_neg (by omega), scanStep_behind pticks behind] at step
    constructor
    · rintro ⟨t, le, ready⟩
      have inside := ready.inside
      omega
    · exact fun _ => ⟨1, Nat.le_refl _, (LabelledSystem.exec_singleton _ s _).trans step⟩
  | succ k ih =>
    have inside : i < s.system.tasks.length := by omega
    have there := List.getElem?_eq_getElem inside
    rw [if_pos inside] at step
    by_cases ready : s.system.tasks[i].state = .ready
    · rw [scanStep_ready pticks there ready] at step
      constructor
      · intro _
        exact ⟨1, by omega, _, i, (LabelledSystem.exec_singleton _ s _).trans step,
          ⟨pticks, rfl, rfl⟩, ⟨_, there, ready⟩⟩
      · intro none_
        exact absurd ⟨_, there, ready⟩ (none_ i (Nat.le_refl _))
    · rw [scanStep_notReady pticks there ready] at step
      obtain ⟨finds, ends⟩ := ih (s := { s with
        system := { s.system with thread := .scan (i + 1) }, idle := .outside }) rfl rfl
        (by show s.system.tasks.length - (i + 1) = k; omega) (main_scan pticks rfl rfl)
      constructor
      · rintro ⟨t, le, isReady⟩
        have notThis := isReady.other there ready
        obtain ⟨n, bound, after, u, run, called⟩ := finds ⟨t, by omega, isReady⟩
        refine ⟨n + 1, by omega, after, u, ?_, called⟩
        rw [List.replicate_succ, LabelledSystem.exec_cons, step]
        exact run
      · intro none_
        obtain ⟨n, bound, run⟩ := ends fun t le => none_ t (by omega)
        refine ⟨n + 1, by omega, ?_⟩
        rw [List.replicate_succ, LabelledSystem.exec_cons, step]
        exact run

/-- With the flag set, `CORTOS_PortIdle` returns and the first ready task is called. -/
theorem idle_run (test : s.idle = .test) (thread : s.system.thread = .scan 0)
    (wakeup : s.idleWakeup = true) {t : Nat} (ready : s.system.IsReady t) :
    ∃ n ≤ s.system.tasks.length + 1, ∃ after u,
      exec Hosted.step s (List.replicate n (.main pticks)) = some after ∧ after.InTask u ∧
        s.system.IsReady u := by
  have step : s.step (.main pticks) =
      some { s with idleWakeup := false, idle := .outside } := by
    simp [Hosted.step, Hosted.mainStep, test, wakeup]
  obtain ⟨finds, -⟩ := scan_run pticks
    (s := { s with idleWakeup := false, idle := .outside }) rfl thread
  obtain ⟨n, bound, after, u, run, called⟩ := finds ⟨t, Nat.zero_le _, ready⟩
  refine ⟨n + 1, Nat.succ_le_succ bound, after, u, ?_, called⟩
  rw [List.replicate_succ, LabelledSystem.exec_cons, step]
  exact run

/-- **In the states of the invariant** the main thread gets to a ready task. -/
theorem calls_ready (holds : HostInvariant s) : s.CallsReady := by
  rintro ⟨i, thread⟩ ⟨t, ready⟩ due ticker pticks
  have wakeup (passed : ¬ s.Looks t) : s.idleWakeup = true := by
    rcases holds.seen t ready with looks | set_ | later | later
    · exact absurd looks passed
    · exact set_
    · omega
    · exact absurd ticker later
  cases idle : s.idle with
  | waiting =>
    have set_ := wakeup (not_looks (by rw [idle]; exact IdlePc.noConfusion) t)
    rw [holds.blocked idle] at set_
    cases set_
  | test =>
    have inside : s.idle ≠ .outside := by
      rw [idle]
      exact IdlePc.noConfusion
    have set_ := wakeup (not_looks inside t)
    have start := holds.idle inside
    obtain ⟨n, bound, called⟩ := idle_run pticks idle start set_ ready
    exact ⟨n, by omega, called⟩
  | outside =>
    obtain ⟨finds, ends⟩ := scan_run pticks idle thread
    by_cases ahead : ∃ u, i ≤ u ∧ s.system.IsReady u
    · obtain ⟨n, bound, called⟩ := finds ahead
      exact ⟨n, by omega, called⟩
    · have none_ : ∀ u, i ≤ u → ¬ s.system.IsReady u := fun u le isReady => ahead ⟨u, le, isReady⟩
      have set_ := wakeup fun looks => none_ t (looks.2 i thread) ready
      obtain ⟨n, bound, run⟩ := ends none_
      obtain ⟨m, bound', after, u, run', called⟩ := idle_run pticks (s := { s with
        system := { s.system with current := none, thread := .scan 0 }, idle := .test })
        rfl rfl set_ ready
      have bound' : m ≤ s.system.tasks.length + 1 := bound'
      refine ⟨n + m, by omega, after, u, ?_, called⟩
      rw [List.replicate_add, LabelledSystem.exec_append _ run]
      exact run'

end Main

/-! ### The steps -/

section Steps

variable {s next : Hosted}

theorem HostInvariant.init (ticks pticksLast : UInt32) :
    HostInvariant (Hosted.init ticks pticksLast) := by
  refine ⟨?_, fun waiting => IdlePc.noConfusion waiting, fun inside => absurd rfl inside⟩
  rintro t ⟨task, there, -⟩
  cases there

/-- **Between two turns of `scheduler_execute`**, or in a task, nothing is forgotten. -/
theorem invariant_restart (outside : s.idle = .outside)
    (start : ∀ i, s.system.thread = .scan i → i = 0) : HostInvariant s := by
  refine ⟨fun t _ => .inl ⟨outside, fun i thread => ?_⟩, ?_, fun inside => absurd outside inside⟩
  · rw [start i thread]
    exact Nat.zero_le t
  · intro waiting
    rw [outside] at waiting
    cases waiting

/-- The main thread is not idle while it is not at the loop. -/
theorem HostInvariant.outside (holds : HostInvariant s) (away : ∀ i, s.system.thread ≠ .scan i) :
    s.idle = .outside := by
  by_contra inside
  exact away 0 (holds.idle inside)

/-- **A step of `main` or of the task that runs.** -/
theorem HostInvariant.lift (holds : HostInvariant s) {step : Step} (taken : s.lift step = some next)
    (before : ∀ system after : System, system.step step = some after →
      (∀ i, system.thread ≠ .scan i) ∧ ∀ i, after.thread = .scan i → i = 0) :
    HostInvariant next := by
  obtain ⟨system, beside, rfl⟩ := Option.map_eq_some_iff.mp taken
  obtain ⟨after, stepped, rfl⟩ := Option.map_eq_some_iff.mp beside
  obtain ⟨away, start⟩ := before _ _ stepped
  exact invariant_restart (holds.outside away) start

/-- A step of the task that runs. -/
theorem call_away {system after : System} {body : Nat → Task → System}
    (called : system.call body = some after)
    (thread : ∀ t task, (body t task).thread = system.thread ∨ (body t task).thread = .scan 0) :
    (∀ i, system.thread ≠ .scan i) ∧ ∀ i, after.thread = .scan i → i = 0 := by
  obtain ⟨t, task, runs, -, rfl⟩ := call_eq called
  obtain ⟨start, inTask, -⟩ := runs_current runs
  refine ⟨fun i same => ?_, fun i same => ?_⟩
  · rw [inTask] at same
    cases same
  · rcases thread t task with kept | restarts
    · rw [kept, inTask] at same
      cases same
    · rw [restarts] at same
      cases same
      rfl

/-- What makes no task ready, and leaves what is under way. -/
theorem HostInvariant.other_seen (holds : HostInvariant s) {t : Nat}
    (ready : s.system.IsReady t) (inside : ¬ s.Looks t) (wakeup : next.idleWakeup = s.idleWakeup)
    (due : next.due = s.due) (ticker : next.system.ticker = s.system.ticker) : next.Underway := by
  rw [Hosted.Underway, wakeup, due, ticker]
  exact (holds.seen t ready).resolve_left inside

/-- **A turn of the loop** of `scheduler_execute`. -/
theorem HostInvariant.scan (holds : HostInvariant s) {i : Nat}
    (thread : s.system.thread = .scan i) (pticks : UInt32) :
    HostInvariant { s with
      system := s.system.scanStep i pticks
      idle := if i < s.system.tasks.length then .outside else .test } := by
  cases found : s.system.tasks[i]? with
  | none =>
    have behind := List.getElem?_eq_none_iff.mp found
    rw [scanStep_behind pticks found, if_neg (by omega)]
    refine ⟨fun t ready => .inr (holds.other_seen ready (fun looks => ?_) rfl rfl rfl),
      fun waiting => IdlePc.noConfusion waiting, fun _ => rfl⟩
    have passed := looks.2 i thread
    have inside : t < s.system.tasks.length := ready.inside
    omega
  | some task =>
    have inside := (List.getElem?_eq_some_iff.mp found).1
    rw [if_pos inside]
    by_cases isReady : task.state = .ready
    · rw [scanStep_ready pticks found isReady]
      exact invariant_restart rfl fun j => Thread.noConfusion
    · rw [scanStep_notReady pticks found isReady]
      refine ⟨fun t ready => ?_, fun waiting => IdlePc.noConfusion waiting,
        fun idle => absurd rfl idle⟩
      by_cases looks : s.Looks t
      · refine .inl ⟨rfl, fun j same => ?_⟩
        obtain rfl : i + 1 = j := Thread.scan.inj same
        have passed := looks.2 i thread
        have ready : s.system.IsReady t := ready
        have other := ready.other found isReady
        omega
      · exact .inr (holds.other_seen ready looks rfl rfl rfl)

/-- **A step of the main thread** at the loop, or in `CORTOS_PortIdle`. -/
theorem HostInvariant.main (holds : HostInvariant s) {pticks : UInt32}
    (taken : s.step (.main pticks) = some next) : HostInvariant next := by
  cases idle : s.idle with
  | waiting =>
    simp only [Hosted.step, Hosted.mainStep, idle] at taken
    cases taken
  | test =>
    have inside : s.idle ≠ .outside := by
      rw [idle]
      exact IdlePc.noConfusion
    have start := holds.idle inside
    simp only [Hosted.step, Hosted.mainStep, idle] at taken
    split at taken
    case isTrue set_ =>
      obtain rfl := Option.some.inj taken
      exact invariant_restart rfl fun i thread => by
        rw [show s.system.thread = _ from start] at thread
        cases thread
        rfl
    case isFalse clear =>
      obtain rfl := Option.some.inj taken
      exact ⟨fun t ready => .inr (holds.other_seen ready (not_looks inside t) rfl rfl rfl),
        fun _ => Bool.eq_false_iff.mpr clear, fun _ => start⟩
  | outside =>
    cases thread : s.system.thread with
    | setup | exec start =>
      simp only [Hosted.step, Hosted.mainStep, idle, thread] at taken
      cases taken
    | scan i =>
      rw [main_scan pticks idle thread, Option.some.injEq] at taken
      exact taken ▸ holds.scan thread pticks

/-- `Ticker_IRQ` leaves the main thread where it is; a wake-up is to come at its end. -/
theorem HostInvariant.ticker (holds : HostInvariant s) (taken : s.step .ticker = some next) :
    HostInvariant next := by
  simp only [Hosted.step] at taken
  split at taken
  · cases taken
  · obtain rfl := Option.some.inj taken
    have kept : s.system.tickerStep.thread = s.system.thread := by
      unfold System.tickerStep
      split <;> [rfl; (split <;> rfl)]
    refine ⟨fun t _ => .inr (.inr ?_), holds.blocked, fun idle => kept.trans (holds.idle idle)⟩
    by_cases ended : s.system.tickerStep.ticker = none
    · exact .inl (by show 0 < if _ then _ else _; rw [if_pos ended]; exact Nat.succ_pos _)
    · exact .inr ended

/-- `CORTOS_PortWake` sets the flag, and ends the wait. -/
theorem HostInvariant.wake (holds : HostInvariant s) (taken : s.step .wake = some next) :
    HostInvariant next := by
  simp only [Hosted.step] at taken
  split at taken
  · obtain rfl := Option.some.inj taken
    refine ⟨fun t _ => .inr (.inl rfl), fun waiting => ?_, fun inside => holds.idle fun same => ?_⟩
    · have waiting : (if s.idle = .waiting then IdlePc.test else s.idle) = .waiting := waiting
      split at waiting
      case isTrue => cases waiting
      case isFalse away => exact absurd waiting away
    · refine inside ?_
      show (if s.idle = .waiting then IdlePc.test else s.idle) = .outside
      rw [same]
      rfl
  · cases taken

/-- A wait that ends for no reason is followed by the test. -/
theorem HostInvariant.spurious (holds : HostInvariant s) (taken : s.step .spurious = some next) :
    HostInvariant next := by
  simp only [Hosted.step] at taken
  split at taken
  case isTrue waiting =>
    obtain rfl := Option.some.inj taken
    have inside : s.idle ≠ .outside := by
      rw [waiting]
      exact IdlePc.noConfusion
    exact ⟨fun t ready => .inr (holds.other_seen ready (not_looks inside t) rfl rfl rfl),
      fun test => IdlePc.noConfusion test, fun _ => holds.idle inside⟩
  case isFalse => cases taken

/-- **Every step** keeps the invariant, if tasks are resumed by tasks. -/
theorem HostInvariant.step (holds : HostInvariant s) {label : HostStep}
    (allowed : ResumedByTasks s label) (taken : s.step label = some next) :
    HostInvariant next := by
  cases label with
  | main pticks => exact holds.main taken
  | create budget =>
    refine holds.lift taken fun system after stepped => ?_
    obtain ⟨⟨-, away⟩, same⟩ := Option.ite_none_right_eq_some.mp stepped
    have kept : after.thread = system.thread := by
      rw [← Option.some.inj same]
      split <;> rfl
    rw [kept]
    rcases away with setup | runs
    · rw [setup]
      exact ⟨fun i => Thread.noConfusion, fun i => Thread.noConfusion⟩
    · obtain ⟨⟨t, task⟩, runs⟩ := Option.isSome_iff_exists.mp runs
      obtain ⟨start, inTask, -⟩ := runs_current runs
      rw [inTask]
      exact ⟨fun i => Thread.noConfusion, fun i => Thread.noConfusion⟩
  | start pticks =>
    refine holds.lift taken fun system after stepped => ?_
    obtain ⟨setup, same⟩ := Option.ite_none_right_eq_some.mp stepped
    rw [setup, ← Option.some.inj same]
    exact ⟨fun i => Thread.noConfusion, fun i same => (Thread.scan.inj same).symm⟩
  | returns pticks =>
    refine holds.lift taken fun system after stepped => ?_
    simp only [System.step] at stepped
    split at stepped
    · exact call_away stepped fun _ _ => .inr rfl
    · cases stepped
  | wait n | take | sleep n | suspend =>
    refine holds.lift taken fun system after stepped => ?_
    simp only [System.step] at stepped
    exact call_away stepped fun _ _ => .inl rfl
  | notify t value =>
    obtain ⟨lifted, lifting, rfl⟩ := Option.map_eq_some_iff.mp taken
    obtain ⟨system, beside, rfl⟩ := Option.map_eq_some_iff.mp lifting
    obtain ⟨after, stepped, rfl⟩ := Option.map_eq_some_iff.mp beside
    obtain ⟨task, -, rfl⟩ := Option.map_eq_some_iff.mp stepped
    exact ⟨fun u _ => .inr (.inr (.inl (Nat.succ_pos _))), holds.blocked, holds.idle⟩
  | resume t =>
    obtain ⟨system, beside, rfl⟩ := Option.map_eq_some_iff.mp taken
    obtain ⟨after, stepped, rfl⟩ := Option.map_eq_some_iff.mp beside
    obtain ⟨task, -, rfl⟩ := Option.map_eq_some_iff.mp stepped
    have away : ∀ i, s.system.thread ≠ .scan i := fun i thread => by
      have atLoop := allowed rfl
      rw [thread] at atLoop
      cases atLoop
    exact invariant_restart (holds.outside away) fun i thread => absurd thread (away i)
  | ticker => exact holds.ticker taken
  | wake => exact holds.wake taken
  | spurious => exact holds.spurious taken

end Steps

/-! ### The runs -/

/-- **No wake-up is lost on the host**: in every run in which tasks are resumed by tasks, whatever
threads notify tasks and whenever the ticks come, in every state reached the main thread gets to a
ready task by itself once what is under way on the other threads is done. -/
theorem no_lost_wakeup (ticks pticksLast : UInt32) (steps : List HostStep)
    (resumes : Meets Hosted.step ResumedByTasks (Hosted.init ticks pticksLast) steps) :
    Throughout Hosted.step Hosted.CallsReady (Hosted.init ticks pticksLast) steps := by
  have invariant := LabelledSystem.throughout_of_meets HostInvariant
    (fun _ _ _ holds allowed taken => holds.step allowed taken) (.init ticks pticksLast) resumes
  exact fun before after split reached run => calls_ready (invariant before after split reached run)

/-- A task waits; the loop finds no task ready, and the task is notified before the main thread tests
the flag. -/
theorem no_lost_wakeup_early :
    Throughout Hosted.step Hosted.CallsReady (Hosted.init 0 0)
      [.create 9, .start 0, .main 1, .resume 0, .wait 5, .returns 2, .main 3, .main 4,
        .notify 0 1, .wake, .main 5] :=
  no_lost_wakeup 0 0 _ (by decide)

/-- What tasks resume by an interrupt may wait for the next tick: the main thread is blocked, and a
task is ready. -/
example : ∃ s, exec Hosted.step (Hosted.init 0 0) [.create 9, .start 0, .main 1, .suspend,
    .returns 2, .main 3, .resume 0, .main 4, .main 5] = some s ∧ s.idle = .waiting ∧ s.due = 0 ∧
      s.system.ticker = none ∧ s.system.IsReady 0 :=
  ⟨_, rfl, rfl, rfl, rfl, _, rfl, rfl⟩

end ForgeDrive.Cortos
