/-
**The cooperative scheduler `cortos`** (`cortos.h`, `cortos.c`).

The main thread sets up tasks and then runs `scheduler_execute` for ever: it looks for the first
task that is ready and calls its function, which may call the scheduler in any order and returns.
Interrupts come between any two steps of the main thread; every function that writes a task from
both sides does so in a critical section, so it is one step. `Ticker_IRQ` is a loop over the tasks
without a critical section: its turns are steps of their own, and another interrupt may come
between them.

A `Task *` is the index of the task. The profiling ticks are read from a counter that the steps
carry. The ISR profiler and the fields that only `xTaskProfiler` writes are left to
`Cortos.Profiler`.
-/

import ForgeDrive.Library.LabelledSystem

namespace ForgeDrive.Cortos

/-! ### Tasks -/

/-- `task_state_t`. -/
inductive TaskState
  | ready
  | sleeping
  | waitingEvent
  | suspended
  deriving DecidableEq, Repr

/-- `CORTOS_INF_TIMEOUT`. -/
def infTimeout : UInt8 := 1

/-- `CORTOS_MAX_DELAY`. -/
def maxDelay : UInt32 := 0xFFFFFFFF

/-- `CORTOS_MAX_TASKS`. -/
def maxTasks : Nat := 10

/-- `Task`. -/
structure Task where
  wakeTime : UInt32
  state : TaskState
  notifyValue : UInt32
  flags : UInt8
  execPtickBudget : UInt32
  execPtickMax : UInt32
  execPtickTotal : UInt32
  execOverruns : UInt32
  execCalls : UInt16
  deriving DecidableEq, Repr

/-- The task `xTaskCreate` writes. -/
def Task.create (execPtickBudget : UInt32) : Task where
  wakeTime := 0
  state := .ready
  notifyValue := 0
  flags := 0
  execPtickBudget := execPtickBudget
  execPtickMax := 0
  execPtickTotal := 0
  execOverruns := 0
  execCalls := 0

/-- The profiling of `scheduler_execute` after a call that took `elapsed`. -/
def Task.profile (task : Task) (elapsed : UInt32) : Task :=
  { task with
    execPtickMax := if elapsed > task.execPtickMax then elapsed else task.execPtickMax
    execOverruns :=
      if elapsed > task.execPtickBudget then task.execOverruns + 1 else task.execOverruns
    execPtickTotal := task.execPtickTotal + elapsed }

/-- The state, the wake time and the flag of a task that waits from `ticks` on. -/
def Task.block (task : Task) (state : TaskState) (ticks timeoutTicks : UInt32) : Task :=
  let flags := task.flags &&& ~~~infTimeout
  { task with
    state := state
    wakeTime := ticks + timeoutTicks
    flags := if timeoutTicks = maxDelay then flags ||| infTimeout else flags }

/-- `xTaskNotifyWait`. The notifications so far are cleared. -/
def Task.notifyWait (task : Task) (ticks timeoutTicks : UInt32) : Task :=
  { task.block .waitingEvent ticks timeoutTicks with notifyValue := 0 }

/-- `xTaskSleep`. -/
def Task.sleep (task : Task) (ticks sleepTicks : UInt32) : Task :=
  task.block .sleeping ticks sleepTicks

/-- `xTaskNotify`. -/
def Task.notify (task : Task) (value : UInt32) : Task :=
  { task with
    notifyValue := task.notifyValue ||| value
    state := if task.state = .waitingEvent then .ready else task.state }

/-- `xTaskNotifyTake`, which returns the value before it. -/
def Task.notifyTake (task : Task) : Task := { task with notifyValue := 0 }

/-- `xTaskResume`. -/
def Task.resume (task : Task) : Task :=
  { task with state := if task.state = .suspended then .ready else task.state }

/-- `xTaskSuspend`. -/
def Task.suspend (task : Task) : Task := { task with state := .suspended }

/-- The loop body of `Ticker_IRQ`. -/
def Task.inspect (task : Task) (ticks : UInt32) : Task :=
  if (task.state = .sleeping ∨ task.state = .waitingEvent) ∧ task.flags &&& infTimeout = 0 then
    if 0 ≤ (ticks - task.wakeTime).toInt32 then { task with state := .ready } else task
  else task

/-! ### The system -/

/-- Where the main thread is: before `xSchedulerStart`, at a turn of the loop of
`scheduler_execute`, or in the function of the current task, called at `start`. -/
inductive Thread
  | setup
  | scan (i : Nat)
  | exec (start : UInt32)
  deriving DecidableEq, Repr

/-- A call of the notification functions, with what `xTaskNotifyTake` returned. -/
inductive Call
  | notify (task : Nat) (value : UInt32)
  | take (task : Nat) (value : UInt32)
  deriving DecidableEq, Repr

/-- The scheduler, the main thread, the index of the loop of `Ticker_IRQ` while that runs, and the
calls so far. -/
structure System where
  tasks : List Task
  ticks : UInt32
  pticksLast : UInt32
  current : Option Nat
  thread : Thread
  ticker : Option Nat
  calls : List Call
  deriving DecidableEq, Repr

/-- `xSchedulerInit`. -/
def System.init (ticks pticksLast : UInt32) : System := ⟨[], ticks, pticksLast, none, .setup, none, []⟩

/-- The steps of the main thread and of the interrupts. `create`, `notify` and `resume` are called
by `main` or by a task, the last two also by interrupts; `wait`, `take`, `sleep` and `suspend` are
called by the task that runs. -/
inductive Step
  | create (execPtickBudget : UInt32)
  | start (pticks : UInt32)
  | scan (pticks : UInt32)
  | returns (pticks : UInt32)
  | wait (timeoutTicks : UInt32)
  | take
  | sleep (sleepTicks : UInt32)
  | suspend
  | notify (task : Nat) (value : UInt32)
  | resume (task : Nat)
  | ticker
  deriving DecidableEq, Repr

/-- The main thread is not in `Ticker_IRQ` and runs the function of a task: this one. -/
def System.runs (s : System) : Option (Nat × Task) :=
  match s.thread, s.ticker with
  | .exec _, none => s.current.bind fun t => s.tasks[t]?.map fun task => (t, task)
  | _, _ => none

/-- Writing a task. -/
def System.write (s : System) (t : Nat) (task : Task) : System :=
  { s with tasks := s.tasks.set t task }

/-- A call of the task that runs. -/
def System.call (s : System) (body : Nat → Task → System) : Option System :=
  s.runs.map fun current => body current.1 current.2

/-- A turn of the loop of `scheduler_execute`. Behind the last task the thread is idle until the
next interrupt, and looks again. -/
def System.scanStep (s : System) (i : Nat) (pticks : UInt32) : System :=
  match s.tasks[i]? with
  | none => { s with current := none, thread := .scan 0 }
  | some task =>
    if task.state = .ready then
      { s.write i { task with execCalls := task.execCalls + 1 } with
        current := some i, thread := .exec pticks }
    else { s with thread := .scan (i + 1) }

/-- `Ticker_IRQ`: its entry, a turn of its loop, and its end. -/
def System.tickerStep (s : System) : System :=
  match s.ticker with
  | none => { s with ticks := s.ticks + 1, ticker := some 0 }
  | some i =>
    match s.tasks[i]? with
    | none => { s with ticker := none }
    | some task => { s.write i (task.inspect s.ticks) with ticker := some (i + 1) }

/-- One step of the system. -/
def System.step (s : System) : Step → Option System
  | .create budget =>
    if s.ticker = none ∧ (s.thread = .setup ∨ s.runs.isSome) then
      some (if s.tasks.length < maxTasks then { s with tasks := s.tasks ++ [.create budget] } else s)
    else none
  | .start pticks =>
    if s.thread = .setup then some { s with ticks := 0, pticksLast := pticks, thread := .scan 0 }
    else none
  | .scan pticks =>
    match s.thread, s.ticker with
    | .scan i, none => some (s.scanStep i pticks)
    | _, _ => none
  | .returns pticks =>
    match s.thread with
    | .exec start => s.call fun t task =>
      { s.write t (task.profile (pticks - start)) with thread := .scan 0 }
    | _ => none
  | .wait timeoutTicks => s.call fun t task => s.write t (task.notifyWait s.ticks timeoutTicks)
  | .take => s.call fun t task =>
    { s.write t task.notifyTake with calls := s.calls ++ [.take t task.notifyValue] }
  | .sleep sleepTicks => s.call fun t task => s.write t (task.sleep s.ticks sleepTicks)
  | .suspend => s.call fun t task => s.write t task.suspend
  | .notify t value => s.tasks[t]?.map fun task =>
    { s.write t (task.notify value) with calls := s.calls ++ [.notify t value] }
  | .resume t => s.tasks[t]?.map fun task => s.write t task.resume
  | .ticker => if s.thread = .setup then none else some s.tickerStep

end ForgeDrive.Cortos
