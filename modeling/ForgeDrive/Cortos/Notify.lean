/-
**Task notifications: which runs lose none.**

`xTaskNotify` adds bits to the value of a task and makes it ready if it waits; `xTaskNotifyTake`
returns the value and clears it. `xTaskNotifyWait` clears it too: a notification that arrives before
the task waits is gone, and the task waits for the next one or for its timeout.

* `noneLost_iff` — a run loses no notification if and only if no task waits before it has taken
  the notifications it got;
* `not_noneLost` — a task that is notified just before it waits sleeps through its timeout and then
  takes nothing.
-/

import ForgeDrive.Cortos.Scheduler
import ForgeDrive.Library.History

namespace ForgeDrive.Cortos

open History (Each)
open LabelledSystem (exec Meets Throughout)

/-! ### What is to be kept -/

/-- The values that a task was notified with since it last took its notifications. -/
def untaken (t : Nat) (calls : List Call) : List UInt32 :=
  calls.foldl (fun values call => match call with
    | .notify t' value => if t' = t then values ++ [value] else values
    | .take t' _ => if t' = t then [] else values) []

/-- A take returns every bit its task was notified with since the take before. -/
def TakesAll (before : List Call) : Call → Prop
  | .take t taken => ∀ value ∈ untaken t before, taken &&& value = value
  | .notify _ _ => True

/-- **No notification is lost so far**: every take returned all bits, and no task waits that has a
notification to take. -/
structure System.Keeps (s : System) : Prop where
  delivers : Each TakesAll s.calls
  awake : ∀ t task, s.tasks[t]? = some task → task.state = .waitingEvent → untaken t s.calls = []

/-- **The run loses no notification**, whatever the interleaving: `steps` are the steps of the tasks
and of the interrupts in their order. -/
def NoneLost (ticks pticks : UInt32) (steps : List Step) : Prop :=
  Throughout System.step System.Keeps (System.init ticks pticks) steps

/-- The task that runs waits with no notification to take. -/
def TakenFirst (s : System) : Step → Prop
  | .wait _ => ∀ t task, s.runs = some (t, task) → untaken t s.calls = []
  | _ => True

theorem untaken_nil (t : Nat) : untaken t [] = [] := rfl

@[simp] theorem untaken_notify (t t' : Nat) (value : UInt32) (calls : List Call) :
    untaken t (calls ++ [.notify t' value]) =
      if t' = t then untaken t calls ++ [value] else untaken t calls := by
  rw [untaken, List.foldl_append]
  rfl

@[simp] theorem untaken_take (t t' : Nat) (value : UInt32) (calls : List Call) :
    untaken t (calls ++ [.take t' value]) = if t' = t then [] else untaken t calls := by
  rw [untaken, List.foldl_append]
  rfl

/-! ### What the steps do -/

/-- **A step that touches no notification**: no call is recorded, every task keeps its value and
does not begin to wait, and a task that is new does not wait. -/
structure Quiet (s next : System) : Prop where
  calls : next.calls = s.calls
  length : s.tasks.length ≤ next.tasks.length
  tasks : ∀ (t : Nat) (task' : Task), next.tasks[t]? = some task' →
    (s.tasks.length ≤ t ∧ task'.state ≠ .waitingEvent) ∨
      ∃ task : Task, s.tasks[t]? = some task ∧ task'.notifyValue = task.notifyValue ∧
        (task'.state = .waitingEvent → task.state = .waitingEvent)

variable {s next : System} {t : Nat} {task task' : Task}

theorem quiet_of_tasks (tasks : next.tasks = s.tasks) (calls : next.calls = s.calls) :
    Quiet s next where
  calls := calls
  length := Nat.le_of_eq (by rw [tasks])
  tasks := fun _ task' is => .inr ⟨task', tasks ▸ is, rfl, id⟩

theorem quiet_of_set (was : s.tasks[t]? = some task) (tasks : next.tasks = s.tasks.set t task')
    (calls : next.calls = s.calls) (value : task'.notifyValue = task.notifyValue)
    (waits : task'.state = .waitingEvent → task.state = .waitingEvent) : Quiet s next where
  calls := calls
  length := Nat.le_of_eq (by rw [tasks, List.length_set])
  tasks := by
    intro other found is
    rw [tasks, List.getElem?_set] at is
    split at is
    · next same =>
      obtain ⟨-, is⟩ := Option.ite_none_right_eq_some.mp is
      obtain rfl := Option.some.inj is
      exact .inr ⟨task, same ▸ was, value, waits⟩
    · exact .inr ⟨found, is, rfl, id⟩

theorem quiet_of_append (tasks : next.tasks = s.tasks ++ [task']) (calls : next.calls = s.calls)
    (ready : task'.state = .ready) : Quiet s next where
  calls := calls
  length := by rw [tasks, List.length_append]; omega
  tasks := by
    intro other found is
    rcases Nat.lt_or_ge other s.tasks.length with old | new
    · rw [tasks, List.getElem?_append_left old] at is
      exact .inr ⟨found, is, rfl, id⟩
    · rw [tasks, List.getElem?_append_right new, List.getElem?_singleton] at is
      obtain ⟨-, is⟩ := Option.ite_none_right_eq_some.mp is
      obtain rfl := Option.some.inj is
      exact .inl ⟨new, fun waits => by rw [ready] at waits; cases waits⟩

/-- The task that runs is one of the tasks. -/
theorem runs_task (runs : s.runs = some (t, task)) : s.tasks[t]? = some task := by
  unfold System.runs at runs
  split at runs
  · obtain ⟨index, -, mapped⟩ := Option.bind_eq_some_iff.mp runs
    obtain ⟨found, is, same⟩ := Option.map_eq_some_iff.mp mapped
    obtain ⟨rfl, rfl⟩ := Prod.mk.inj same
    exact is
  · cases runs

theorem call_eq {body : Nat → Task → System} (called : s.call body = some next) :
    ∃ t task, s.runs = some (t, task) ∧ s.tasks[t]? = some task ∧ next = body t task := by
  obtain ⟨⟨t, task⟩, runs, same⟩ := Option.map_eq_some_iff.mp called
  exact ⟨t, task, runs, runs_task runs, same.symm⟩

/-- **What a step does to the notifications**: nothing, or what one of the three functions does. -/
inductive Effect (s next : System) : Step → Prop
  | quiet {step : Step} (quiet : Quiet s next) : Effect s next step
  | wait {t : Nat} {task : Task} {timeoutTicks : UInt32} (runs : s.runs = some (t, task))
      (after : next = s.write t (task.notifyWait s.ticks timeoutTicks)) :
      Effect s next (.wait timeoutTicks)
  | take {t : Nat} {task : Task} (runs : s.runs = some (t, task))
      (after : next = { s.write t task.notifyTake with
        calls := s.calls ++ [.take t task.notifyValue] }) : Effect s next .take
  | notify {t : Nat} {task : Task} {value : UInt32} (is : s.tasks[t]? = some task)
      (after : next = { s.write t (task.notify value) with
        calls := s.calls ++ [.notify t value] }) : Effect s next (.notify t value)

/-- The scan makes no task wait. -/
theorem quiet_scan (s : System) (i : Nat) (pticks : UInt32) : Quiet s (s.scanStep i pticks) := by
  unfold System.scanStep
  split
  · exact quiet_of_tasks rfl rfl
  · next task is =>
    split
    · exact quiet_of_set is rfl rfl rfl id
    · exact quiet_of_tasks rfl rfl

/-- Looking at a task in the interrupt keeps its value and does not make it wait. -/
theorem inspect_frame (task : Task) (ticks : UInt32) :
    (task.inspect ticks).notifyValue = task.notifyValue ∧
      ((task.inspect ticks).state = .waitingEvent → task.state = .waitingEvent) := by
  unfold Task.inspect
  split
  · split
    · exact ⟨rfl, fun waits => by cases waits⟩
    · exact ⟨rfl, id⟩
  · exact ⟨rfl, id⟩

theorem quiet_ticker (s : System) : Quiet s s.tickerStep := by
  unfold System.tickerStep
  split
  · exact quiet_of_tasks rfl rfl
  · split
    · exact quiet_of_tasks rfl rfl
    · next is =>
      obtain ⟨value, waits⟩ := inspect_frame _ s.ticks
      exact quiet_of_set is rfl rfl value waits

theorem step_effect {step : Step} (stepped : s.step step = some next) : Effect s next step := by
  cases step with
  | create budget =>
    simp only [System.step] at stepped
    split at stepped
    · obtain rfl := Option.some.inj stepped
      split
      · exact .quiet (quiet_of_append rfl rfl rfl)
      · exact .quiet (quiet_of_tasks rfl rfl)
    · cases stepped
  | start pticks =>
    obtain ⟨-, same⟩ := Option.ite_none_right_eq_some.mp stepped
    obtain rfl := Option.some.inj same
    exact .quiet (quiet_of_tasks rfl rfl)
  | scan pticks =>
    simp only [System.step] at stepped
    split at stepped
    · obtain rfl := Option.some.inj stepped
      exact .quiet (quiet_scan s _ pticks)
    · cases stepped
  | returns pticks =>
    simp only [System.step] at stepped
    split at stepped
    · obtain ⟨t, task, -, is, rfl⟩ := call_eq stepped
      exact .quiet (quiet_of_set is rfl rfl rfl id)
    · cases stepped
  | wait timeoutTicks =>
    simp only [System.step] at stepped
    obtain ⟨t, task, runs, -, after⟩ := call_eq stepped
    exact .wait runs after
  | take =>
    simp only [System.step] at stepped
    obtain ⟨t, task, runs, -, after⟩ := call_eq stepped
    exact .take runs after
  | sleep sleepTicks =>
    simp only [System.step] at stepped
    obtain ⟨t, task, -, is, rfl⟩ := call_eq stepped
    exact .quiet (quiet_of_set is rfl rfl rfl fun waits => by cases waits)
  | suspend =>
    simp only [System.step] at stepped
    obtain ⟨t, task, -, is, rfl⟩ := call_eq stepped
    exact .quiet (quiet_of_set is rfl rfl rfl fun waits => by cases waits)
  | notify t value =>
    obtain ⟨task, is, after⟩ := Option.map_eq_some_iff.mp stepped
    exact .notify is after.symm
  | resume t =>
    obtain ⟨task, is, rfl⟩ := Option.map_eq_some_iff.mp stepped
    refine .quiet (quiet_of_set is rfl rfl rfl ?_)
    intro waits
    unfold Task.resume at waits
    split at waits
    · cases waits
    · exact waits
  | ticker =>
    simp only [System.step] at stepped
    split at stepped
    · cases stepped
    · obtain rfl := Option.some.inj stepped
      exact .quiet (quiet_ticker s)

/-! ### The invariant -/

/-- What holds while no notification is lost: besides, the value of a task contains the bits it is
to take, and a task that does not exist yet has none to take. -/
structure Kept (s : System) : Prop where
  keeps : s.Keeps
  holds : ∀ (t : Nat) (task : Task), s.tasks[t]? = some task →
    ∀ value ∈ untaken t s.calls, task.notifyValue &&& value = value
  fresh : ∀ t, s.tasks.length ≤ t → untaken t s.calls = []

theorem Kept.init (ticks pticks : UInt32) : Kept (System.init ticks pticks) where
  keeps := ⟨History.each_nil, fun _ _ is => by cases is⟩
  holds := fun _ _ is => by cases is
  fresh := fun t _ => untaken_nil t

theorem Kept.quiet (kept : Kept s) (quiet : Quiet s next) : Kept next where
  keeps := {
    delivers := by
      rw [quiet.calls]
      exact kept.keeps.delivers
    awake := by
      intro t task' is waits
      rw [quiet.calls]
      rcases quiet.tasks t task' is with ⟨new, -⟩ | ⟨task, was, -, waited⟩
      · exact kept.fresh t new
      · exact kept.keeps.awake t task was (waited waits) }
  holds := by
    intro t task' is value untakenValue
    rw [quiet.calls] at untakenValue
    rcases quiet.tasks t task' is with ⟨new, -⟩ | ⟨task, was, same, -⟩
    · rw [kept.fresh t new] at untakenValue
      cases untakenValue
    · rw [same]
      exact kept.holds t task was value untakenValue
  fresh := by
    intro t new
    rw [quiet.calls]
    exact kept.fresh t (Nat.le_trans quiet.length new)

/-- Tasks other than the one a step writes are as they were. -/
theorem write_cases {other : Nat} {found : Task}
    (is : (s.write t task').tasks[other]? = some found) :
    (other = t ∧ found = task') ∨ (other ≠ t ∧ s.tasks[other]? = some found) := by
  rw [System.write, List.getElem?_set] at is
  split at is
  · next same =>
    obtain ⟨-, is⟩ := Option.ite_none_right_eq_some.mp is
    exact .inl ⟨same.symm, (Option.some.inj is).symm⟩
  · next differ => exact .inr ⟨fun same => differ same.symm, is⟩

/-- A task that has taken its notifications may wait. -/
theorem Kept.wait (kept : Kept s) (timeoutTicks : UInt32) (taken : untaken t s.calls = []) :
    Kept (s.write t (task.notifyWait s.ticks timeoutTicks)) where
  keeps := {
    delivers := kept.keeps.delivers
    awake := by
      intro other found is waits
      rcases write_cases is with ⟨rfl, -⟩ | ⟨-, was⟩
      · exact taken
      · exact kept.keeps.awake other found was waits }
  holds := by
    intro other found is value untakenValue
    rcases write_cases is with ⟨rfl, -⟩ | ⟨-, was⟩
    · rw [show untaken other (s.write other _).calls = [] from taken] at untakenValue
      cases untakenValue
    · exact kept.holds other found was value untakenValue
  fresh := fun other new => kept.fresh other (by rwa [System.write, List.length_set] at new)

/-- A take returns all bits. -/
theorem Kept.take (kept : Kept s) (runs : s.runs = some (t, task)) :
    Kept { s.write t task.notifyTake with calls := s.calls ++ [.take t task.notifyValue] } where
  keeps := {
    delivers := History.each_concat kept.keeps.delivers (kept.holds t task (runs_task runs))
    awake := by
      intro other found is waits
      rw [untaken_take]
      rcases write_cases is with ⟨rfl, -⟩ | ⟨differ, was⟩
      · exact if_pos rfl
      · rw [if_neg differ.symm]
        exact kept.keeps.awake other found was waits }
  holds := by
    intro other found is value untakenValue
    rw [untaken_take] at untakenValue
    rcases write_cases is with ⟨rfl, -⟩ | ⟨differ, was⟩
    · rw [if_pos rfl] at untakenValue
      cases untakenValue
    · rw [if_neg differ.symm] at untakenValue
      exact kept.holds other found was value untakenValue
  fresh := by
    intro other new
    rw [untaken_take, kept.fresh other (by rwa [System.write, List.length_set] at new)]
    exact ite_self _

/-- Bits that are in one of two values are in both together. -/
theorem or_contains {left right bits : UInt32}
    (contained : left &&& bits = bits ∨ right &&& bits = bits) :
    (left ||| right) &&& bits = bits := by
  refine UInt32.toBitVec_inj.mp (BitVec.eq_of_getLsbD_eq fun i _ => ?_)
  rw [UInt32.toBitVec_and, UInt32.toBitVec_or, BitVec.getLsbD_and, BitVec.getLsbD_or]
  rcases contained with contained | contained
  all_goals
    have bit := congrArg (fun word : UInt32 => word.toBitVec.getLsbD i) contained
    simp only [UInt32.toBitVec_and, BitVec.getLsbD_and] at bit
    grind

/-- A notification is added to the value, and wakes the task. -/
theorem Kept.notify (kept : Kept s) (was : s.tasks[t]? = some task) (value : UInt32) :
    Kept { s.write t (task.notify value) with calls := s.calls ++ [.notify t value] } where
  keeps := {
    delivers := History.each_concat kept.keeps.delivers trivial
    awake := by
      intro other found is waits
      rw [untaken_notify]
      rcases write_cases is with ⟨rfl, rfl⟩ | ⟨differ, was⟩
      · unfold Task.notify at waits
        simp only at waits
        split at waits
        · cases waits
        · next ready => exact absurd waits ready
      · rw [if_neg differ.symm]
        exact kept.keeps.awake other found was waits }
  holds := by
    intro other found is bits untakenBits
    rw [untaken_notify] at untakenBits
    rcases write_cases is with ⟨rfl, rfl⟩ | ⟨differ, was⟩
    · rw [if_pos rfl] at untakenBits
      show (task.notifyValue ||| value) &&& bits = bits
      rcases List.mem_append.mp untakenBits with earlier | now
      · have held := kept.holds other task was bits earlier
        exact or_contains (.inl held)
      · obtain rfl := List.mem_singleton.mp now
        exact or_contains (.inr UInt32.and_self)
    · rw [if_neg differ.symm] at untakenBits
      exact kept.holds other found was bits untakenBits
  fresh := by
    intro other new
    have length : s.tasks.length ≤ other := by rwa [System.write, List.length_set] at new
    have differ : t ≠ other := by
      rintro rfl
      have := (List.getElem?_eq_some_iff.mp was).1
      omega
    rw [untaken_notify, if_neg differ]
    exact kept.fresh other length

/-- **The step lemma.** -/
theorem Kept.step {step : Step} (kept : Kept s) (taken : TakenFirst s step)
    (stepped : s.step step = some next) : Kept next := by
  cases step_effect stepped with
  | quiet quiet => exact kept.quiet quiet
  | wait runs after => exact after ▸ kept.wait _ (taken _ _ runs)
  | take runs after => exact after ▸ kept.take runs
  | notify is after => exact after ▸ kept.notify is _

/-- After a wait of the task that runs, that task waits with what it had to take. -/
theorem takenFirst_of_keeps (s : System) (step : Step)
    (keeps : ∀ next, s.step step = some next → next.Keeps) : TakenFirst s step := by
  cases step with
  | wait timeoutTicks =>
    intro t task runs
    have after : s.step (.wait timeoutTicks) =
        some (s.write t (task.notifyWait s.ticks timeoutTicks)) := by
      simp only [System.step, System.call, runs, Option.map_some]
    have bound := (List.getElem?_eq_some_iff.mp (runs_task runs)).1
    exact (keeps _ after).awake t (task.notifyWait s.ticks timeoutTicks)
      (List.getElem?_set_self bound) rfl
  | _ => trivial

/-- **A run loses no notification if and only if no task waits before it has taken the
notifications it got.** -/
theorem noneLost_iff (ticks pticks : UInt32) (steps : List Step) :
    NoneLost ticks pticks steps ↔
      Meets System.step TakenFirst (System.init ticks pticks) steps := by
  constructor
  · exact LabelledSystem.meets_of_throughout takenFirst_of_keeps
  · intro meets before after split reached run
    have kept := LabelledSystem.throughout_of_meets Kept
      (fun state step next kept taken stepped => kept.step taken stepped) (Kept.init ticks pticks)
      meets before after split reached run
    exact kept.keeps

/-! ### A lost notification -/

/-- The task of the run is notified just before it waits for five ticks, and returns. -/
def lostRun : List Step :=
  [.create 0, .start 0, .scan 0, .notify 0 1, .wait 5, .returns 0, .scan 0, .scan 0]

/-- The interrupt of one tick, with one task to look at. -/
def tick : List Step := [.ticker, .ticker, .ticker]

/-- **Notifications are lost**: for four ticks the notified task waits, the fifth is its timeout,
and what it takes then does not contain the bit. -/
theorem not_noneLost :
    ¬ (∀ ticks pticks steps, NoneLost ticks pticks steps) ∧
    (exec System.step (System.init 0 0) (lostRun ++ (tick ++ tick ++ tick ++ tick))).map
      (fun s => s.tasks.map Task.state) = some [.waitingEvent] ∧
    (exec System.step (System.init 0 0) (lostRun ++ (tick ++ tick ++ tick ++ tick ++ tick) ++
      [.scan 0, .take])).map System.calls = some [.notify 0 1, .take 0 0] := by
  refine ⟨?_, by decide, by decide⟩
  intro keeps
  have notified : (exec System.step (System.init 0 0) lostRun).map
      (fun s => (s.tasks.map Task.state, untaken 0 s.calls)) = some ([.waitingEvent], [1]) := by
    decide
  obtain ⟨s, run, same⟩ := Option.map_eq_some_iff.mp notified
  obtain ⟨states, calls⟩ := Prod.mk.inj same
  obtain ⟨task, tasks, waits⟩ := List.map_eq_singleton_iff.mp states
  have awake := (keeps 0 0 lostRun lostRun [] (List.append_nil _).symm s run).awake 0 task
    (by rw [tasks]; rfl) waits
  rw [calls] at awake
  cases awake

end ForgeDrive.Cortos
