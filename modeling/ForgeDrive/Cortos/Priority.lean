/-
**The priority of a task is its place in the order of creation** (`cortos.c`: `scheduler_execute`).

The loop of `scheduler_execute` looks at the tasks in their order and calls the first that is ready. A
task that becomes ready behind its back is passed over: the loop may still find a later one.

* `pending_step` — a task that is ready and not in its function stays so until it is called;
* `passedOver_once` — and until then at most one later task is called, none if the loop has not passed
  it.
-/

import ForgeDrive.Cortos.Timeouts

namespace ForgeDrive.Cortos

open LabelledSystem (exec)

/-! ### Calls of tasks -/

/-- The task whose function the step calls. -/
def System.dispatched (s : System) : Step → Option Nat
  | .scan _ =>
    match s.thread, s.ticker with
    | .scan i, none => s.tasks[i]?.bind fun task => if task.state = .ready then some i else none
    | _, _ => none
  | _ => none

/-- The tasks called along a run, in order. -/
def dispatches : System → List Step → List Nat
  | _, [] => []
  | s, step :: rest =>
    match s.step step with
    | some next => (s.dispatched step).toList ++ dispatches next rest
    | none => []

/-- The task is ready, and the main thread is not in its function. -/
structure Pending (s : System) (t : Nat) : Prop where
  ready : ∃ task, s.tasks[t]? = some task ∧ task.state = .ready
  outside : ∀ start, s.thread = .exec start → s.current ≠ some t

/-- The calls of later tasks that may come first: one, if the loop has passed the task. -/
def System.passed (s : System) (t : Nat) : Nat :=
  match s.thread with
  | .scan i => if t < i then 1 else 0
  | _ => 0

/-- A later task among those called. -/
def later (t : Nat) (called : Option Nat) : Nat := called.toList.countP (t < ·)

variable {s next : System} {t : Nat} {step : Step}

/-! ### One step -/

/-- **A task that is ready** stays so, if the step is not its own. -/
theorem Touched.ready {task task' : Task} (touched : Touched s t task step task')
    (ready : task.state = .ready) (own : s.runs ≠ some (t, task)) : task'.state = .ready := by
  cases touched with
  | same | called => exact ready
  | returned _ runs | waits runs | takes runs | sleeps runs | suspends runs => exact absurd runs own
  | notified =>
    show (if task.state = .waitingEvent then TaskState.ready else task.state) = .ready
    rw [ready]
    rfl
  | resumed =>
    show (if task.state = .suspended then TaskState.ready else task.state) = .ready
    rw [ready]
    rfl
  | inspected =>
    rw [inspect_ready ready]
    exact ready

/-- The task that runs is the current one, in its function. -/
theorem runs_current {task : Task} (runs : s.runs = some (t, task)) :
    ∃ start, s.thread = .exec start ∧ s.current = some t := by
  unfold System.runs at runs
  split at runs
  case h_1 start thread ticker =>
    obtain ⟨u, current, rest⟩ := Option.bind_eq_some_iff.mp runs
    obtain ⟨found, -, same⟩ := Option.map_eq_some_iff.mp rest
    obtain rfl : u = t := congrArg Prod.fst same
    exact ⟨start, thread, current⟩
  case h_2 => cases runs

section Turn

variable {i : Nat} (pticks : UInt32)

/-- The loop of `scheduler_execute` behind the last task. -/
theorem scanStep_behind (behind : s.tasks[i]? = none) :
    s.scanStep i pticks = { s with current := none, thread := .scan 0 } := by
  rw [System.scanStep, behind]

variable {task : Task}

/-- The loop at a task that is ready. -/
theorem scanStep_ready (found : s.tasks[i]? = some task) (ready : task.state = .ready) :
    s.scanStep i pticks = { s.write i { task with execCalls := task.execCalls + 1 } with
      current := some i, thread := .exec pticks } := by
  simp only [System.scanStep, found, if_pos ready]

/-- The loop at a task that is not. -/
theorem scanStep_notReady (found : s.tasks[i]? = some task) (notReady : task.state ≠ .ready) :
    s.scanStep i pticks = { s with thread := .scan (i + 1) } := by
  simp only [System.scanStep, found, if_neg notReady]

end Turn

/-- **A turn of the loop** of `scheduler_execute`, as far as the task is concerned: it is not called;
a later one may be. -/
theorem scan_thread (pending : Pending s t) {i : Nat} {pticks : UInt32} (thread : s.thread = .scan i)
    (ticker : s.ticker = none) (undispatched : s.dispatched (.scan pticks) ≠ some t) :
    (∀ start, (s.scanStep i pticks).thread = .exec start →
        (s.scanStep i pticks).current ≠ some t) ∧
      later t (s.dispatched (.scan pticks)) + (s.scanStep i pticks).passed t ≤ s.passed t := by
  cases found : s.tasks[i]? with
  | none =>
    have calls : s.dispatched (.scan pticks) = none := by
      simp [System.dispatched, thread, ticker, found]
    simp only [scanStep_behind pticks found, calls, System.passed, thread, later]
    refine ⟨fun start called => Thread.noConfusion called, ?_⟩
    simp
  | some task =>
    by_cases ready : task.state = .ready
    · have calls : s.dispatched (.scan pticks) = some i := by
        simp [System.dispatched, thread, ticker, found, ready]
      have other : i ≠ t := fun same => undispatched (same ▸ calls)
      simp only [scanStep_ready pticks found ready, calls, System.passed, thread, later]
      refine ⟨fun _ _ same => other (Option.some.inj same), ?_⟩
      simp
    · obtain ⟨waiting, there, isReady⟩ := pending.ready
      have other : i ≠ t := fun same => ready (by
        rw [same, there] at found
        exact Option.some.inj found ▸ isReady)
      have calls : s.dispatched (.scan pticks) = none := by
        simp [System.dispatched, thread, ticker, found, ready]
      simp only [scanStep_notReady pticks found ready, calls, System.passed, thread, later]
      refine ⟨fun start called => Thread.noConfusion called, ?_⟩
      rw [Option.toList_none, List.countP_nil]
      split <;> split <;> omega

/-- **Where the main thread goes**, as far as the task is concerned: it is not called, and what the
step calls, and what may still be called before it, was to be expected. -/
theorem step_thread (stepped : s.step step = some next) (pending : Pending s t)
    (undispatched : s.dispatched step ≠ some t) :
    (∀ start, next.thread = .exec start → next.current ≠ some t) ∧
      later t (s.dispatched step) + next.passed t ≤ s.passed t := by
  have unchanged (none_ : s.dispatched step = none) (thread : next.thread = s.thread)
      (current : next.current = s.current) :
      (∀ start, next.thread = .exec start → next.current ≠ some t) ∧
        later t (s.dispatched step) + next.passed t ≤ s.passed t := by
    rw [none_, thread, current, System.passed, thread, System.passed, later]
    exact ⟨pending.outside, by rw [Option.toList_none, List.countP_nil, Nat.zero_add]⟩
  have restarts (none_ : s.dispatched step = none) (thread : next.thread = .scan 0) :
      (∀ start, next.thread = .exec start → next.current ≠ some t) ∧
        later t (s.dispatched step) + next.passed t ≤ s.passed t := by
    rw [none_, thread, System.passed, thread, later]
    refine ⟨fun start called => Thread.noConfusion called, ?_⟩
    rw [Option.toList_none, List.countP_nil, Nat.zero_add]
    exact Nat.zero_le _
  cases step with
  | create budget =>
    obtain ⟨-, same⟩ := Option.ite_none_right_eq_some.mp stepped
    obtain rfl := Option.some.inj same
    refine unchanged rfl ?_ ?_ <;> (split <;> rfl)
  | start pticks =>
    obtain ⟨-, same⟩ := Option.ite_none_right_eq_some.mp stepped
    obtain rfl := Option.some.inj same
    exact restarts rfl rfl
  | scan pticks =>
    simp only [System.step] at stepped
    split at stepped
    case h_1 i thread ticker =>
      obtain rfl := Option.some.inj stepped
      exact scan_thread pending thread ticker undispatched
    case h_2 => cases stepped
  | returns pticks =>
    simp only [System.step] at stepped
    split at stepped
    · obtain ⟨u, found, -, -, rfl⟩ := call_eq stepped
      exact restarts rfl rfl
    · cases stepped
  | wait n | take | sleep n | suspend =>
    simp only [System.step] at stepped
    obtain ⟨u, found, -, -, rfl⟩ := call_eq stepped
    exact unchanged rfl rfl rfl
  | notify u value | resume u =>
    obtain ⟨found, -, rfl⟩ := Option.map_eq_some_iff.mp stepped
    exact unchanged rfl rfl rfl
  | ticker =>
    simp only [System.step] at stepped
    split at stepped
    · cases stepped
    · obtain rfl := Option.some.inj stepped
      refine unchanged rfl ?_ ?_ <;> (unfold System.tickerStep; split <;> [rfl; split <;> rfl])

/-- **A task that is ready waits for its call**: no step but its call takes it from the ready tasks. -/
theorem pending_step (pending : Pending s t) (stepped : s.step step = some next)
    (undispatched : s.dispatched step ≠ some t) : Pending next t := by
  obtain ⟨task, is, ready⟩ := pending.ready
  obtain ⟨task', after, touched⟩ := step_touched stepped is
  refine ⟨⟨task', after, touched.ready ready fun runs => ?_⟩,
    (step_thread stepped pending undispatched).1⟩
  obtain ⟨start, thread, current⟩ := runs_current runs
  exact pending.outside start thread current

/-! ### The runs -/

/-- **A task that has become ready is called next but one at the latest, among the later tasks**: in
whatever run, as long as it is not called, it stays ready, and at most one task behind it in the order
is called, and none if the loop of the scheduler had not yet passed it. -/
theorem passedOver_once (pending : Pending s t) (steps : List Step)
    (undispatched : t ∉ dispatches s steps) :
    (dispatches s steps).countP (t < ·) ≤ s.passed t ∧
      ∀ final, exec System.step s steps = some final → Pending final t := by
  induction steps generalizing s with
  | nil => exact ⟨Nat.zero_le _, fun final same => Option.some.inj same ▸ pending⟩
  | cons step rest ih =>
    rw [dispatches] at undispatched ⊢
    rw [LabelledSystem.exec_cons]
    cases stepped : s.step step with
    | none => exact ⟨Nat.zero_le _, fun final none_ => by cases none_⟩
    | some next =>
      simp only [stepped, List.mem_append, not_or] at undispatched
      obtain ⟨first, others⟩ := undispatched
      have notThis : s.dispatched step ≠ some t := fun same => first (by rw [same]; simp)
      obtain ⟨-, bound⟩ := step_thread stepped pending notThis
      obtain ⟨passed, stays⟩ := ih (pending_step pending stepped notThis) others
      refine ⟨?_, stays⟩
      rw [List.countP_append]
      exact (Nat.add_le_add_left passed _).trans bound

/-- Two ready tasks, of which the loop has passed the first. -/
def passedFirst : System := ⟨[.create 0, .create 0], 0, 0, none, .scan 1, none, []⟩

/-- The second is called and returns, and the first is still to come. -/
theorem passedOver_once_first :
    (dispatches passedFirst [.scan 5, .returns 6]).countP (0 < ·) ≤ passedFirst.passed 0 ∧
      ∀ final, exec System.step passedFirst [.scan 5, .returns 6] = some final → Pending final 0 :=
  passedOver_once ⟨⟨_, rfl, rfl⟩, fun _ called => Thread.noConfusion called⟩ _ (by decide)

end ForgeDrive.Cortos
