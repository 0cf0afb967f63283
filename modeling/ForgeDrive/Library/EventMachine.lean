/-
**Event machines: a deterministic step that reads one input and emits events.**

`run step state inputs` feeds a list of inputs in order and concatenates the events of the steps.
Everything a byte-driven parser needs about feeding a stream is stated here once:

* `run_append`, `run_chunks` — feeding a stream in pieces is feeding it whole;
* `mem_run_iff` — an event of a run is an event of one of its steps, at a definite place;
* `run_invariant` — what one step preserves, a run preserves;
* `run_related` — the same for two machines run on the same inputs;
* `run_same` — machines that are related emit the same events;
* `Along` — every step of a run meets a condition on the state before it and its input;
* `run_same_iff_along` — exactly under which condition two machines emit the same events;
* `run_history` — what such steps preserve of the state and of the events so far, the run does;
* `run_history_always` — the same without a condition, from the first state on;
* `every_iff_along` — a property of all states of a run, by a condition on its steps;
* `Ahead` — what holds once a queue of inputs that are not yet read will have been read.
-/

import Mathlib.Data.List.Basic

namespace ForgeDrive.EventMachine

variable {State Input Event : Type*}

/-- Feed the inputs in order, collecting the events. -/
def run (step : State → Input → State × List Event) : State → List Input → State × List Event
  | state, [] => (state, [])
  | state, input :: rest =>
    ((run step (step state input).1 rest).1,
      (step state input).2 ++ (run step (step state input).1 rest).2)

variable (step : State → Input → State × List Event)

@[simp] theorem run_nil (state : State) : run step state [] = (state, []) := rfl

@[simp] theorem run_cons (state : State) (input : Input) (rest : List Input) :
    run step state (input :: rest) =
      ((run step (step state input).1 rest).1,
        (step state input).2 ++ (run step (step state input).1 rest).2) := rfl

/-- A run over one input is a step. -/
theorem run_singleton (state : State) (input : Input) :
    run step state [input] = step state input := by
  rw [run_cons, run_nil, List.append_nil]

/-- A run over two parts is the run over the first, then over the second. -/
theorem run_append (state : State) (first second : List Input) :
    run step state (first ++ second) =
      ((run step (run step state first).1 second).1,
        (run step state first).2 ++ (run step (run step state first).1 second).2) := by
  induction first generalizing state with
  | nil => simp
  | cons input rest ih => simp only [List.cons_append, run_cons, ih, List.append_assoc]

theorem run_append_fst (state : State) (first second : List Input) :
    (run step state (first ++ second)).1 = (run step (run step state first).1 second).1 := by
  rw [run_append]

theorem run_append_snd (state : State) (first second : List Input) :
    (run step state (first ++ second)).2 =
      (run step state first).2 ++ (run step (run step state first).1 second).2 := by
  rw [run_append]

/-- One more input at the end of a run. -/
theorem run_concat_fst (state : State) (inputs : List Input) (input : Input) :
    (run step state (inputs ++ [input])).1 = (step (run step state inputs).1 input).1 := by
  rw [run_append_fst]
  rfl

theorem run_concat_snd (state : State) (inputs : List Input) (input : Input) :
    (run step state (inputs ++ [input])).2 =
      (run step state inputs).2 ++ (step (run step state inputs).1 input).2 := by
  rw [run_append_snd, run_singleton]

/-- **However a stream is cut into chunks, running chunk by chunk is running over the stream.** -/
theorem run_chunks (state : State) (chunks : List (List Input)) :
    run (run step) state chunks = run step state chunks.flatten := by
  induction chunks generalizing state with
  | nil => rfl
  | cons chunk rest ih => rw [run_cons, ih, List.flatten_cons, run_append]

/-- **Where an event comes from**: an event of a run was emitted by one of its steps. -/
theorem mem_run_iff (state : State) (inputs : List Input) (event : Event) :
    event ∈ (run step state inputs).2 ↔
      ∃ before input after, inputs = before ++ input :: after ∧
        event ∈ (step (run step state before).1 input).2 := by
  induction inputs generalizing state with
  | nil => simp
  | cons head rest ih =>
    rw [run_cons]
    constructor
    · intro member
      rcases List.mem_append.mp member with now | later
      · exact ⟨[], head, rest, rfl, now⟩
      · obtain ⟨before, input, after, split, emitted⟩ := (ih _).mp later
        exact ⟨head :: before, input, after, by rw [split, List.cons_append], emitted⟩
    · rintro ⟨before, input, after, split, emitted⟩
      cases before with
      | nil =>
        obtain ⟨rfl, rfl⟩ := List.cons.inj split
        exact List.mem_append_left _ emitted
      | cons first before =>
        obtain ⟨rfl, tailSplit⟩ := List.cons.inj split
        exact List.mem_append_right _ ((ih _).mpr ⟨before, input, after, tailSplit, emitted⟩)

/-- **The run rule of an invariant**: what every step preserves, every run preserves. -/
theorem run_invariant (Invariant : State → Prop)
    (preserved : ∀ state input, Invariant state → Invariant (step state input).1)
    {state : State} (holds : Invariant state) (inputs : List Input) :
    Invariant (run step state inputs).1 := by
  induction inputs generalizing state with
  | nil => exact holds
  | cons input rest ih => exact ih (preserved state input holds)

/-- **The run rule of a relation between two machines**: what every two steps on one input keep
related, every two runs on the same inputs do. -/
theorem run_related {Other OtherEvent : Type*} (other : Other → Input → Other × List OtherEvent)
    (Related : State → Other → Prop)
    (preserved : ∀ state matched input, Related state matched →
      Related (step state input).1 (other matched input).1)
    {state : State} {matched : Other} (related : Related state matched) (inputs : List Input) :
    Related (run step state inputs).1 (run other matched inputs).1 := by
  induction inputs generalizing state matched with
  | nil => exact related
  | cons input rest ih => exact ih (preserved state matched input related)

/-- **The run rule of a bisimulation**: two machines whose steps on one input emit the same events
and stay related emit the same events in every run. -/
theorem run_same {Other : Type*} (other : Other → Input → Other × List Event)
    (Related : State → Other → Prop)
    (preserved : ∀ state matched input, Related state matched →
      (step state input).2 = (other matched input).2 ∧
        Related (step state input).1 (other matched input).1)
    {state : State} {matched : Other} (related : Related state matched) (inputs : List Input) :
    (run step state inputs).2 = (run other matched inputs).2 := by
  induction inputs generalizing state matched with
  | nil => rfl
  | cons input rest ih =>
    obtain ⟨same, next⟩ := preserved state matched input related
    rw [run_cons, run_cons, same, ih next]

/-- Every step of the run meets a condition on the state before it and its input. -/
def Along (Allowed : State → Input → Prop) : State → List Input → Prop
  | _, [] => True
  | state, input :: rest => Allowed state input ∧ Along Allowed (step state input).1 rest

@[simp] theorem along_cons (Allowed : State → Input → Prop) (state : State) (input : Input)
    (rest : List Input) : Along step Allowed state (input :: rest) ↔
      Allowed state input ∧ Along step Allowed (step state input).1 rest := Iff.rfl

theorem along_of_forall {Allowed : State → Input → Prop}
    (always : ∀ state input, Allowed state input) (state : State) (inputs : List Input) :
    Along step Allowed state inputs := by
  induction inputs generalizing state with
  | nil => trivial
  | cons input rest ih => exact ⟨always state input, ih _⟩

/-- Whether a run meets a condition is computed along its steps. -/
instance decidableAlong {Allowed : State → Input → Prop}
    [∀ state input, Decidable (Allowed state input)] :
    ∀ (state : State) (inputs : List Input), Decidable (Along step Allowed state inputs)
  | _, [] => isTrue trivial
  | state, input :: rest =>
    have : Decidable (Along step Allowed (step state input).1 rest) :=
      decidableAlong (step state input).1 rest
    inferInstanceAs (Decidable (Allowed state input ∧ Along step Allowed (step state input).1 rest))

/-- A condition on a part of the state that steps by itself is met along the steps of the part. -/
theorem along_part {Part PartEvent : Type*} {other : Part → Input → Part × List PartEvent}
    {part : State → Part}
    (steps : ∀ state input, part (step state input).1 = (other (part state) input).1)
    (Allowed : Part → Input → Prop) (state : State) (inputs : List Input) :
    Along step (fun state input => Allowed (part state) input) state inputs ↔
      Along other Allowed (part state) inputs := by
  induction inputs generalizing state with
  | nil => exact Iff.rfl
  | cons input rest ih => rw [along_cons, along_cons, ih, steps]

/-- The steps of a run over two parts are those of the parts. -/
theorem along_append (Allowed : State → Input → Prop) (state : State) (first second : List Input) :
    Along step Allowed state (first ++ second) ↔
      Along step Allowed state first ∧ Along step Allowed (run step state first).1 second := by
  induction first generalizing state with
  | nil => exact (and_iff_right trivial).symm
  | cons input rest ih => rw [List.cons_append, along_cons, along_cons, ih, and_assoc, run_cons]

/-- Along a run: at every input, in the state that the inputs before it lead to. -/
theorem along_iff_every (Allowed : State → Input → Prop) (state : State) (inputs : List Input) :
    Along step Allowed state inputs ↔ ∀ before input after, inputs = before ++ input :: after →
      Allowed (run step state before).1 input := by
  induction inputs generalizing state with
  | nil => exact iff_of_true trivial fun before input after none => by simp at none
  | cons head rest ih =>
    rw [along_cons, ih]
    constructor
    · rintro ⟨first, later⟩ before input after split
      cases before with
      | nil =>
        obtain ⟨rfl, rfl⟩ := List.cons.inj split
        exact first
      | cons other before =>
        obtain ⟨rfl, tail⟩ := List.cons.inj split
        exact later before input after tail
    · intro every
      exact ⟨every [] head rest rfl, fun before input after split =>
        every (head :: before) input after (congrArg (head :: ·) split)⟩

/-- A condition that an invariant gives is met along every run. -/
theorem along_of_invariant {Allowed : State → Input → Prop} (Invariant : State → Prop)
    (preserved : ∀ state input, Invariant state → Invariant (step state input).1)
    (allowed : ∀ state input, Invariant state → Allowed state input)
    {state : State} (holds : Invariant state) (inputs : List Input) :
    Along step Allowed state inputs := by
  induction inputs generalizing state with
  | nil => trivial
  | cons input rest ih => exact ⟨allowed state input holds, ih (preserved state input holds)⟩

/-- **Two conditions on the steps are one along a run** if they are on the states of an invariant
that the steps keep when one of them holds. -/
theorem along_congr (Invariant : State → Prop) {Allowed Other : State → Input → Prop}
    (same : ∀ state input, Invariant state → (Allowed state input ↔ Other state input))
    (preserved : ∀ state input, Invariant state → Allowed state input →
      Invariant (step state input).1)
    {state : State} (holds : Invariant state) (inputs : List Input) :
    Along step Allowed state inputs ↔ Along step Other state inputs := by
  induction inputs generalizing state with
  | nil => exact Iff.rfl
  | cons input rest ih =>
    rw [along_cons, along_cons, ← same state input holds]
    exact and_congr_right fun allowed => ih (preserved state input holds allowed)

/-- **Machines that emit alike exactly under a condition**: two machines whose permitted steps stay
related and emit as many events as each other, and on one input the same events exactly under a
condition, emit the same events in a run exactly if its steps meet the condition. -/
theorem run_same_iff_along {Other : Type*} (other : Other → Input → Other × List Event)
    (Related : State → Other → Prop) {Permitted : State → Input → Prop}
    {Condition : Other → Input → Prop}
    (preserved : ∀ state matched input, Related state matched → Permitted state input →
      Related (step state input).1 (other matched input).1)
    (lengths : ∀ state matched input, Related state matched → Permitted state input →
      (step state input).2.length = (other matched input).2.length)
    (same : ∀ state matched input, Related state matched → Permitted state input →
      ((step state input).2 = (other matched input).2 ↔ Condition matched input))
    {state : State} {matched : Other} (related : Related state matched) {inputs : List Input}
    (permitted : Along step Permitted state inputs) :
    (run step state inputs).2 = (run other matched inputs).2 ↔
      Along other Condition matched inputs := by
  induction inputs generalizing state matched with
  | nil => exact iff_of_true rfl trivial
  | cons input rest ih =>
    have later := ih (preserved state matched input related permitted.1) permitted.2
    rw [run_cons, run_cons, along_cons, ← same state matched input related permitted.1, ← later]
    constructor
    · intro whole
      exact List.append_inj whole (lengths state matched input related permitted.1)
    · rintro ⟨first, others⟩
      rw [first, others]

/-- What the permitted steps of two machines keep related stays so in a run of permitted steps. -/
theorem run_related_along {Other OtherEvent : Type*}
    (other : Other → Input → Other × List OtherEvent) (Related : State → Other → Prop)
    {Permitted : State → Input → Prop}
    (preserved : ∀ state matched input, Related state matched → Permitted state input →
      Related (step state input).1 (other matched input).1)
    {state : State} {matched : Other} (related : Related state matched) {inputs : List Input}
    (permitted : Along step Permitted state inputs) :
    Related (run step state inputs).1 (run other matched inputs).1 := by
  induction inputs generalizing state matched with
  | nil => exact related
  | cons input rest ih =>
    exact ih (preserved state matched input related permitted.1) permitted.2

/-- **The run rule of a history**: what every step that meets a condition preserves, of the state
and of all events so far, a run whose steps all meet the condition preserves. -/
theorem run_history {Allowed : State → Input → Prop} (Invariant : State → List Event → Prop)
    (preserved : ∀ state input past, Allowed state input → Invariant state past →
      Invariant (step state input).1 (past ++ (step state input).2))
    {state : State} {past : List Event} (holds : Invariant state past) {inputs : List Input}
    (along : Along step Allowed state inputs) :
    Invariant (run step state inputs).1 (past ++ (run step state inputs).2) := by
  induction inputs generalizing state past with
  | nil => rwa [run_nil, List.append_nil]
  | cons input rest ih =>
    rw [run_cons, ← List.append_assoc]
    exact ih (preserved state input past along.1 holds) along.2

/-- What every step preserves, of the state and of all events so far, every run preserves. -/
theorem run_history_always (Invariant : State → List Event → Prop)
    (preserved : ∀ state input past, Invariant state past →
      Invariant (step state input).1 (past ++ (step state input).2))
    {state : State} (holds : Invariant state []) (inputs : List Input) :
    Invariant (run step state inputs).1 (run step state inputs).2 := by
  have along : Along step (fun _ _ => True) state inputs :=
    along_of_forall step (fun _ _ => trivial) state inputs
  have history := run_history step Invariant (fun state input past _ => preserved state input past)
    holds along
  rwa [List.nil_append] at history

/-- **A condition on the steps is exact for a property of the states**: with an invariant that the
steps keep when they meet the condition, that gives the property, and under which a step into the
property meets the condition, the property holds all along a run exactly if all its steps meet the
condition. -/
theorem every_iff_along {Allowed : State → Input → Prop}
    (Invariant Property : State → List Event → Prop)
    (kept : ∀ state input past, Invariant state past → Allowed state input →
      Invariant (step state input).1 (past ++ (step state input).2))
    (enough : ∀ state past, Invariant state past → Property state past)
    (needed : ∀ state input past, Invariant state past →
      Property (step state input).1 (past ++ (step state input).2) → Allowed state input)
    {state : State} {past : List Event} (holds : Invariant state past) (inputs : List Input) :
    (∀ before, before <+: inputs →
      Property (run step state before).1 (past ++ (run step state before).2)) ↔
      Along step Allowed state inputs := by
  induction inputs generalizing state past with
  | nil =>
    refine ⟨fun _ => trivial, fun _ before start => ?_⟩
    rw [List.prefix_nil.mp start, run_nil, List.append_nil]
    exact enough state past holds
  | cons input rest ih =>
    constructor
    · intro every
      have first := every [input] ⟨rest, rfl⟩
      rw [run_singleton] at first
      have allowed := needed state input past holds first
      refine ⟨allowed, (ih (kept state input past holds allowed)).mp fun before start => ?_⟩
      have later := every (input :: before) (List.cons_prefix_cons.mpr ⟨rfl, start⟩)
      rwa [run_cons, ← List.append_assoc] at later
    · intro along before start
      have next := (ih (kept state input past holds along.1)).mpr along.2
      cases before with
      | nil =>
        rw [run_nil, List.append_nil]
        exact enough state past holds
      | cons first before =>
        obtain ⟨rfl, startRest⟩ := List.cons_prefix_cons.mp start
        rw [run_cons, ← List.append_assoc]
        exact next before startRest

/-! ### Reading a queue -/

section Ahead

variable {Tag : Type*} (tag : Input → Tag)

/-- **However the queue is read**, as inputs with these tags, the goal is reached. -/
def Ahead (Goal : State → List Event → Prop) (state : State) (queue : List Tag) : Prop :=
  ∀ inputs, inputs.map tag = queue → Goal (run step state inputs).1 (run step state inputs).2

variable {step tag} {Goal Other : State → List Event → Prop} {state : State}

@[simp] theorem ahead_nil : Ahead step tag Goal state [] ↔ Goal state [] := by
  constructor
  · intro ahead
    exact ahead [] rfl
  · intro goal inputs carried
    rw [List.map_eq_nil_iff.mp carried]
    exact goal

/-- A queue of two parts: the first part is read, and the second is ahead. -/
theorem ahead_append (first second : List Tag) :
    Ahead step tag Goal state (first ++ second) ↔
      Ahead step tag (fun middle events =>
        Ahead step tag (fun final more => Goal final (events ++ more)) middle second)
        state first := by
  constructor
  · intro ahead before carriedBefore after carriedAfter
    have whole := ahead (before ++ after) (by rw [List.map_append, carriedBefore, carriedAfter])
    rwa [run_append] at whole
  · intro ahead inputs carried
    obtain ⟨before, after, rfl, carriedBefore, carriedAfter⟩ := List.map_eq_append_iff.mp carried
    rw [run_append]
    exact ahead before carriedBefore after carriedAfter

theorem Ahead.mono {queue : List Tag} (ahead : Ahead step tag Goal state queue)
    (weaker : ∀ final events, Goal final events → Other final events) :
    Ahead step tag Other state queue := fun inputs carried => weaker _ _ (ahead inputs carried)

/-- **The queue grows**: behind what was ahead, the new inputs are. -/
theorem Ahead.append {first second : List Tag} (ahead : Ahead step tag Goal state first)
    (reads : ∀ middle events inputs, Goal middle events → inputs.map tag = second →
      Other (run step middle inputs).1 (events ++ (run step middle inputs).2)) :
    Ahead step tag Other state (first ++ second) :=
  (ahead_append first second).mpr <| ahead.mono fun middle events goal inputs carried =>
    reads middle events inputs goal carried

/-- **The front is read**: the rest is ahead of the state it leads to. -/
theorem Ahead.drop {first second : List Tag} (ahead : Ahead step tag Goal state (first ++ second))
    {inputs : List Input} (carried : inputs.map tag = first) :
    Ahead step tag (fun final more => Goal final ((run step state inputs).2 ++ more))
      (run step state inputs).1 second :=
  (ahead_append first second).mp ahead inputs carried

end Ahead

end ForgeDrive.EventMachine
