/-
**Labelled systems: a partial step for each label, and runs over lists of labels.**

`step state label` is `none` where the label is not enabled. An interleaving of several parties is
a list of labels; `exec` takes its steps in order.

* `exec_invariant` — what every step that meets a condition preserves, a run whose steps all meet
  the condition preserves;
* `throughout_of_meets` — so it holds in every state such a run reaches;
* `meets_of_throughout` — a condition that follows from what holds after the step is met by every
  run in whose states that holds;
* `throughout_iff_meets` — a condition that says exactly which steps keep a property is met by
  exactly the runs in whose states it holds.
-/

import Mathlib.Data.List.Basic

namespace ForgeDrive.LabelledSystem

variable {State Label : Type*}

/-- The state after the steps of `labels`; `none` if one of them is not enabled. -/
def exec (step : State → Label → Option State) : State → List Label → Option State
  | state, [] => some state
  | state, label :: rest => (step state label).bind fun next => exec step next rest

/-- Every step of the run meets a condition on the state before it and its label. -/
def Meets (step : State → Label → Option State) (Allowed : State → Label → Prop) :
    State → List Label → Prop
  | _, [] => True
  | state, label :: rest =>
    Allowed state label ∧ ∀ next, step state label = some next → Meets step Allowed next rest

variable (step : State → Label → Option State)

@[simp] theorem exec_nil (state : State) : exec step state [] = some state := rfl

@[simp] theorem exec_cons (state : State) (label : Label) (rest : List Label) :
    exec step state (label :: rest) = (step state label).bind fun next => exec step next rest := rfl

theorem exec_singleton (state : State) (label : Label) :
    exec step state [label] = step state label := Option.bind_fun_some _

variable {step}

/-- A run over two parts is the run over the first, then over the second. -/
theorem exec_append {state middle : State} {first : List Label} (second : List Label)
    (run : exec step state first = some middle) :
    exec step state (first ++ second) = exec step middle second := by
  induction first generalizing state with
  | nil =>
    rw [← Option.some.inj run]
    rfl
  | cons label rest ih =>
    rw [exec_cons, Option.bind_eq_some_iff] at run
    obtain ⟨next, taken, later⟩ := run
    rw [List.cons_append, exec_cons, taken]
    exact ih later

/-- Whether a run meets a condition is computed along its steps. -/
instance decidableMeets {Allowed : State → Label → Prop}
    [∀ state label, Decidable (Allowed state label)] :
    ∀ (state : State) (labels : List Label), Decidable (Meets step Allowed state labels)
  | _, [] => isTrue trivial
  | state, label :: rest =>
    have (next : State) : Decidable (Meets step Allowed next rest) := decidableMeets next rest
    inferInstanceAs (Decidable (Allowed state label ∧
      ∀ next ∈ step state label, Meets step Allowed next rest))

theorem Meets.and {First Second : State → Label → Prop} {state : State} {labels : List Label}
    (first : Meets step First state labels) (second : Meets step Second state labels) :
    Meets step (fun state label => First state label ∧ Second state label) state labels := by
  induction labels generalizing state with
  | nil => trivial
  | cons label rest ih =>
    exact ⟨⟨first.1, second.1⟩, fun next taken => ih (first.2 next taken) (second.2 next taken)⟩

theorem meets_of_forall {Allowed : State → Label → Prop}
    (always : ∀ state label, Allowed state label) (state : State) (labels : List Label) :
    Meets step Allowed state labels := by
  induction labels generalizing state with
  | nil => trivial
  | cons label rest ih => exact ⟨always state label, fun next _ => ih next⟩

/-- A condition that the labels of the run meet in every state. -/
theorem meets_of_labels {Allowed : State → Label → Prop} {labels : List Label}
    (always : ∀ label ∈ labels, ∀ state, Allowed state label) (state : State) :
    Meets step Allowed state labels := by
  induction labels generalizing state with
  | nil => trivial
  | cons label rest ih =>
    obtain ⟨first, later⟩ := List.forall_mem_cons.mp always
    exact ⟨first state, fun next _ => ih later next⟩

/-- **The run rule of an invariant under a condition.** -/
theorem exec_invariant {Allowed : State → Label → Prop} (Invariant : State → Prop)
    (preserved : ∀ state label next, Invariant state → Allowed state label →
      step state label = some next → Invariant next)
    {state final : State} {labels : List Label} (holds : Invariant state)
    (meets : Meets step Allowed state labels) (run : exec step state labels = some final) :
    Invariant final := by
  induction labels generalizing state with
  | nil =>
    rw [exec_nil, Option.some.injEq] at run
    exact run ▸ holds
  | cons label rest ih =>
    rw [exec_cons, Option.bind_eq_some_iff] at run
    obtain ⟨next, taken, run⟩ := run
    exact ih (preserved state label next holds meets.1 taken) (meets.2 next taken) run

/-- The property holds in every state the run reaches, whether or not the run can be completed. -/
def Throughout (step : State → Label → Option State) (Property : State → Prop) (state : State)
    (labels : List Label) : Prop :=
  ∀ before after, labels = before ++ after →
    ∀ reached, exec step state before = some reached → Property reached

theorem Meets.of_append {Allowed : State → Label → Prop} {state : State} {before after : List Label}
    (meets : Meets step Allowed state (before ++ after)) : Meets step Allowed state before := by
  induction before generalizing state with
  | nil => trivial
  | cons label rest ih => exact ⟨meets.1, fun next taken => ih (meets.2 next taken)⟩

/-- **An invariant under a condition holds throughout.** -/
theorem throughout_of_meets {Allowed : State → Label → Prop} (Invariant : State → Prop)
    (preserved : ∀ state label next, Invariant state → Allowed state label →
      step state label = some next → Invariant next)
    {state : State} {labels : List Label} (holds : Invariant state)
    (meets : Meets step Allowed state labels) : Throughout step Invariant state labels := by
  rintro before after rfl reached run
  exact exec_invariant Invariant preserved holds meets.of_append run

/-- **A condition that the state after the step tells** is met along a run throughout which that
state is as it is to be. -/
theorem meets_of_throughout {Allowed : State → Label → Prop} {Property : State → Prop}
    (tells : ∀ state label, (∀ next, step state label = some next → Property next) →
      Allowed state label)
    {state : State} {labels : List Label} (throughout : Throughout step Property state labels) :
    Meets step Allowed state labels := by
  induction labels generalizing state with
  | nil => trivial
  | cons label rest ih =>
    refine ⟨tells state label fun next taken => ?_, fun next taken => ih ?_⟩
    · refine throughout [label] rest rfl next ?_
      rw [exec_cons, taken]
      rfl
    · rintro before after rfl reached run
      refine throughout (label :: before) after rfl reached ?_
      rw [exec_cons, taken]
      exact run

/-- **A condition is exact for a property of the states** if, in the states of an invariant that have
the property, the steps that meet the condition are those that keep it. -/
theorem throughout_iff_meets {Allowed : State → Label → Prop} (Invariant : State → Prop)
    {Property : State → Prop}
    (kept : ∀ state label next, Invariant state → step state label = some next → Invariant next)
    (exact_ : ∀ state label, Invariant state → Property state →
      (Allowed state label ↔ ∀ next, step state label = some next → Property next))
    {state : State} (invariant : Invariant state) (holds : Property state) (labels : List Label) :
    Throughout step Property state labels ↔ Meets step Allowed state labels := by
  induction labels generalizing state with
  | nil =>
    refine iff_of_true ?_ trivial
    intro before after split reached run
    obtain ⟨rfl, -⟩ := List.append_eq_nil_iff.mp split.symm
    rw [exec_nil, Option.some.injEq] at run
    exact run ▸ holds
  | cons label rest ih =>
    constructor
    · intro throughout
      have keeps : ∀ next, step state label = some next → Property next := by
        intro next taken
        refine throughout [label] rest rfl next ?_
        rw [exec_cons, taken]
        rfl
      refine ⟨(exact_ state label invariant holds).mpr keeps, fun next taken => ?_⟩
      refine (ih (kept state label next invariant taken) (keeps next taken)).mp ?_
      rintro before after rfl reached run
      refine throughout (label :: before) after rfl reached ?_
      rw [exec_cons, taken]
      exact run
    · rintro ⟨allowed, later⟩ before after split reached run
      cases before with
      | nil =>
        rw [exec_nil, Option.some.injEq] at run
        exact run ▸ holds
      | cons first before =>
        obtain ⟨rfl, tail⟩ := List.cons.inj split
        rw [exec_cons, Option.bind_eq_some_iff] at run
        obtain ⟨next, taken, run⟩ := run
        have keeps := (exact_ state label invariant holds).mp allowed next taken
        exact (ih (kept state label next invariant taken) keeps).mpr (later next taken) before after
          tail reached run

end ForgeDrive.LabelledSystem
