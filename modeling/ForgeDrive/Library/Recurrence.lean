/-
**Recurrence: a machine that does something again and again, each time within a bound.**

What the machine is to do is observed in its events. One thing is due at a time, and after it the
`next`. A rank bounds the steps that are left until then; a step either lowers it, or does what is due
and starts over with the `allowance` of the next.

* `turns` — so many things in turn;
* `run_recurs` — a run does things in turn, and how few steps it has is bounded by what they may take.
-/

import ForgeDrive.Library.EventMachine

namespace ForgeDrive.Recurrence

open EventMachine (run)

variable {State Input Event Kind : Type*}

/-- So many things, each followed by the next. -/
def turns (next : Kind → Kind) : Kind → Nat → List Kind
  | _, 0 => []
  | kind, count + 1 => kind :: turns next (next kind) count

section Turns

variable {next : Kind → Kind}

/-- What they may take, one after the other. -/
def cost (next : Kind → Kind) (allowance : Kind → Nat) : Kind → Nat → Nat
  | _, 0 => 0
  | kind, count + 1 => allowance kind + cost next allowance (next kind) count

@[simp] theorem cost_succ (allowance : Kind → Nat) (kind : Kind) (count : Nat) :
    cost next allowance kind (count + 1) =
      allowance kind + cost next allowance (next kind) count := rfl

/-- Fewer things in turn take no more. -/
theorem cost_mono (next : Kind → Kind) (allowance : Kind → Nat) (kind : Kind) {fewer more : Nat}
    (le : fewer ≤ more) :
    cost next allowance kind fewer ≤ cost next allowance kind more := by
  induction fewer generalizing kind more with
  | zero => exact Nat.zero_le _
  | succ fewer ih =>
    obtain ⟨more, rfl⟩ : ∃ rest, more = rest + 1 := ⟨more - 1, by omega⟩
    exact Nat.add_le_add_left (ih (next kind) (Nat.le_of_succ_le_succ le)) (allowance kind)

end Turns

/-- **What one step does to what is due**: it comes closer, or it is done and the next is due. -/
structure Recurs (step : State → Input → State × List Event) (observed : List Event → List Kind)
    (next : Kind → Kind) (allowance : Kind → Nat) (Permitted : Input → Prop)
    (Holds : State → Prop) (due : State → Kind) (rank : State → Nat) : Prop where
  positive : ∀ state, Holds state → 0 < rank state
  kept : ∀ state input, Holds state → Permitted input → Holds (step state input).1
  does : ∀ state input, Holds state → Permitted input →
    (observed (step state input).2 = [] ∧ due (step state input).1 = due state ∧
        rank (step state input).1 < rank state) ∨
      (observed (step state input).2 = [due state] ∧ due (step state input).1 = next (due state) ∧
        rank (step state input).1 ≤ allowance (next (due state)))

variable {step : State → Input → State × List Event} {observed : List Event → List Kind}
  {next : Kind → Kind} {allowance : Kind → Nat} {Permitted : Input → Prop} {Holds : State → Prop}
  {due : State → Kind} {rank : State → Nat}

/-- **A run does things in turn**, and it has fewer steps than they and the one that is due then may
take. -/
theorem run_recurs
    (recurs : Recurs step observed next allowance Permitted Holds due rank)
    (none : observed [] = [])
    (append : ∀ first second, observed (first ++ second) = observed first ++ observed second)
    {state : State} (holds : Holds state) {inputs : List Input}
    (permitted : ∀ input ∈ inputs, Permitted input) :
    ∃ count, observed (run step state inputs).2 = turns next (due state) count ∧
      inputs.length < rank state + cost next allowance (next (due state)) count := by
  induction inputs generalizing state with
  | nil => exact ⟨0, none, recurs.positive state holds⟩
  | cons input rest ih =>
    obtain ⟨here, later⟩ := List.forall_mem_cons.mp permitted
    obtain ⟨count, inTurn, few⟩ := ih (recurs.kept state input holds here) later
    simp only [EventMachine.run_cons, append, List.length_cons]
    rcases recurs.does state input holds here with ⟨silent, same, closer⟩ | ⟨done, after, fresh⟩
    · rw [same] at inTurn few
      exact ⟨count, by rw [silent, List.nil_append, inTurn], by omega⟩
    · rw [after] at inTurn few
      have positive := recurs.positive state holds
      refine ⟨count + 1, by rw [done, inTurn]; rfl, ?_⟩
      rw [cost_succ]
      omega

end ForgeDrive.Recurrence
