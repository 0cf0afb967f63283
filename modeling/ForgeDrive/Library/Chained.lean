/-
**The chained distances of a string.**

Zero stuffing leaves a chain in a string: the first distance is given, and each symbol on the chain
holds the distance to the next (`Chained`). On any string, stuffed or not, the decoder replaces the
symbols on the chain by zero, and nothing else (`unstuff_replaced`).
-/

import ForgeDrive.Library.ZeroStuffing

namespace ForgeDrive.ZeroStuffing

variable {Symbol : Type*} (distance : Symbol → Nat)

/-- The positions at the chained distances: the first is `start` symbols on from before the string,
and from each of them the next is as far on as its symbol says. -/
inductive Chained (string : List Symbol) (start : Nat) : Nat → Prop
  | first : Chained string start (start - 1)
  | next {position : Nat} {symbol : Symbol} (chained : Chained string start position)
      (at_ : string[position]? = some symbol) : Chained string start (position + distance symbol)

/-- The symbols at the chained distances are replaced by `zero`, and no others. -/
structure Replaced (zero : Symbol) (start : Nat) (string result : List Symbol) : Prop where
  length : result.length = string.length
  chained : ∀ position < string.length, Chained distance string start position →
    result[position]? = some zero
  other : ∀ position, ¬ Chained distance string start position →
    result[position]? = string[position]?

variable {distance}

/-- The chain behind the first symbol: it restarts from this symbol if that is on the chain. -/
def restart (distance : Symbol → Nat) (start : Nat) (head : Symbol) : Nat :=
  if start = 1 then distance head else start - 1

theorem Chained.head_or_tail {head : Symbol} {rest : List Symbol} {start position : Nat}
    (positive : ∀ symbol, 0 < distance symbol)
    (chained : Chained distance (head :: rest) start position) (some_ : 0 < start) :
    (position = 0 ∧ start = 1) ∨
      ∃ i, position = i + 1 ∧ Chained distance rest (restart distance start head) i := by
  induction chained with
  | first =>
    by_cases one : start = 1
    · exact .inl ⟨by omega, one⟩
    · refine .inr ⟨start - 1 - 1, by omega, ?_⟩
      rw [restart, if_neg one]
      exact .first
  | @next position symbol _ at_ ih =>
    right
    rcases ih with ⟨rfl, one⟩ | ⟨i, rfl, onRest⟩
    · obtain rfl : head = symbol := Option.some.inj at_
      have some_ := positive head
      refine ⟨distance head - 1, by omega, ?_⟩
      rw [restart, if_pos one]
      exact .first
    · exact ⟨i + distance symbol, by omega, onRest.next at_⟩

theorem Chained.cons {head : Symbol} {rest : List Symbol} {start i : Nat}
    (positive : ∀ symbol, 0 < distance symbol) (some_ : 0 < start)
    (chained : Chained distance rest (restart distance start head) i) :
    Chained distance (head :: rest) start (i + 1) := by
  induction chained with
  | first =>
    by_cases one : start = 1
    · have headPositive := positive head
      have second : Chained distance (head :: rest) start (start - 1 + distance head) :=
        Chained.first.next (by rw [one]; rfl)
      rw [restart, if_pos one, show distance head - 1 + 1 = start - 1 + distance head by omega]
      exact second
    · rw [restart, if_neg one, show start - 1 - 1 + 1 = start - 1 by omega]
      exact .first
  | @next position symbol _ at_ ih =>
    rw [show position + distance symbol + 1 = position + 1 + distance symbol by omega]
    exact ih.next at_

theorem chained_zero_iff {head : Symbol} {rest : List Symbol} {start : Nat}
    (positive : ∀ symbol, 0 < distance symbol) (some_ : 0 < start) :
    Chained distance (head :: rest) start 0 ↔ start = 1 := by
  constructor
  · intro chained
    rcases chained.head_or_tail positive some_ with ⟨-, one⟩ | ⟨i, zero, -⟩
    · exact one
    · exact absurd zero (Nat.succ_ne_zero i).symm
  · rintro rfl
    exact .first

theorem chained_succ_iff {head : Symbol} {rest : List Symbol} {start i : Nat}
    (positive : ∀ symbol, 0 < distance symbol) (some_ : 0 < start) :
    Chained distance (head :: rest) start (i + 1) ↔
      Chained distance rest (restart distance start head) i := by
  constructor
  · intro chained
    rcases chained.head_or_tail positive some_ with ⟨zero, -⟩ | ⟨j, same, onRest⟩
    · exact absurd zero (Nat.succ_ne_zero i)
    · rw [Nat.succ.inj same]
      exact onRest
  · exact Chained.cons positive some_

/-- One more symbol in front. -/
theorem Replaced.cons {zero head symbol : Symbol} {rest result : List Symbol} {start : Nat}
    (positive : ∀ symbol, 0 < distance symbol) (some_ : 0 < start)
    (symbolIs : symbol = if start = 1 then zero else head)
    (tail : Replaced distance zero (restart distance start head) rest result) :
    Replaced distance zero start (head :: rest) (symbol :: result) := by
  refine ⟨by rw [List.length_cons, List.length_cons, tail.length], ?_, ?_⟩
  · intro position inside chained
    cases position with
    | zero =>
      rw [symbolIs, if_pos ((chained_zero_iff positive some_).mp chained)]
      rfl
    | succ i =>
      exact tail.chained i (Nat.lt_of_succ_lt_succ inside)
        ((chained_succ_iff positive some_).mp chained)
  · intro position unchained
    cases position with
    | zero =>
      rw [symbolIs, if_neg fun one => unchained ((chained_zero_iff positive some_).mpr one)]
      rfl
    | succ i =>
      exact tail.other i fun chained =>
        unchained ((chained_succ_iff positive some_).mpr chained)

/-! ### The decoder -/

section Decoder

variable [DecidableEq Symbol] {alphabet : DistanceCode Symbol}

/-- The decoder counts these distances down, to `code 1`. -/
structure Counts (alphabet : DistanceCode Symbol) (distance : Symbol → Nat) : Prop where
  positive : ∀ symbol, 0 < distance symbol
  one : ∀ symbol, distance symbol = 1 ↔ symbol = alphabet.code 1
  next : ∀ symbol, symbol ≠ alphabet.code 1 → distance symbol = distance (alphabet.next symbol) + 1

/-- **On any string the decoder replaces the symbols at the chained distances by zero.** -/
theorem unstuff_replaced (counts : Counts alphabet distance) (countdown : Symbol)
    (string : List Symbol) :
    Replaced distance alphabet.zero (distance countdown) string
      (unstuff alphabet countdown string) := by
  induction string generalizing countdown with
  | nil => exact ⟨rfl, fun _ inside => absurd inside (Nat.not_lt_zero _), fun _ _ => rfl⟩
  | cons head rest ih =>
    have some_ := counts.positive countdown
    rw [unstuff]
    by_cases one : countdown = alphabet.code 1
    · have distanceOne := (counts.one countdown).mpr one
      rw [if_pos one]
      refine Replaced.cons counts.positive some_ (if_pos distanceOne).symm ?_
      rw [restart, if_pos distanceOne]
      exact ih head
    · have notOne : distance countdown ≠ 1 := fun same => one ((counts.one countdown).mp same)
      rw [if_neg one]
      refine Replaced.cons counts.positive some_ (if_neg notOne).symm ?_
      rw [restart, if_neg notOne, counts.next countdown one, Nat.add_sub_cancel]
      exact ih (alphabet.next countdown)

end Decoder

end ForgeDrive.ZeroStuffing
