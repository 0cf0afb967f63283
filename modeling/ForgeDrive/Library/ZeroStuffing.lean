/-
**Zero stuffing: removing one symbol from a string by writing distances over it.**

A string over an alphabet with a distinguished `zero` symbol is rewritten so that the symbol no
longer occurs: each zero is replaced by the distance to the next zero (or to one past the end), and
the distance to the first zero travels in front of the string. The alphabet writes a distance by
`code` and the decoder counts it down by `next`; an alphabet with finitely many symbols tells only
the distances `1 … limit` apart, and all of `1 … limit - 1` from `zero` (`DistanceCode`).

* `unstuff_stuff` — the decoder returns the original string when it is shorter than `limit`;
* `stuff_ne_zero` — no symbol of the stuffed string is `zero`;
* `overwrite_stuff_iff` — a decoder that reads each distance only after it has overwritten it with
  `zero` returns the original string exactly when that has at most one `zero`.
-/

import Mathlib.Data.List.Basic
import Mathlib.Data.List.Count
import Mathlib.Tactic.Linarith

namespace ForgeDrive.ZeroStuffing

/-- An alphabet that can write distances: `code` writes one, `next` counts one down. -/
structure DistanceCode (Symbol : Type*) where
  zero : Symbol
  code : Nat → Symbol
  next : Symbol → Symbol
  /-- The distances the alphabet tells apart are `1 … limit`. -/
  limit : Nat
  next_code : ∀ distance, 0 < distance → next (code (distance + 1)) = code distance
  code_ne_one : ∀ distance, 1 < distance → distance ≤ limit → code distance ≠ code 1
  code_ne_zero : ∀ distance, 0 < distance → distance < limit → code distance ≠ zero
  code_limit : code limit = zero

variable {Symbol : Type*} [DecidableEq Symbol] (alphabet : DistanceCode Symbol)

/-- The distance to the first zero and the string with every zero overwritten by the distance to
the next one. -/
def stuff : List Symbol → Nat × List Symbol
  | [] => (1, [])
  | symbol :: rest =>
    if symbol = alphabet.zero then (1, alphabet.code (stuff rest).1 :: (stuff rest).2)
    else ((stuff rest).1 + 1, symbol :: (stuff rest).2)

/-- The decoder: a countdown that restores a zero, and reads the next distance, when it is at
`code 1`. -/
def unstuff : Symbol → List Symbol → List Symbol
  | _, [] => []
  | countdown, symbol :: rest =>
    if countdown = alphabet.code 1 then alphabet.zero :: unstuff symbol rest
    else symbol :: unstuff (alphabet.next countdown) rest

/-- The countdown the decoder is left with. -/
def countdownAfter : Symbol → List Symbol → Symbol
  | countdown, [] => countdown
  | countdown, symbol :: rest =>
    countdownAfter (if countdown = alphabet.code 1 then symbol else alphabet.next countdown) rest

theorem stuff_cons_zero (rest : List Symbol) :
    stuff alphabet (alphabet.zero :: rest) =
      (1, alphabet.code (stuff alphabet rest).1 :: (stuff alphabet rest).2) := by
  rw [stuff, if_pos rfl]

theorem stuff_cons_of_ne {symbol : Symbol} (nonzero : symbol ≠ alphabet.zero)
    (rest : List Symbol) :
    stuff alphabet (symbol :: rest) =
      ((stuff alphabet rest).1 + 1, symbol :: (stuff alphabet rest).2) := by
  rw [stuff, if_neg nonzero]

@[simp] theorem stuff_length (string : List Symbol) :
    (stuff alphabet string).2.length = string.length := by
  induction string with
  | nil => rfl
  | cons symbol rest ih =>
    rw [stuff]
    split <;> simp only [List.length_cons, ih]

theorem stuff_distance_pos (string : List Symbol) : 0 < (stuff alphabet string).1 := by
  cases string with
  | nil => exact Nat.one_pos
  | cons symbol rest =>
    rw [stuff]
    split
    · exact Nat.one_pos
    · exact Nat.succ_pos _

theorem stuff_distance_le (string : List Symbol) :
    (stuff alphabet string).1 ≤ string.length + 1 := by
  induction string with
  | nil => exact le_rfl
  | cons symbol rest ih =>
    rw [stuff]
    split
    · exact Nat.succ_le_succ (Nat.zero_le _)
    · exact Nat.succ_le_succ ih

/-- The distance to the first zero is as large as it can be exactly when there is none. -/
theorem stuff_distance_eq_iff (string : List Symbol) :
    (stuff alphabet string).1 = string.length + 1 ↔ alphabet.zero ∉ string := by
  induction string with
  | nil => exact iff_of_true rfl List.not_mem_nil
  | cons symbol rest ih =>
    by_cases isZero : symbol = alphabet.zero
    · subst isZero
      rw [stuff_cons_zero, List.length_cons]
      refine iff_of_false ?_ (not_not_intro List.mem_cons_self)
      omega
    · rw [stuff_cons_of_ne alphabet isZero, List.length_cons, Nat.add_right_cancel_iff, ih,
        List.mem_cons, not_or]
      exact (and_iff_right (Ne.symm isZero)).symm

/-- **The decoder returns the original string.** -/
theorem unstuff_stuff (string : List Symbol) (short : string.length < alphabet.limit) :
    unstuff alphabet (alphabet.code (stuff alphabet string).1) (stuff alphabet string).2 =
      string := by
  induction string with
  | nil => rfl
  | cons symbol rest ih =>
    have shorter : rest.length < alphabet.limit := Nat.lt_of_succ_lt short
    by_cases isZero : symbol = alphabet.zero
    · subst isZero
      rw [stuff_cons_zero, unstuff, if_pos rfl, ih shorter]
    · have bound := stuff_distance_le alphabet rest
      have positive := stuff_distance_pos alphabet rest
      have notOne : alphabet.code ((stuff alphabet rest).1 + 1) ≠ alphabet.code 1 :=
        alphabet.code_ne_one _ (Nat.succ_lt_succ positive)
          (Nat.succ_le_of_lt (lt_of_le_of_lt bound short))
      rw [stuff_cons_of_ne alphabet isZero, unstuff, if_neg notOne,
        alphabet.next_code _ positive, ih shorter]

/-- **No zero is left in a stuffed string.** -/
theorem stuff_ne_zero (string : List Symbol) (short : string.length < alphabet.limit) :
    ∀ symbol ∈ (stuff alphabet string).2, symbol ≠ alphabet.zero := by
  induction string with
  | nil => exact fun _ member => by cases member
  | cons head rest ih =>
    have shorter : rest.length < alphabet.limit := Nat.lt_of_succ_lt short
    intro symbol member
    by_cases isZero : head = alphabet.zero
    · subst isZero
      rw [stuff_cons_zero] at member
      rcases List.mem_cons.mp member with rfl | member
      · exact alphabet.code_ne_zero _ (stuff_distance_pos alphabet rest)
          (lt_of_le_of_lt (stuff_distance_le alphabet rest) short)
      · exact ih shorter symbol member
    · rw [stuff_cons_of_ne alphabet isZero] at member
      rcases List.mem_cons.mp member with rfl | member
      · exact isZero
      · exact ih shorter symbol member

/-! ### Decoding over the string being read -/

/-- The decoder that writes its output over its input: where it restores a zero, the distance it
reads next is the zero it has just written. -/
def overwrite : Symbol → List Symbol → List Symbol
  | _, [] => []
  | countdown, symbol :: rest =>
    if countdown = alphabet.code 1 then alphabet.zero :: overwrite alphabet.zero rest
    else symbol :: overwrite (alphabet.next countdown) rest

omit [DecidableEq Symbol] in
/-- **The step of a countdown that starts beyond the end of the string**: it does not end at the first
symbol, and then starts beyond the end of the rest. -/
theorem code_far {remaining distance : Nat} (far : remaining + 1 < distance)
    (known : distance ≤ alphabet.limit) :
    ∃ previous, distance = previous + 1 ∧ remaining < previous ∧ previous ≤ alphabet.limit ∧
      alphabet.code distance ≠ alphabet.code 1 ∧
      alphabet.next (alphabet.code distance) = alphabet.code previous := by
  obtain ⟨previous, rfl⟩ : ∃ previous, distance = previous + 1 :=
    ⟨distance - 1, (Nat.succ_pred_eq_of_pos (Nat.lt_of_le_of_lt (Nat.zero_le _) far)).symm⟩
  have farRest : remaining < previous := Nat.lt_of_succ_lt_succ far
  have positive : 0 < previous := Nat.lt_of_le_of_lt (Nat.zero_le _) farRest
  exact ⟨previous, rfl, farRest, Nat.le_of_succ_le known,
    alphabet.code_ne_one _ (Nat.succ_lt_succ positive) known, alphabet.next_code _ positive⟩

/-- A countdown that starts beyond the end of the string restores nothing. -/
theorem overwrite_far (string : List Symbol) {distance : Nat} (far : string.length < distance)
    (known : distance ≤ alphabet.limit) :
    overwrite alphabet (alphabet.code distance) string = string := by
  induction string generalizing distance with
  | nil => rfl
  | cons symbol rest ih =>
    obtain ⟨previous, -, farRest, knownRest, notOne, next⟩ := code_far alphabet far known
    rw [overwrite, if_neg notOne, next, ih farRest knownRest]

/-- The countdown such a string is left with. -/
theorem countdownAfter_far (string : List Symbol) {distance : Nat} (far : string.length < distance)
    (known : distance ≤ alphabet.limit) :
    countdownAfter alphabet (alphabet.code distance) string =
      alphabet.code (distance - string.length) := by
  induction string generalizing distance with
  | nil => rfl
  | cons symbol rest ih =>
    obtain ⟨previous, rfl, farRest, knownRest, notOne, next⟩ := code_far alphabet far known
    rw [countdownAfter, if_neg notOne, next, ih farRest knownRest, List.length_cons,
      Nat.add_sub_add_right]

/-- A string without zeros is its own stuffing. -/
theorem stuff_of_no_zero (string : List Symbol) (none : alphabet.zero ∉ string) :
    stuff alphabet string = (string.length + 1, string) := by
  induction string with
  | nil => rfl
  | cons symbol rest ih =>
    have nonzero : symbol ≠ alphabet.zero := fun same => none (same ▸ List.mem_cons_self)
    rw [stuff_cons_of_ne alphabet nonzero, ih fun member => none (List.mem_cons_of_mem _ member),
      List.length_cons]

/-- **Overwriting is harmless exactly for strings with at most one zero.** After the first zero the
countdown restarts from `zero`, the code of `limit`, and reaches nothing within the string. -/
theorem overwrite_stuff_iff (string : List Symbol) (short : string.length < alphabet.limit) :
    overwrite alphabet (alphabet.code (stuff alphabet string).1) (stuff alphabet string).2 =
      string ↔ string.count alphabet.zero ≤ 1 := by
  induction string with
  | nil => simp [stuff, overwrite]
  | cons symbol rest ih =>
    have shorter : rest.length < alphabet.limit := Nat.lt_of_succ_lt short
    by_cases isZero : symbol = alphabet.zero
    · subst isZero
      have raw : overwrite alphabet alphabet.zero (stuff alphabet rest).2 =
          (stuff alphabet rest).2 := by
        rw [← alphabet.code_limit]
        exact overwrite_far alphabet _ (by rw [stuff_length]; exact shorter) le_rfl
      rw [stuff_cons_zero, overwrite, if_pos rfl, raw, List.count_cons_self]
      constructor
      · intro same
        have clean := stuff_ne_zero alphabet rest shorter
        rw [List.tail_eq_of_cons_eq same] at clean
        rw [List.count_eq_zero.mpr fun member => clean _ member rfl]
      · intro few
        have none : alphabet.zero ∉ rest := List.count_eq_zero.mp (by omega)
        rw [stuff_of_no_zero alphabet rest none]
    · have bound := stuff_distance_le alphabet rest
      have positive := stuff_distance_pos alphabet rest
      have notOne : alphabet.code ((stuff alphabet rest).1 + 1) ≠ alphabet.code 1 :=
        alphabet.code_ne_one _ (Nat.succ_lt_succ positive)
          (Nat.succ_le_of_lt (lt_of_le_of_lt bound short))
      rw [stuff_cons_of_ne alphabet isZero, overwrite, if_neg notOne,
        alphabet.next_code _ positive, List.cons.injEq, ih shorter,
        List.count_cons_of_ne isZero]
      exact and_iff_right rfl

end ForgeDrive.ZeroStuffing
