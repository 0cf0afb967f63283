/-
**Additive checksums, and what an error does to them.**

Words are combined by an operation in which every word is its own inverse (`Exclusive`: exclusive
or). A checksum folds a message with a table that is additive for it; then an error changes the
checksum by the checksum of the error alone (`checksum_combine`), and goes unseen exactly if it
changes the stored checksum by the same (its syndrome is zero).

A checksum that must not be zero on the wire is sent with zero replaced by another word (`merged`).
`merged_eq_iff` says which errors of non-zero syndrome that hides: those whose syndrome is the other
word, and only where the checksum is the word that was replaced before or after the error.
-/

import Mathlib.Data.List.Basic
import Mathlib.Logic.Function.Iterate

namespace ForgeDrive.Checksum

variable {Word : Type*} {op : Word → Word → Word} {zero : Word}

/-- Exclusive or: a commutative group in which every word is its own inverse. -/
structure Exclusive (op : Word → Word → Word) (zero : Word) : Prop where
  assoc : ∀ a b c, op (op a b) c = op a (op b c)
  comm : ∀ a b, op a b = op b a
  zero_op : ∀ a, op zero a = a
  self : ∀ a, op a a = zero

theorem Exclusive.cancel (laws : Exclusive op zero) (a b : Word) : op a (op a b) = b := by
  rw [← laws.assoc, laws.self, laws.zero_op]

theorem Exclusive.eq_iff (laws : Exclusive op zero) (a b : Word) : op a b = zero ↔ a = b := by
  constructor
  · intro none
    rw [← laws.cancel a b, none, laws.comm, laws.zero_op]
  · rintro rfl
    exact laws.self a

theorem Exclusive.op_left_inj (laws : Exclusive op zero) (a b c : Word) :
    op a b = op a c ↔ b = c := by
  constructor
  · intro same
    rw [← laws.cancel a b, same, laws.cancel]
  · rintro rfl
    rfl

/-- The middle two of four words change places. -/
theorem Exclusive.op_op_comm (laws : Exclusive op zero) (a b c d : Word) :
    op (op a b) (op c d) = op (op a c) (op b d) := by
  rw [laws.assoc, laws.assoc, ← laws.assoc b, laws.comm b c, laws.assoc c]

/-! ### Folding a message -/

/-- The checksum of a message: each word is combined with the checksum so far, and looked up. -/
def checksum (op : Word → Word → Word) (table : Word → Word) (start : Word) (message : List Word) :
    Word :=
  message.foldl (fun crc word => table (op crc word)) start

/-- The table is additive. -/
def Additive (op : Word → Word → Word) (table : Word → Word) : Prop :=
  ∀ a b, table (op a b) = op (table a) (table b)

/-- A table of repeated additive steps. -/
theorem Additive.iterate {step : Word → Word} (additive : Additive op step) (n : Nat) :
    Additive op step^[n] := by
  induction n with
  | zero => exact fun _ _ => rfl
  | succ n ih =>
    intro a b
    rw [Function.iterate_succ_apply, additive, ih]
    rfl

/-- **An error changes a checksum by its own checksum.** -/
theorem checksum_combine (laws : Exclusive op zero) {table : Word → Word}
    (additive : Additive op table) (message error : List Word)
    (length : message.length = error.length) (start change : Word) :
    checksum op table (op start change) (List.zipWith op message error) =
      op (checksum op table start message) (checksum op table change error) := by
  induction message generalizing error start change with
  | nil =>
    rw [List.length_eq_zero_iff.mp length.symm]
    rfl
  | cons word message ih =>
    cases error with
    | nil => cases length
    | cons flips error =>
      have next : table (op (op start change) (op word flips)) =
          op (table (op start word)) (table (op change flips)) := by
        rw [laws.op_op_comm, additive]
      show checksum op table (table (op (op start change) (op word flips))) _ = _
      rw [next]
      exact ih error (Nat.succ.inj length) _ _

/-! ### A word that is not sent -/

section Merged

variable [DecidableEq Word]

/-- The word that is sent: `instead`, where it would be `zero`. -/
def merged (zero instead word : Word) : Word := if word = zero then instead else word

/-- **What sending one word for another hides.** A message with checksum `crc` arrives with its
checksum changed by `change` and the stored one by `stored`, and these differ: the two agree only if
they differ by exactly the word sent for `zero`, and the checksum is `zero` on one of the two
sides. -/
theorem merged_eq_iff (laws : Exclusive op zero) {instead change stored : Word}
    (seen : op change stored ≠ zero) (crc : Word) :
    merged zero instead (op crc change) = op (merged zero instead crc) stored ↔
      change ≠ zero ∧ op change stored = instead ∧ (crc = zero ∨ crc = change) := by
  have different : change ≠ stored := fun same => seen ((laws.eq_iff _ _).mpr same)
  have swap : ∀ word, word = op instead stored ↔ op word stored = instead := fun word => by
    rw [← laws.op_left_inj stored, laws.comm instead, laws.cancel, laws.comm stored]
  unfold merged
  by_cases atZero : crc = zero
  · subst atZero
    rw [laws.zero_op, if_pos rfl]
    by_cases none : change = crc
    · subst none
      rw [if_pos rfl]
      refine iff_of_false (fun same => different ?_) (fun all => all.1 rfl)
      rw [← laws.op_left_inj instead, laws.comm instead, laws.zero_op]
      exact same
    · rw [if_neg none, swap]
      exact ⟨fun hit => ⟨none, hit, .inl rfl⟩, fun all => all.2.1⟩
  · by_cases same : crc = change
    · subst same
      rw [laws.self, if_pos rfl, if_neg atZero, eq_comm]
      exact ⟨fun hit => ⟨atZero, hit, .inr rfl⟩, fun all => all.2.1⟩
    · have kept : op crc change ≠ zero := fun none => same ((laws.eq_iff _ _).mp none)
      rw [if_neg kept, if_neg atZero, laws.op_left_inj]
      refine iff_of_false different ?_
      rintro ⟨-, -, hit | hit⟩
      · exact atZero hit
      · exact same hit

/-- **What sending one word for another shows.** The checksum and the stored one change by the same:
the two agree but where the checksum is `zero` on one of the two sides only. -/
theorem merged_same_iff (laws : Exclusive op zero) {instead change : Word}
    (other : instead ≠ zero) (crc : Word) :
    merged zero instead (op crc change) = op (merged zero instead crc) change ↔
      change = zero ∨ (crc ≠ zero ∧ crc ≠ change) := by
  unfold merged
  by_cases none : change = zero
  · subst none
    have kept : op crc change = crc := by rw [laws.comm, laws.zero_op]
    rw [kept, laws.comm, laws.zero_op]
    exact iff_of_true rfl (.inl rfl)
  · by_cases atZero : crc = zero
    · subst atZero
      rw [laws.zero_op, if_neg none, if_pos rfl]
      refine iff_of_false (fun same => other ?_) (fun all => ?_)
      · rw [← laws.op_left_inj change, laws.comm change, ← same, laws.comm, laws.zero_op]
      · rcases all with no | ⟨no, -⟩
        · exact none no
        · exact no rfl
    · by_cases same : crc = change
      · subst same
        rw [laws.self, if_pos rfl, if_neg atZero]
        refine iff_of_false (fun hit => other (hit.trans (laws.self _))) (fun all => ?_)
        rcases all with no | ⟨-, no⟩
        · exact atZero no
        · exact no rfl
      · have kept : op crc change ≠ zero := fun hit => same ((laws.eq_iff _ _).mp hit)
        rw [if_neg kept, if_neg atZero]
        exact iff_of_true rfl (.inr ⟨atZero, same⟩)

end Merged

end ForgeDrive.Checksum
