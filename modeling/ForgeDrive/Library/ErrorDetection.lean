/-
**Which errors a cyclic checksum sees.**

An error is the string of bits in which a message differs from what was sent, and it goes unseen if
it takes the register from zero to zero.

* `parity_foldl_feed` — if the polynomial has an even number of terms, the register has the parity
  of all the bits it was fed, so no odd number of flipped bits goes unseen;
* `foldl_feed_burst` — if its last term is one, no burst that fits into the register goes unseen,
  wherever in the message it is.
-/

import ForgeDrive.Library.ShiftRegister

namespace ForgeDrive.ShiftRegister

variable {w : Nat} {polynomial : BitVec w}

/-! ### Odd numbers of bits -/

/-- The exclusive or of the bits of a string. -/
def parity (message : List Bool) : Bool := message.foldr Bool.xor false

@[simp] theorem parity_nil : parity [] = false := rfl

@[simp] theorem parity_cons (bit : Bool) (message : List Bool) :
    parity (bit :: message) = (bit ^^ parity message) := rfl

@[simp] theorem parity_append (message others : List Bool) :
    parity (message ++ others) = (parity message ^^ parity others) := by
  induction message with
  | nil => rw [List.nil_append, parity_nil, Bool.false_xor]
  | cons bit message ih => rw [List.cons_append, parity_cons, ih, parity_cons, Bool.xor_assoc]

theorem parity_map_xor {Place : Type*} (places : List Place) (x y : Place → Bool) :
    parity (places.map fun place => x place ^^ y place) =
      (parity (places.map x) ^^ parity (places.map y)) := by
  induction places with
  | nil => rfl
  | cons place places ih =>
    rw [List.map_cons, List.map_cons, List.map_cons, parity_cons, parity_cons, parity_cons, ih]
    cases x place <;> cases y place <;> simp

theorem bits_xor (a b : BitVec w) :
    bits (a ^^^ b) = (List.range w).map fun i => a.getMsbD i ^^ b.getMsbD i := by
  unfold bits
  apply List.map_congr_left
  intro i _
  exact BitVec.getMsbD_xor

theorem parity_bits_xor (a b : BitVec w) :
    parity (bits (a ^^^ b)) = (parity (bits a) ^^ parity (bits b)) := by
  rw [bits_xor, parity_map_xor]
  rfl

/-- A register that moves up loses its top bit, and a zero comes in. -/
theorem parity_bits_shiftLeft (register : BitVec w) :
    parity (bits (register <<< 1)) = (register.msb ^^ parity (bits register)) := by
  cases w with
  | zero => rw [BitVec.eq_nil register]; rfl
  | succ n =>
    have moved : bits (register <<< 1) =
        (List.range n).map (fun i => register.getMsbD (i + 1)) ++ [false] := by
      unfold bits
      rw [List.range_succ, List.map_append, List.map_singleton, BitVec.getMsbD_shiftLeft,
        BitVec.getMsbD_of_ge _ _ (Nat.le_refl _)]
      congr 1
      apply List.map_congr_left
      intro i _
      exact BitVec.getMsbD_shiftLeft ..
    have all : bits register =
        register.msb :: (List.range n).map fun i => register.getMsbD (i + 1) := by
      unfold bits
      rw [List.range_succ_eq_map, List.map_cons, List.map_map, BitVec.msb_eq_getMsbD_zero]
      rfl
    rw [moved, all, parity_append, parity_cons, parity_cons, parity_nil, Bool.xor_false,
      Bool.xor_false, ← Bool.xor_assoc, Bool.xor_self, Bool.false_xor]

/-- **One bit changes the parity of the register by its own**, if the polynomial is even: it is
written without its leading term. -/
theorem parity_feed (even : parity (bits polynomial) = true) (register : BitVec w) (bit : Bool) :
    parity (bits (feed polynomial register bit)) = (parity (bits register) ^^ bit) := by
  unfold feed
  split
  · rename_i taps
    rw [parity_bits_xor, parity_bits_shiftLeft, even]
    revert taps
    cases register.msb <;> cases parity (bits register) <;> cases bit <;> decide
  · rename_i taps
    rw [parity_bits_shiftLeft]
    revert taps
    cases register.msb <;> cases parity (bits register) <;> cases bit <;> decide

/-- **The register has the parity of the message.** -/
theorem parity_foldl_feed (even : parity (bits polynomial) = true) (message : List Bool)
    (register : BitVec w) :
    parity (bits (message.foldl (feed polynomial) register)) =
      (parity (bits register) ^^ parity message) := by
  induction message generalizing register with
  | nil => rw [List.foldl_nil, parity_nil, Bool.xor_false]
  | cons bit message ih => rw [List.foldl_cons, ih, parity_feed even, parity_cons, Bool.xor_assoc]

theorem parity_bits_zero : parity (bits (0 : BitVec w)) = false := by
  have twice := parity_bits_xor (0 : BitVec w) 0
  rw [Bool.xor_self, BitVec.xor_self] at twice
  exact twice

/-- The table keeps the parity. -/
theorem parity_table (even : parity (bits polynomial) = true) (word : BitVec w) :
    parity (bits (table polynomial word)) = parity (bits word) := by
  have fed := parity_foldl_feed even (bits word) 0
  have start : (0 : BitVec w) ^^^ word = word := xor_exclusive.zero_op word
  rw [foldl_feed_bits, start, parity_bits_zero, Bool.false_xor] at fed
  exact fed

/-! ### Bursts -/

/-- Every string of as many bits as the register has is a word. -/
theorem exists_word (message : List Bool) (length : message.length = w) :
    ∃ word : BitVec w, bits word = message := by
  subst length
  refine ⟨BitVec.ofBoolListBE message, ?_⟩
  apply List.ext_getElem
  · simp [bits]
  · intro i inside _
    have inside : i < message.length := by simpa [bits] using inside
    simp [bits, inside]

/-- **Zero bits clear no register.** -/
theorem clock_ne_zero (last : polynomial.getLsbD 0 = true) {register : BitVec w}
    (nonzero : register ≠ 0) : clock polynomial register ≠ 0 := by
  intro cleared
  unfold clock feed at cleared
  rw [Bool.xor_false] at cleared
  split at cleared
  · have lowest := congrArg (fun word : BitVec w => word.getLsbD 0) cleared
    simp [last] at lowest
  · rename_i top
    apply nonzero
    apply BitVec.eq_of_getMsbD_eq
    intro i _
    cases i with
    | zero =>
      rw [← BitVec.msb_eq_getMsbD_zero, Bool.eq_false_iff.mpr top]
      simp
    | succ i =>
      have moved := congrArg (fun word : BitVec w => word.getMsbD i) cleared
      rw [BitVec.getMsbD_shiftLeft] at moved
      rw [moved]
      simp

theorem clock_zero : clock polynomial 0 = 0 := by
  unfold clock feed
  simp

theorem table_zero : table polynomial 0 = 0 := Function.iterate_fixed clock_zero w

theorem iterate_clock_ne_zero (last : polynomial.getLsbD 0 = true) {register : BitVec w}
    (nonzero : register ≠ 0) (n : Nat) : (clock polynomial)^[n] register ≠ 0 := by
  induction n with
  | zero => exact nonzero
  | succ n ih =>
    rw [Function.iterate_succ_apply']
    exact clock_ne_zero last ih

theorem foldl_feed_replicate (register : BitVec w) (n : Nat) :
    (List.replicate n false).foldl (feed polynomial) register = (clock polynomial)^[n] register := by
  induction n generalizing register with
  | zero => rfl
  | succ n ih =>
    rw [List.replicate_succ, List.foldl_cons, ih]
    rfl

/-- **A burst that fits into the register is seen**: zeros, then as many bits as the register has,
of which one is set, and zeros again. -/
theorem foldl_feed_burst (last : polynomial.getLsbD 0 = true) (before after : Nat)
    {burst : List Bool} (fits : burst.length = w) (flipped : true ∈ burst) :
    (List.replicate before false ++ burst ++ List.replicate after false).foldl (feed polynomial) 0 ≠
      0 := by
  obtain ⟨word, rfl⟩ := exists_word burst fits
  have nonzero : word ≠ 0 := by
    rintro rfl
    simp [bits] at flipped
  have silent : (clock polynomial)^[before] 0 = 0 := Function.iterate_fixed clock_zero before
  have start : (0 : BitVec w) ^^^ word = word := xor_exclusive.zero_op word
  rw [List.foldl_append, List.foldl_append, foldl_feed_replicate, foldl_feed_replicate, silent,
    foldl_feed_bits, start]
  exact iterate_clock_ne_zero last (iterate_clock_ne_zero last nonzero w) after

end ForgeDrive.ShiftRegister
