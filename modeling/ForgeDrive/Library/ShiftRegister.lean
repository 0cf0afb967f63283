/-
**A cyclic checksum, bit by bit and word by word.**

The register of a cyclic checksum is fed the bits of a message, one at a time (`feed`): it moves up
by one place, and where the bit it loses differs from the message's bit, the polynomial is added.
The checksum (`Crc.ofBits`) is what the register holds after the last bit, with a last word added.

* `feed_xor` — feeding is additive in the register and the bit together;
* `foldl_feed_bits` — the bits of a whole word, from the top one down, leave what the word itself
  added to the register leaves after as many zero bits;
* `ofBits_flatMap` — so a message of words can be read a word at a time, with a table that holds for
  each word what it leaves after these zero bits.
-/

import ForgeDrive.Library.Checksum

namespace ForgeDrive.ShiftRegister

open Checksum (Exclusive Additive checksum)

variable {w : Nat}

theorem xor_exclusive : Exclusive (fun a b : BitVec w => a ^^^ b) 0 where
  assoc := BitVec.xor_assoc
  comm := BitVec.xor_comm
  zero_op _ := BitVec.zero_xor
  self _ := BitVec.xor_self

/-! ### One bit -/

/-- One message bit. The polynomial is written without its leading coefficient, which is the bit
that the register loses. -/
def feed (polynomial register : BitVec w) (bit : Bool) : BitVec w :=
  if register.msb ^^ bit then register <<< 1 ^^^ polynomial else register <<< 1

/-- **Feeding is additive.** -/
theorem feed_xor (polynomial a b : BitVec w) (x y : Bool) :
    feed polynomial (a ^^^ b) (x ^^ y) = feed polynomial a x ^^^ feed polynomial b y := by
  have taps : ((a ^^^ b).msb ^^ (x ^^ y)) = ((a.msb ^^ x) ^^ (b.msb ^^ y)) := by
    rw [BitVec.msb_xor, Bool.xor_assoc, Bool.xor_assoc, Bool.xor_left_comm b.msb]
  unfold feed
  rw [taps, BitVec.shiftLeft_xor_distrib]
  cases a.msb ^^ x <;> cases b.msb ^^ y
  · rfl
  · exact BitVec.xor_assoc _ _ _
  · show a <<< 1 ^^^ b <<< 1 ^^^ polynomial = a <<< 1 ^^^ polynomial ^^^ b <<< 1
    rw [BitVec.xor_assoc, BitVec.xor_comm (b <<< 1), BitVec.xor_assoc]
  · show a <<< 1 ^^^ b <<< 1 = a <<< 1 ^^^ polynomial ^^^ (b <<< 1 ^^^ polynomial)
    rw [xor_exclusive.op_op_comm (a <<< 1), BitVec.xor_self, BitVec.xor_zero]

/-- A register that is fed its own top bit only moves up. -/
theorem feed_msb (polynomial register : BitVec w) :
    feed polynomial register register.msb = register <<< 1 := by
  unfold feed
  rw [Bool.xor_self]
  rfl

/-- A zero bit. -/
def clock (polynomial register : BitVec w) : BitVec w := feed polynomial register false

theorem clock_additive (polynomial : BitVec w) :
    Additive (fun a b : BitVec w => a ^^^ b) (clock polynomial) :=
  fun a b => feed_xor polynomial a b false false

/-- The top bit of a word is fed: the same as the word added to the register, and what is left of it
behind the top bit taken out again. -/
theorem feed_top (polynomial register word : BitVec w) :
    feed polynomial register word.msb ^^^ word <<< 1 = clock polynomial (register ^^^ word) := by
  have both := feed_xor polynomial register word word.msb word.msb
  rw [Bool.xor_self, feed_msb] at both
  exact both.symm

/-! ### The bits of a word -/

/-- The bits of a word, from the top one down. -/
def bits (word : BitVec w) : List Bool := (List.range w).map word.getMsbD

/-- What a word leaves after as many zero bits as it has bits. -/
def table (polynomial word : BitVec w) : BitVec w := (clock polynomial)^[w] word

theorem table_additive (polynomial : BitVec w) :
    Additive (fun a b : BitVec w => a ^^^ b) (table polynomial) :=
  (clock_additive polynomial).iterate w

/-- After the first `n` bits of a word. The rest of it is not in the register yet. -/
theorem foldl_feed_take (polynomial register word : BitVec w) (n : Nat) :
    ((List.range n).map word.getMsbD).foldl (feed polynomial) register ^^^ word <<< n =
      (clock polynomial)^[n] (register ^^^ word) := by
  induction n with
  | zero => rw [BitVec.shiftLeft_zero]; rfl
  | succ n ih =>
    have top : word.getMsbD n = (word <<< n).msb := by
      rw [BitVec.msb_shiftLeft]
    rw [List.range_succ, List.map_append, List.foldl_append, Function.iterate_succ_apply', ← ih,
      BitVec.shiftLeft_add, ← feed_top, ← top]
    rfl

/-- **The bits of a word.** -/
theorem foldl_feed_bits (polynomial register word : BitVec w) :
    (bits word).foldl (feed polynomial) register = table polynomial (register ^^^ word) := by
  have all := foldl_feed_take polynomial register word w
  rw [BitVec.shiftLeft_eq_zero (Nat.le_refl w), BitVec.xor_zero] at all
  exact all

/-- The bits of a message of words. -/
theorem foldl_feed_flatMap (polynomial register : BitVec w) (message : List (BitVec w)) :
    (message.flatMap bits).foldl (feed polynomial) register =
      checksum (fun a b => a ^^^ b) (table polynomial) register message := by
  unfold checksum
  rw [List.foldl_flatMap]
  congr 1
  funext crc word
  exact foldl_feed_bits polynomial crc word

/-! ### Checksums -/

/-- A cyclic checksum of `w` bits that reflects nothing: the message is read from the top bit of
each word on, and the top bit of the register is the top bit of the checksum. -/
structure Crc (w : Nat) where
  polynomial : BitVec w
  init : BitVec w
  xorOut : BitVec w

/-- The checksum of a string of bits. -/
def Crc.ofBits (crc : Crc w) (message : List Bool) : BitVec w :=
  message.foldl (feed crc.polynomial) crc.init ^^^ crc.xorOut

/-- **A checksum a word at a time.** -/
theorem Crc.ofBits_flatMap (crc : Crc w) (message : List (BitVec w)) :
    crc.ofBits (message.flatMap bits) =
      checksum (fun a b => a ^^^ b) (table crc.polynomial) crc.init message ^^^ crc.xorOut := by
  unfold Crc.ofBits
  rw [foldl_feed_flatMap]

end ForgeDrive.ShiftRegister
