/-
**Fixed-point arithmetic in machine words.**

A fixed-point value is a word of 32 bits, and a product of two is computed in 64 bits, shifted right
and cut to 32 bits again. Read as integers:

* `toInt_product` — a product of words does not overflow in 64 bits;
* `toInt_shift`, `toInt_shift64` — a shift to the right divides, rounding down;
* `toInt_cut`, `toInt_cut_over`, `toInt_upper` — a value cut to 32 bits is itself, or less by `2^32`;
* `toInt_sum`, `toInt_scaled`, `toInt_quotient` — sums, products and quotients that fit are those of
  the integers;
* `Represents` — a word of 64 bits with an integer of a bounded magnitude, and how the operations keep
  it;
* `Checked` — words whose operations give nothing where they overflow; `Evaluates` says that they do
  not.
-/

import Mathlib.Algebra.Order.Ring.Abs
import Mathlib.Algebra.Order.Ring.Int
import Mathlib.Tactic.Linarith

namespace ForgeDrive.FixedPoint

/-! ### Words as integers -/

theorem toInt_bounds (x : Int32) : -2 ^ 31 ≤ x.toInt ∧ x.toInt < 2 ^ 31 :=
  ⟨x.le_toInt, x.toInt_lt⟩

/-- A shift by a literal divides, rounding down. -/
theorem toInt_shift (x amount : Int32) {n : Nat} (literal : (amount.toBitVec.smod 32).toNat = n) :
    (x >>> amount).toInt = x.toInt / 2 ^ n := by
  show (x.toBitVec.sshiftRight' (amount.toBitVec.smod 32)).toInt = _
  rw [BitVec.sshiftRight', literal, BitVec.toInt_sshiftRight, Int.shiftRight_eq_div_pow]
  rfl

theorem toInt_shift64 (x amount : Int64) {n : Nat}
    (literal : (amount.toBitVec.smod 64).toNat = n) :
    (x >>> amount).toInt = x.toInt / 2 ^ n := by
  show (x.toBitVec.sshiftRight' (amount.toBitVec.smod 64)).toInt = _
  rw [BitVec.sshiftRight', literal, BitVec.toInt_sshiftRight, Int.shiftRight_eq_div_pow]
  rfl

/-- The magnitude of a word that is not the least one. -/
theorem toInt_abs {x : Int32} (notLeast : x.toInt ≠ -2 ^ 31) :
    (if x < 0 then -x else x).toInt = |x.toInt| := by
  have bounds := toInt_bounds x
  have sign : x < 0 ↔ x.toInt < 0 := Int32.lt_iff_toInt_lt
  by_cases negative : x < 0
  · rw [if_pos negative, abs_of_neg (sign.mp negative), Int32.toInt_neg]
    exact Int.bmod_eq_of_le (by norm_num; omega) (by norm_num; omega)
  · rw [if_neg negative, abs_of_nonneg (Int.not_lt.mp (mt sign.mpr negative))]

/-! ### Products -/

/-- A product of two words has a magnitude of at most `2^62`. -/
theorem product_bounds {a b : Int} (first : -2 ^ 31 ≤ a ∧ a < 2 ^ 31)
    (second : -2 ^ 31 ≤ b ∧ b < 2 ^ 31) : -2 ^ 62 ≤ a * b ∧ a * b ≤ 2 ^ 62 := by
  have magnitude : |a * b| ≤ 2 ^ 31 * 2 ^ 31 := by
    rw [abs_mul]
    exact mul_le_mul (abs_le.mpr ⟨first.1, first.2.le⟩) (abs_le.mpr ⟨second.1, second.2.le⟩)
      (abs_nonneg b) (by norm_num)
  exact abs_le.mp (by linarith)

/-- A product that fits in 64 bits. -/
theorem toInt_scaled64 {a b : Int64}
    (fits : -2 ^ 63 ≤ a.toInt * b.toInt ∧ a.toInt * b.toInt < 2 ^ 63) :
    (a * b).toInt = a.toInt * b.toInt := by
  rw [Int64.toInt_mul]
  exact Int.bmod_eq_of_le (by norm_num; linarith) (by norm_num; linarith)

/-- **A product of two words** always does. -/
theorem toInt_product (a b : Int32) :
    (a.toInt64 * b.toInt64).toInt = a.toInt * b.toInt := by
  have bounds := product_bounds (toInt_bounds a) (toInt_bounds b)
  rw [toInt_scaled64, Int32.toInt_toInt64, Int32.toInt_toInt64]
  rw [Int32.toInt_toInt64, Int32.toInt_toInt64]
  exact ⟨by linarith, by linarith⟩

/-- A product that fits in a word. -/
theorem toInt_scaled {a b : Int32} (fits : -2 ^ 31 ≤ a.toInt * b.toInt ∧ a.toInt * b.toInt < 2 ^ 31) :
    (a * b).toInt = a.toInt * b.toInt := by
  rw [Int32.toInt_mul]
  exact Int.bmod_eq_of_le (by norm_num; linarith) (by norm_num; linarith)

/-! ### Sums, cuts and quotients -/

theorem toInt_sum {a b : Int64} (fits : -2 ^ 63 ≤ a.toInt + b.toInt ∧ a.toInt + b.toInt < 2 ^ 63) :
    (a + b).toInt = a.toInt + b.toInt := by
  rw [Int64.toInt_add]
  exact Int.bmod_eq_of_le (by norm_num; linarith) (by norm_num; linarith)

theorem toInt_sum32 {a b : Int32} (fits : -2 ^ 31 ≤ a.toInt + b.toInt ∧ a.toInt + b.toInt < 2 ^ 31) :
    (a + b).toInt = a.toInt + b.toInt := by
  rw [Int32.toInt_add]
  exact Int.bmod_eq_of_le (by norm_num; linarith) (by norm_num; linarith)

theorem toInt_difference32 {a b : Int32}
    (fits : -2 ^ 31 ≤ a.toInt - b.toInt ∧ a.toInt - b.toInt < 2 ^ 31) :
    (a - b).toInt = a.toInt - b.toInt := by
  rw [Int32.toInt_sub]
  exact Int.bmod_eq_of_le (by norm_num; linarith) (by norm_num; linarith)

/-- **A value that fits in a word** stays what it is when it is cut. -/
theorem toInt_cut {x : Int64} (fits : -2 ^ 31 ≤ x.toInt ∧ x.toInt < 2 ^ 31) :
    x.toInt32.toInt = x.toInt := by
  rw [Int64.toInt_toInt32]
  exact Int.bmod_eq_of_le (by norm_num; linarith) (by norm_num; linarith)

/-- **A value that is too large by a bit** becomes negative when it is cut. -/
theorem toInt_cut_over {x : Int64} (high : 2 ^ 31 ≤ x.toInt ∧ x.toInt < 2 ^ 32) :
    x.toInt32.toInt = x.toInt - 2 ^ 32 := by
  rw [Int64.toInt_toInt32]
  norm_num [Int.bmod] at high ⊢
  omega

/-- The upper bits of a word of 64 fit in a word. -/
theorem toInt_upper (x amount : Int64) {n : Nat} (literal : (amount.toBitVec.smod 64).toNat = n)
    (upper : 32 ≤ n) : (x >>> amount).toInt32.toInt = x.toInt / 2 ^ n := by
  have shifted := toInt_shift64 x amount literal
  have positive : (0 : Int) < 2 ^ n := pow_pos (by norm_num) n
  have unit : (2 : Int) ^ 32 ≤ 2 ^ n := pow_le_pow_right₀ (by norm_num) upper
  have low : -2 ^ 31 ≤ x.toInt / 2 ^ n :=
    Int.le_ediv_of_mul_le positive (by linarith [x.le_toInt])
  have high : x.toInt / 2 ^ n < 2 ^ 31 :=
    Int.ediv_lt_of_lt_mul positive (by linarith [x.toInt_lt])
  rw [toInt_cut (shifted ▸ ⟨low, high⟩), shifted]

/-- A quotient of values that are not negative is that of the integers. -/
theorem toInt_quotient {a b : Int32} (dividend : 0 ≤ a.toInt) (divisor : 0 < b.toInt) :
    (a / b).toInt = a.toInt / b.toInt := by
  have sign : b ≠ -1 := by
    rintro rfl
    exact absurd divisor (by decide)
  rw [Int32.toInt_div_of_ne_right a b sign, Int.tdiv_eq_ediv_of_nonneg dividend]

/-! ### Values of a bounded magnitude -/

/-- The word stands for the integer, which is no larger than the bound. -/
structure Represents (x : Int64) (value bound : Int) : Prop where
  toInt : x.toInt = value
  le : |value| ≤ bound

namespace Represents

variable {x y : Int64} {value other bound most : Int}

theorem word {x : Int32} (le : |x.toInt| ≤ bound) : Represents x.toInt64 x.toInt bound :=
  ⟨x.toInt_toInt64, le⟩

theorem word_of_any (x : Int32) : Represents x.toInt64 x.toInt (2 ^ 31) :=
  word (abs_le.mpr ⟨(toInt_bounds x).1, (toInt_bounds x).2.le⟩)

theorem sum (first : Represents x value bound) (second : Represents y other most)
    (fits : bound + most < 2 ^ 63) : Represents (x + y) (value + other) (bound + most) := by
  have magnitude := (abs_add_le value other).trans (add_le_add first.le second.le)
  have bounds := abs_le.mp magnitude
  refine ⟨?_, magnitude⟩
  rw [toInt_sum, first.toInt, second.toInt]
  rw [first.toInt, second.toInt]
  exact ⟨by linarith, by linarith⟩

theorem difference (first : Represents x value bound) (second : Represents y other most)
    (fits : bound + most < 2 ^ 63) : Represents (x - y) (value - other) (bound + most) := by
  have magnitude := (abs_sub value other).trans (add_le_add first.le second.le)
  have bounds := abs_le.mp magnitude
  refine ⟨?_, magnitude⟩
  rw [Int64.toInt_sub, first.toInt, second.toInt]
  exact Int.bmod_eq_of_le (by norm_num at fits ⊢; linarith) (by norm_num at fits ⊢; linarith)

theorem product (first : Represents x value bound) (second : Represents y other most)
    (fits : bound * most < 2 ^ 63) : Represents (x * y) (value * other) (bound * most) := by
  have magnitude : |value * other| ≤ bound * most := by
    rw [abs_mul]
    exact mul_le_mul first.le second.le (abs_nonneg other) ((abs_nonneg value).trans first.le)
  have bounds := abs_le.mp magnitude
  refine ⟨?_, magnitude⟩
  rw [toInt_scaled64, first.toInt, second.toInt]
  rw [first.toInt, second.toInt]
  exact ⟨by linarith, by linarith⟩

/-- A shift to the left by a literal multiplies. -/
theorem shiftLeft (first : Represents x value bound) (amount : Int64) {n : Nat}
    (literal : (amount.toBitVec.smod 64).toNat = n) (fits : bound * 2 ^ n < 2 ^ 63) :
    Represents (x <<< amount) (value * 2 ^ n) (bound * 2 ^ n) := by
  have positive : (0 : Int) < 2 ^ n := pow_pos (by norm_num) n
  have magnitude : |value * 2 ^ n| ≤ bound * 2 ^ n := by
    rw [abs_mul, abs_of_pos positive]
    exact mul_le_mul_of_nonneg_right first.le positive.le
  have bounds := abs_le.mp magnitude
  have word : x.toInt = (x.toBitVec.toNat : Int).bmod (2 ^ 64) := x.toBitVec.toInt_eq_toNat_bmod
  have shifted : (x <<< amount).toInt = (x.toInt * 2 ^ n).bmod (2 ^ 64) := by
    show (x.toBitVec <<< (amount.toBitVec.smod 64)).toInt = _
    rw [BitVec.shiftLeft_eq', literal, BitVec.toInt_shiftLeft, Nat.shiftLeft_eq, word,
      Int.bmod_mul_bmod]
    push_cast
    rfl
  refine ⟨?_, magnitude⟩
  rw [shifted, first.toInt]
  exact Int.bmod_eq_of_le (by norm_num at fits ⊢; linarith) (by norm_num at fits ⊢; linarith)

/-- A shift to the right by a literal divides, rounding down. -/
theorem shiftRight (first : Represents x value bound) (amount : Int64) (most : Int) {n : Nat}
    (literal : (amount.toBitVec.smod 64).toNat = n) (short : bound ≤ most * 2 ^ n) :
    Represents (x >>> amount) (value / 2 ^ n) most := by
  have positive : (0 : Int) < 2 ^ n := pow_pos (by norm_num) n
  have bounds := abs_le.mp (first.le.trans short)
  refine ⟨by rw [toInt_shift64 x amount literal, first.toInt], abs_le.mpr ⟨?_, ?_⟩⟩
  · exact Int.le_ediv_of_mul_le positive (by linarith)
  · exact Int.ediv_le_of_le_mul positive bounds.2

end Represents

/-! ### Checked words -/

/-- A word of 64 bits, or nothing, if an operation has overflowed. -/
structure Checked where
  result : Option Int64

namespace Checked

/-- A word as it is. -/
def word (x : Int64) : Checked := ⟨some x⟩

/-- The word of an integer, if it fits. -/
def ofInt (value : Int) : Checked :=
  ⟨if -2 ^ 63 ≤ value ∧ value < 2 ^ 63 then some (Int64.ofInt value) else none⟩

/-- An operation, whose value is computed with integers. -/
def combine (op : Int → Int → Int) (x y : Checked) : Checked :=
  ⟨x.result.bind fun x => y.result.bind fun y => (ofInt (op x.toInt y.toInt)).result⟩

instance : Add Checked := ⟨combine (· + ·)⟩
instance : Sub Checked := ⟨combine (· - ·)⟩
instance : Mul Checked := ⟨combine (· * ·)⟩

/-- A shift to the left overflows where the multiple does. -/
instance : HShiftLeft Checked Nat Checked :=
  ⟨fun x n => ⟨x.result.bind fun x => (ofInt (x.toInt * 2 ^ n)).result⟩⟩

/-- A shift to the right never overflows. -/
instance : HShiftRight Checked Int64 Checked := ⟨fun x amount => ⟨x.result.map (· >>> amount)⟩⟩

/-- A difference of words of 32 bits, checked in 32 bits. -/
def difference32 (x y : Int32) : Checked :=
  ⟨if -2 ^ 31 ≤ x.toInt - y.toInt ∧ x.toInt - y.toInt < 2 ^ 31 then some (x - y).toInt64 else none⟩

/-- The integer of a word fits. -/
theorem ofInt_toInt (x : Int64) : ofInt x.toInt = word x := by
  rw [ofInt, if_pos ⟨x.le_toInt, x.toInt_lt⟩, Int64.ofInt_toInt]
  rfl

/-- **An operation on words that is exact** has not overflowed. -/
theorem combine_word {op : Int → Int → Int} {x y z : Int64} (exact_ : z.toInt = op x.toInt y.toInt) :
    combine op (word x) (word y) = word z := by
  rw [← ofInt_toInt z, exact_]
  rfl

end Checked

/-- The checked word is the word, so nothing has overflowed, and the word stands for the integer. -/
structure Evaluates (c : Checked) (x : Int64) (value bound : Int) : Prop where
  checked : c = .word x
  represents : Represents x value bound

namespace Evaluates

variable {c d : Checked} {x y : Int64} {value other bound most : Int}

theorem of_represents (represents : Represents x value bound) :
    Evaluates (.word x) x value bound :=
  ⟨rfl, represents⟩

/-- A difference of words of 32 bits that are close. -/
theorem difference32 {x y : Int32} (close : |x.toInt - y.toInt| ≤ bound) (short : bound < 2 ^ 31) :
    Evaluates (.difference32 x y) (x - y).toInt64 (x.toInt - y.toInt) bound := by
  have bounds := abs_le.mp close
  have fits : -2 ^ 31 ≤ x.toInt - y.toInt ∧ x.toInt - y.toInt < 2 ^ 31 :=
    ⟨by linarith, by linarith⟩
  have exact_ := toInt_difference32 fits
  exact ⟨congrArg Checked.mk (if_pos fits), exact_ ▸ Represents.word (exact_ ▸ close)⟩

/-- **An operation whose word stands for its integer** has not overflowed. -/
theorem combine (op : Int → Int → Int) (first : Evaluates c x value bound)
    (second : Evaluates d y other most) {z : Int64} {largest : Int}
    (represents : Represents z (op value other) largest) :
    Evaluates (.combine op c d) z (op value other) largest := by
  rw [first.checked, second.checked]
  refine ⟨Checked.combine_word ?_, represents⟩
  rw [represents.toInt, first.represents.toInt, second.represents.toInt]

theorem sum (first : Evaluates c x value bound) (second : Evaluates d y other most)
    (fits : bound + most < 2 ^ 63) : Evaluates (c + d) (x + y) (value + other) (bound + most) :=
  combine (· + ·) first second (first.represents.sum second.represents fits)

theorem difference (first : Evaluates c x value bound) (second : Evaluates d y other most)
    (fits : bound + most < 2 ^ 63) : Evaluates (c - d) (x - y) (value - other) (bound + most) :=
  combine (· - ·) first second (first.represents.difference second.represents fits)

theorem product (first : Evaluates c x value bound) (second : Evaluates d y other most)
    (fits : bound * most < 2 ^ 63) : Evaluates (c * d) (x * y) (value * other) (bound * most) :=
  combine (· * ·) first second (first.represents.product second.represents fits)

theorem shiftLeft (first : Evaluates c x value bound) (amount : Int64) {n : Nat}
    (literal : (amount.toBitVec.smod 64).toNat = n) (fits : bound * 2 ^ n < 2 ^ 63) :
    Evaluates (c <<< n) (x <<< amount) (value * 2 ^ n) (bound * 2 ^ n) := by
  have represents := first.represents.shiftLeft amount literal fits
  rw [first.checked]
  refine ⟨?_, represents⟩
  rw [← Checked.ofInt_toInt (x <<< amount), represents.toInt, ← first.represents.toInt]
  rfl

theorem shiftRight (first : Evaluates c x value bound) (amount : Int64) (most : Int) {n : Nat}
    (literal : (amount.toBitVec.smod 64).toNat = n) (short : bound ≤ most * 2 ^ n) :
    Evaluates (c >>> amount) (x >>> amount) (value / 2 ^ n) most :=
  ⟨first.checked ▸ rfl, first.represents.shiftRight amount most literal short⟩

end Evaluates

end ForgeDrive.FixedPoint
