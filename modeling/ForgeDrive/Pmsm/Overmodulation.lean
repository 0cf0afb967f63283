/-
**The clamp of the voltage vector** (`PmsmControlCore_Foc.cpp`).

`maxa_minb_q31` estimates the length of the vector by the larger of two weighted sums of its
magnitudes. The clamp divides the estimate by the limit, and where the index is above its range it
scales both components down by it.

* `squares_le` — the estimate is at most a fortieth too small, over all vectors;
* `limited_of_bounds` — so the shifts and divisions behind it keep the vector within `1.05` of the
  limit, wherever the estimate is one;
* `maxaMinb_negative`, `maxaMinb_least` — where the sums need more than 32 bits it is negative, and a
  least word is counted as the smaller magnitude;
* `limits` — the clamp limits the vector in the first case, and does not in the others.
-/

import Mathlib.Tactic.Ring
import ForgeDrive.Pmsm.Foc

namespace ForgeDrive.Pmsm.Foc

/-! ### The estimate -/

section Estimate

variable {a b max min : Int32}

/-- The sum that one of the two estimates is made of. -/
def weightedSum (a b max min : Int32) : Int := a.toInt * max.toInt + b.toInt * min.toInt

theorem weighted_shift (fits : -2 ^ 63 ≤ weightedSum a b max min ∧
    weightedSum a b max min < 2 ^ 63) :
    ((a.toInt64 * max.toInt64 + b.toInt64 * min.toInt64) >>> 31).toInt =
      weightedSum a b max min / 2 ^ 31 := by
  have products : (a.toInt64 * max.toInt64).toInt + (b.toInt64 * min.toInt64).toInt =
      weightedSum a b max min := by
    rw [FixedPoint.toInt_product, FixedPoint.toInt_product]
    rfl
  rw [FixedPoint.toInt_shift64 _ _ (n := 31) rfl, FixedPoint.toInt_sum (by rwa [products]),
    products]

/-- **A weighted sum below `2^62`** is what it is to be. -/
theorem weighted_toInt (fits : -2 ^ 62 ≤ weightedSum a b max min ∧
    weightedSum a b max min < 2 ^ 62) :
    (weighted a b max min).toInt = weightedSum a b max min / 2 ^ 31 := by
  have wide : -2 ^ 63 ≤ weightedSum a b max min ∧ weightedSum a b max min < 2 ^ 63 := by omega
  have shifted := weighted_shift wide
  rw [weighted, FixedPoint.toInt_cut (by rw [shifted]; omega), shifted]

/-- **From `2^62` on it becomes negative.** -/
theorem weighted_toInt_over (high : 2 ^ 62 ≤ weightedSum a b max min ∧
    weightedSum a b max min < 2 ^ 63) :
    (weighted a b max min).toInt < 0 := by
  have wide : -2 ^ 63 ≤ weightedSum a b max min ∧ weightedSum a b max min < 2 ^ 63 := by omega
  have shifted := weighted_shift wide
  rw [weighted, FixedPoint.toInt_cut_over (by rw [shifted]; omega), shifted]
  omega

end Estimate

/-! ### The magnitudes -/

/-- The larger and the smaller magnitude of the two voltages. -/
def larger (vd vq : Int32) : Int := max |vd.toInt| |vq.toInt|

def smaller (vd vq : Int32) : Int := min |vd.toInt| |vq.toInt|

/-- The two sums of `maxa_minb_q31`. -/
def firstSum (large small : Int) : Int := 2130706431 * large + 402653183 * small

def secondSum (large small : Int) : Int := 1811939327 * large + 1191182335 * small

section Magnitude

variable {vd vq : Int32}

theorem toInt_larger (x y : Int32) : (if x > y then x else y).toInt = max x.toInt y.toInt := by
  have order : x > y ↔ y.toInt < x.toInt := Int32.lt_iff_toInt_lt
  by_cases above : x > y
  · rw [if_pos above, max_eq_left (le_of_lt (order.mp above))]
  · rw [if_neg above, max_eq_right (not_lt.mp (mt order.mpr above))]

theorem toInt_smaller (x y : Int32) : (if x > y then y else x).toInt = min x.toInt y.toInt := by
  have order : x > y ↔ y.toInt < x.toInt := Int32.lt_iff_toInt_lt
  by_cases above : x > y
  · rw [if_pos above, min_eq_right (le_of_lt (order.mp above))]
  · rw [if_neg above, min_eq_left (not_lt.mp (mt order.mpr above))]

/-- The magnitude of a voltage as the code takes it: the least word stays as it is. -/
def magnitude (v : Int32) : Int32 := if v < 0 then -v else v

/-- **The estimate is the larger of two weighted sums** of the larger and the smaller magnitude. -/
theorem maxaMinb_words (vd vq : Int32) : ∃ large small : Int32,
    (maxaMinb vd vq).toInt = max (weighted maxaMinbA0 maxaMinbB0 large small).toInt
      (weighted maxaMinbA1 maxaMinbB1 large small).toInt ∧
    large.toInt = max (magnitude vd).toInt (magnitude vq).toInt ∧
    small.toInt = min (magnitude vd).toInt (magnitude vq).toInt := by
  refine ⟨if magnitude vd > magnitude vq then magnitude vd else magnitude vq,
    if magnitude vd > magnitude vq then magnitude vq else magnitude vd, ?_, toInt_larger _ _,
    toInt_smaller _ _⟩
  rw [← toInt_larger]
  rfl

theorem magnitude_bounds (vd vq : Int32) : 0 ≤ smaller vd vq ∧ smaller vd vq ≤ larger vd vq ∧
    larger vd vq ≤ 2 ^ 31 := by
  have bound : ∀ v : Int32, |v.toInt| ≤ 2 ^ 31 := fun v =>
    abs_le.mpr ⟨v.le_toInt, le_of_lt v.toInt_lt⟩
  exact ⟨le_min (abs_nonneg _) (abs_nonneg _), min_le_max, max_le (bound vd) (bound vq)⟩

/-- The squares of the voltages are those of their magnitudes. -/
theorem squares_eq (vd vq : Int32) :
    vd.toInt ^ 2 + vq.toInt ^ 2 = larger vd vq ^ 2 + smaller vd vq ^ 2 := by
  rw [← sq_abs vd.toInt, ← sq_abs vq.toInt, larger, smaller]
  rcases le_total |vd.toInt| |vq.toInt| with le | le
  · rw [max_eq_right le, min_eq_left le, add_comm]
  · rw [max_eq_left le, min_eq_right le]

end Magnitude

/-! ### When the estimate is one -/

/-- **The magnitudes can be taken and weighted** in 32 bits. -/
structure Estimable (vd vq : Int32) : Prop where
  notLeastD : vd.toInt ≠ -2 ^ 31
  notLeastQ : vq.toInt ≠ -2 ^ 31
  first : firstSum (larger vd vq) (smaller vd vq) < 2 ^ 62
  second : secondSum (larger vd vq) (smaller vd vq) < 2 ^ 62

/-- **They cannot**: a voltage is the least word, or neither weighted sum has 32 bits. -/
inductive Overflows (vd vq : Int32) : Prop
  | leastD (is : vd.toInt = -2 ^ 31)
  | leastQ (is : vq.toInt = -2 ^ 31)
  | sums (first : 2 ^ 62 ≤ firstSum (larger vd vq) (smaller vd vq))
    (second : 2 ^ 62 ≤ secondSum (larger vd vq) (smaller vd vq))

section Words

variable {vd vq lim : Int32}

/-- The words of the magnitudes, where neither voltage is the least word. -/
theorem maxaMinb_magnitudes (notLeastD : vd.toInt ≠ -2 ^ 31) (notLeastQ : vq.toInt ≠ -2 ^ 31) :
    ∃ large small : Int32, large.toInt = larger vd vq ∧ small.toInt = smaller vd vq ∧
      (maxaMinb vd vq).toInt = max (weighted maxaMinbA0 maxaMinbB0 large small).toInt
        (weighted maxaMinbA1 maxaMinbB1 large small).toInt := by
  obtain ⟨large, small, estimate, largeIs, smallIs⟩ := maxaMinb_words vd vq
  rw [magnitude, magnitude, FixedPoint.toInt_abs notLeastD,
    FixedPoint.toInt_abs notLeastQ] at largeIs smallIs
  exact ⟨large, small, largeIs, smallIs, estimate⟩

theorem firstSum_words {large small : Int32} {m n : Int} (is : large.toInt = m)
    (smallIs : small.toInt = n) : weightedSum maxaMinbA0 maxaMinbB0 large small = firstSum m n := by
  rw [weightedSum, is, smallIs]
  rfl

theorem secondSum_words {large small : Int32} {m n : Int} (is : large.toInt = m)
    (smallIs : small.toInt = n) :
    weightedSum maxaMinbA1 maxaMinbB1 large small = secondSum m n := by
  rw [weightedSum, is, smallIs]
  rfl

/-- **The estimate**, where it is one. -/
theorem Estimable.maxaMinb_toInt (estimable : Estimable vd vq) :
    (maxaMinb vd vq).toInt = max (firstSum (larger vd vq) (smaller vd vq) / 2 ^ 31)
      (secondSum (larger vd vq) (smaller vd vq) / 2 ^ 31) := by
  obtain ⟨large, small, largeIs, smallIs, estimate⟩ :=
    maxaMinb_magnitudes estimable.notLeastD estimable.notLeastQ
  have first := firstSum_words largeIs smallIs
  have second := secondSum_words largeIs smallIs
  obtain ⟨nonneg, le, -⟩ := magnitude_bounds vd vq
  have firstFits := estimable.first
  have secondFits := estimable.second
  rw [estimate, weighted_toInt, weighted_toInt, first, second]
  · rw [second]
    exact ⟨by unfold secondSum; omega, secondFits⟩
  · rw [first]
    exact ⟨by unfold firstSum; omega, firstFits⟩

/-- **The estimate is negative** if neither sum has 32 bits. -/
theorem maxaMinb_negative (notLeastD : vd.toInt ≠ -2 ^ 31) (notLeastQ : vq.toInt ≠ -2 ^ 31)
    (first : 2 ^ 62 ≤ firstSum (larger vd vq) (smaller vd vq))
    (second : 2 ^ 62 ≤ secondSum (larger vd vq) (smaller vd vq)) :
    (maxaMinb vd vq).toInt < 0 := by
  obtain ⟨large, small, largeIs, smallIs, estimate⟩ := maxaMinb_magnitudes notLeastD notLeastQ
  obtain ⟨nonneg, le, small_⟩ := magnitude_bounds vd vq
  have firstIs := firstSum_words largeIs smallIs
  have secondIs := secondSum_words largeIs smallIs
  rw [estimate]
  refine max_lt (weighted_toInt_over ?_) (weighted_toInt_over ?_)
  · rw [firstIs]
    exact ⟨first, by unfold firstSum; omega⟩
  · rw [secondIs]
    exact ⟨second, by unfold secondSum; omega⟩

/-- The magnitude of the least word is taken to be the word itself. -/
theorem magnitude_least {v : Int32} (least : v.toInt = -2 ^ 31) :
    (magnitude v).toInt = -2 ^ 31 := by
  have word : v = Int32.minValue := Int32.toInt_inj.mp least
  rw [word]
  decide

theorem magnitude_other {v : Int32} (notLeast : v.toInt ≠ -2 ^ 31) :
    0 ≤ (magnitude v).toInt := by
  rw [magnitude, FixedPoint.toInt_abs notLeast]
  exact abs_nonneg _

/-- A weighted sum with the least word is no larger than the difference of the weights. -/
theorem weighted_least {a b large small : Int32} (first : 0 ≤ a.toInt) (second : 0 ≤ b.toInt)
    (nonneg : 0 ≤ large.toInt) (least : small.toInt = -2 ^ 31) :
    (weighted a b large small).toInt ≤ a.toInt - b.toInt := by
  have largeFits := FixedPoint.toInt_bounds large
  have firstFits := FixedPoint.toInt_bounds a
  have secondFits := FixedPoint.toInt_bounds b
  have product := Int.mul_nonneg first nonneg
  have above : a.toInt * large.toInt ≤ a.toInt * 2 ^ 31 :=
    Int.mul_le_mul_of_nonneg_left (le_of_lt largeFits.2) first
  have sum : weightedSum a b large small = a.toInt * large.toInt - b.toInt * 2 ^ 31 := by
    rw [weightedSum, least]
    ring
  rw [weighted_toInt (by rw [sum]; omega), sum]
  omega

/-- **The least word** counts as the smaller magnitude: the estimate is no larger than this. -/
theorem maxaMinb_least (least : vd.toInt = -2 ^ 31 ∨ vq.toInt = -2 ^ 31) :
    (maxaMinb vd vq).toInt ≤ 1761607682 := by
  obtain ⟨large, small, estimate, largeIs, smallIs⟩ := maxaMinb_words vd vq
  have bounds := FixedPoint.toInt_bounds (magnitude vd)
  have bounds' := FixedPoint.toInt_bounds (magnitude vq)
  by_cases both : vd.toInt = -2 ^ 31 ∧ vq.toInt = -2 ^ 31
  · -- even the larger magnitude is negative then, and its sum wraps to a positive one
    have wordD : vd = Int32.minValue := Int32.toInt_inj.mp both.1
    have wordQ : vq = Int32.minValue := Int32.toInt_inj.mp both.2
    rw [wordD, wordQ]
    decide
  · have words : 0 ≤ large.toInt ∧ small.toInt = -2 ^ 31 := by
      rcases least with leastD | leastQ
      · have other := magnitude_other fun leastQ => both ⟨leastD, leastQ⟩
        rw [magnitude_least leastD] at largeIs smallIs
        exact ⟨largeIs ▸ le_max_of_le_right other, smallIs.trans (min_eq_left bounds'.1)⟩
      · have other := magnitude_other fun leastD => both ⟨leastD, leastQ⟩
        rw [magnitude_least leastQ] at largeIs smallIs
        exact ⟨largeIs ▸ le_max_of_le_left other, smallIs.trans (min_eq_right bounds.1)⟩
    rw [estimate]
    exact max_le
      (le_trans (weighted_least (by decide) (by decide) words.1 words.2) (by decide))
      (le_trans (weighted_least (by decide) (by decide) words.1 words.2) (by decide))

end Words

/-! ### The squares -/

section Squares

/-- What the weighted sums say of the magnitudes, in thousandths. -/
theorem estimate_shares {large small estimate : Int} (nonneg : 0 ≤ small) (le : small ≤ large)
    (first : firstSum large small / 2 ^ 31 ≤ estimate)
    (second : secondSum large small / 2 ^ 31 ≤ estimate) :
    992 * large + 187 * small ≤ 1000 * (estimate + 1) ∧
      843 * large + 554 * small ≤ 1000 * (estimate + 1) := by
  unfold firstSum at first
  unfold secondSum at second
  omega

/-- **The estimate is never too small** by more than a fortieth. -/
theorem squares_le {large small bound : Int} (nonneg : 0 ≤ small) (le : small ≤ large)
    (first : 992 * large + 187 * small ≤ 1000 * bound)
    (second : 843 * large + 554 * small ≤ 1000 * bound) :
    20 * (large ^ 2 + small ^ 2) ≤ 21 * bound ^ 2 := by
  -- each of the two sums is close where the vector is as narrow, or as wide, as it is made for
  rcases le_total (5 * small) (2 * large) with narrow | wide
  · have square : (992 * large + 187 * small) ^ 2 ≤ (1000 * bound) ^ 2 :=
      pow_le_pow_left₀ (by omega) first 2
    have product : 0 ≤ small * (2 * large - 5 * small) :=
      Int.mul_nonneg nonneg (by omega)
    nlinarith [product, square, sq_nonneg large]
  · have square : (843 * large + 554 * small) ^ 2 ≤ (1000 * bound) ^ 2 :=
      pow_le_pow_left₀ (by omega) second 2
    have product : 0 ≤ (large - small) * (5 * small - 2 * large) :=
      Int.mul_nonneg (by omega) (by omega)
    nlinarith [product, square, sq_nonneg (large - small), sq_nonneg large]

/-- A vector whose index is within the range is within the limit. -/
theorem kept_le {squares high limit : Int} (nonneg : 0 ≤ high) (large : 1024 ≤ limit)
    (estimated : 20 * squares ≤ 21 * (2 ^ 16 * (high + 1)) ^ 2)
    (within : 7094 * high < 4096 * limit) :
    1200 * squares ≤ 441 * (2 ^ 16 * limit) ^ 2 := by
  have index : 7094 * (high + 1) ≤ 4103 * limit := by omega
  have square : (7094 * (high + 1)) ^ 2 ≤ (4103 * limit) ^ 2 :=
    pow_le_pow_left₀ (by omega) index 2
  have ratio : 20 * (high + 1) ^ 2 ≤ 7 * limit ^ 2 := by nlinarith [square, sq_nonneg limit]
  linarith [mul_pow (2 ^ 16) (high + 1) 2, mul_pow (2 ^ 16) limit 2]

/-- The vector, with what the shift can cut off its components, against the estimate. -/
theorem padded_le {first second high : Int} (large : 592 ≤ high)
    (estimated : 20 * (first ^ 2 + second ^ 2) ≤ 21 * (2 ^ 16 * (high + 1)) ^ 2)
    (sum : first + second ≤ 2 * (2 ^ 16 * (high + 1))) :
    10000 * ((first + 4095) ^ 2 + (second + 4095) ^ 2) ≤ 10546 * (2 ^ 16 * high) ^ 2 := by
  nlinarith [estimated, sum, mul_nonneg (sub_nonneg.mpr large) (sub_nonneg.mpr large)]

/-- **A vector that is scaled down by its index** is within the limit. -/
theorem scaled_le {first second first' second' high limit index : Int} (clamped : 4096 ≤ index)
    (above : 7094 * high < (index + 1) * limit) (large : 592 ≤ high)
    (nonneg : 0 ≤ first') (nonneg' : 0 ≤ second')
    (scaled : index * first' ≤ 4095 * (first + 4095))
    (scaled' : index * second' ≤ 4095 * (second + 4095))
    (padded : 10000 * ((first + 4095) ^ 2 + (second + 4095) ^ 2) ≤ 10546 * (2 ^ 16 * high) ^ 2)
    (pos : 0 < limit) :
    1200 * (first' ^ 2 + second' ^ 2) ≤ 441 * (2 ^ 16 * limit) ^ 2 := by
  have squares : index ^ 2 * (first' ^ 2 + second' ^ 2) ≤
      4095 ^ 2 * ((first + 4095) ^ 2 + (second + 4095) ^ 2) := by
    have square := pow_le_pow_left₀ (Int.mul_nonneg (by omega) nonneg) scaled 2
    have square' := pow_le_pow_left₀ (Int.mul_nonneg (by omega) nonneg') scaled' 2
    linarith [mul_pow index first' 2, mul_pow index second' 2,
      mul_pow 4095 (first + 4095) 2, mul_pow 4095 (second + 4095) 2]
  have indexed : 4096 * 7094 * high ≤ 4097 * (index * limit) := by nlinarith
  have square : (4096 * 7094 * high) ^ 2 ≤ (4097 * (index * limit)) ^ 2 :=
    pow_le_pow_left₀ (by omega) indexed 2
  have positive : 0 < index ^ 2 := by positivity
  refine Int.le_of_mul_le_mul_left ?_ positive
  calc index ^ 2 * (1200 * (first' ^ 2 + second' ^ 2))
      ≤ 1200 * (4095 ^ 2 * ((first + 4095) ^ 2 + (second + 4095) ^ 2)) := by linarith
    _ ≤ 441 * (2 ^ 16) ^ 2 * (index * limit) ^ 2 := by
      linarith [sq_nonneg (index * limit), mul_pow (2 ^ 16) high 2,
        mul_pow (4096 * 7094) high 2, mul_pow 4097 (index * limit) 2]
    _ = index ^ 2 * (441 * (2 ^ 16 * limit) ^ 2) := by ring

/-- The least word, scaled down by an index that its estimate can have, is beyond the limit. -/
theorem scaled_gt {high limit index scale : Int} (clamped : 4096 ≤ index)
    (below : index * limit ≤ 7094 * high) (estimated : high ≤ 26880) (large : 1024 ≤ limit)
    (scaleIs : 16773120 < (scale + 1) * index) (nonneg : 0 ≤ scale) :
    441 * (2 ^ 16 * (limit + 1)) ^ 2 < 1200 * (2 ^ 19 * scale) ^ 2 := by
  have smallIndex : index ≤ 186217 := by
    have share : index * 1024 ≤ index * limit := Int.mul_le_mul_of_nonneg_left large (by omega)
    omega
  have share : 16586904 * limit ≤ 190686720 * scale := calc
    16586904 * limit ≤ scale * index * limit :=
      Int.mul_le_mul_of_nonneg_right (by linarith) (by omega)
    _ = scale * (index * limit) := Int.mul_assoc ..
    _ ≤ scale * 190686720 := Int.mul_le_mul_of_nonneg_left (by omega) nonneg
    _ = 190686720 * scale := Int.mul_comm ..
  have square : (16586904 * limit) ^ 2 ≤ (190686720 * scale) ^ 2 :=
    pow_le_pow_left₀ (by omega) share 2
  nlinarith [square, mul_nonneg (sub_nonneg.mpr large) (sub_nonneg.mpr large)]

end Squares

/-! ### The index and the scale -/

section Scale

variable {vd vq lim : Int32}

/-- The dividend of the index. -/
theorem dividend_toInt (vd vq : Int32) : ((maxaMinb vd vq >>> 16) * sqrt3Q3p12).toInt =
    7094 * ((maxaMinb vd vq).toInt / 2 ^ 16) := by
  have bounds := FixedPoint.toInt_bounds (maxaMinb vd vq)
  have high : (maxaMinb vd vq >>> 16).toInt = (maxaMinb vd vq).toInt / 2 ^ 16 :=
    FixedPoint.toInt_shift _ _ rfl
  have factor : sqrt3Q3p12.toInt = 7094 := rfl
  rw [FixedPoint.toInt_scaled (by rw [high, factor]; omega), high, factor, Int.mul_comm]

theorem index_toInt (nonneg : 0 ≤ (maxaMinb vd vq).toInt) (limit : 0 < lim.toInt / 2 ^ 16) :
    (modIdx vd vq lim).toInt =
      7094 * ((maxaMinb vd vq).toInt / 2 ^ 16) / (lim.toInt / 2 ^ 16) := by
  have divisor : (lim >>> 16).toInt = lim.toInt / 2 ^ 16 := FixedPoint.toInt_shift _ _ rfl
  rw [modIdx, FixedPoint.toInt_quotient (by rw [dividend_toInt]; omega) (by rwa [divisor]),
    dividend_toInt, divisor]

/-- **A negative estimate** never has the vector clamped. -/
theorem index_nonpos (negative : (maxaMinb vd vq).toInt < 0) (limit : 0 < lim.toInt / 2 ^ 16) :
    (modIdx vd vq lim).toInt ≤ 0 := by
  have divisor : (lim >>> 16).toInt = lim.toInt / 2 ^ 16 := FixedPoint.toInt_shift _ _ rfl
  have sign : lim >>> 16 ≠ -1 := by
    intro is
    rw [is] at divisor
    exact absurd (divisor ▸ limit) (by decide)
  rw [modIdx, Int32.toInt_div_of_ne_right _ _ sign, dividend_toInt, divisor]
  have opposite : 0 ≤ (-(7094 * ((maxaMinb vd vq).toInt / 2 ^ 16))).tdiv (lim.toInt / 2 ^ 16) :=
    Int.tdiv_nonneg (by omega) limit.le
  rw [Int.neg_tdiv] at opposite
  omega

/-- The factor of a scaled vector. -/
def scale (idx : Int32) : Int := 16773120 / idx.toInt

theorem scale_bounds {idx : Int32} (clamped : 4096 ≤ idx.toInt) :
    0 ≤ scale idx ∧ scale idx ≤ 4095 ∧ idx.toInt * scale idx ≤ 16773120 ∧
      16773120 < (scale idx + 1) * idx.toInt := by
  refine ⟨Int.ediv_nonneg (by decide) (by omega), ?_, Int.mul_ediv_self_le (by omega), ?_⟩
  · exact Int.ediv_le_of_le_mul (by omega) (by omega)
  · exact Int.lt_ediv_add_one_mul_self _ (by omega)

theorem scaleDown_toInt {v idx : Int32} (clamped : 4096 ≤ idx.toInt) :
    (scaleDown v idx).toInt = v.toInt / 2 ^ 12 * scale idx := by
  have bounds := FixedPoint.toInt_bounds v
  have high : (v >>> 12).toInt = v.toInt / 2 ^ 12 := FixedPoint.toInt_shift _ _ rfl
  have factor : ((modIdxMax <<< 12) / idx).toInt = scale idx :=
    FixedPoint.toInt_quotient (by decide) (by omega)
  obtain ⟨nonneg, small, -⟩ := scale_bounds clamped
  have shifted : |v.toInt / 2 ^ 12| ≤ 2 ^ 19 := abs_le.mpr (by omega)
  have product : |v.toInt / 2 ^ 12 * scale idx| ≤ 2 ^ 19 * 4095 := by
    rw [abs_mul, abs_of_nonneg nonneg]
    exact mul_le_mul shifted small nonneg (by norm_num)
  have fits := abs_le.mp product
  rw [scaleDown, FixedPoint.toInt_scaled, high, factor]
  rw [high, factor]
  omega

/-- **A scaled component** is at most the share of the index, but for what the shift cuts off. -/
theorem scaleDown_le {v idx : Int32} (clamped : 4096 ≤ idx.toInt) :
    idx.toInt * |(scaleDown v idx).toInt| ≤ 4095 * (|v.toInt| + 4095) := by
  obtain ⟨nonneg, -, most, -⟩ := scale_bounds clamped
  have shifted : 4096 * |v.toInt / 2 ^ 12| ≤ |v.toInt| + 4095 := by
    rcases abs_cases v.toInt with ⟨is, _⟩ | ⟨is, _⟩ <;>
      rcases abs_cases (v.toInt / 2 ^ 12) with ⟨is', _⟩ | ⟨is', _⟩ <;> omega
  rw [scaleDown_toInt clamped, abs_mul, abs_of_nonneg nonneg]
  calc idx.toInt * (|v.toInt / 2 ^ 12| * scale idx)
      = idx.toInt * scale idx * |v.toInt / 2 ^ 12| := by ring
    _ ≤ 16773120 * |v.toInt / 2 ^ 12| := Int.mul_le_mul_of_nonneg_right most (abs_nonneg _)
    _ ≤ 4095 * (|v.toInt| + 4095) := by omega

end Scale

/-! ### The vector behind the clamp -/

/-- **The vector is limited**: its length is within `1.05` of the limit over the root of three, and
both components keep their signs or become zero. -/
structure Limited (vd vq lim : Int32) (v : Int32 × Int32) : Prop where
  within : 20 ^ 2 * (3 * (v.1.toInt ^ 2 + v.2.toInt ^ 2)) ≤ (21 * lim.toInt) ^ 2
  signD : v.1.toInt = 0 ∨ v.1.toInt.sign = vd.toInt.sign
  signQ : v.2.toInt = 0 ∨ v.2.toInt.sign = vq.toInt.sign

section Clamp

variable {vd vq lim : Int32}

/-- The vector stays, or is scaled down by its index. -/
theorem clamp_cases (vd vq lim : Int32) :
    ((modIdx vd vq lim).toInt ≤ 4095 ∧ clamp vd vq lim = (vd, vq)) ∨
      (4096 ≤ (modIdx vd vq lim).toInt ∧ clamp vd vq lim =
        (scaleDown vd (modIdx vd vq lim), scaleDown vq (modIdx vd vq lim))) := by
  have order : modIdx vd vq lim > modIdxMax ↔ 4095 < (modIdx vd vq lim).toInt :=
    Int32.lt_iff_toInt_lt
  unfold clamp
  by_cases above : modIdx vd vq lim > modIdxMax
  · exact Or.inr ⟨order.mp above, if_pos above⟩
  · exact Or.inl ⟨not_lt.mp (mt order.mpr above), if_neg above⟩

theorem scaleDown_sign {v idx : Int32} (clamped : 4096 ≤ idx.toInt) :
    (scaleDown v idx).toInt = 0 ∨ (scaleDown v idx).toInt.sign = v.toInt.sign := by
  rw [scaleDown_toInt clamped]
  rcases eq_or_ne (v.toInt / 2 ^ 12) 0 with zero | some_
  · exact Or.inl (by rw [zero, zero_mul])
  rcases eq_or_lt_of_le (scale_bounds clamped).1 with zero | pos
  · exact Or.inl (by rw [← zero, mul_zero])
  · right
    rw [Int.sign_mul, Int.sign_eq_one_of_pos pos, mul_one]
    rcases lt_or_gt_of_ne some_ with negative | positive
    · rw [Int.sign_eq_neg_one_of_neg negative, Int.sign_eq_neg_one_of_neg (by omega)]
    · rw [Int.sign_eq_one_of_pos positive, Int.sign_eq_one_of_pos (by omega)]

/-- **The estimate bounds the vector** where it is one. -/
theorem Estimable.bounds (estimable : Estimable vd vq) :
    0 ≤ (maxaMinb vd vq).toInt ∧
      20 * (vd.toInt ^ 2 + vq.toInt ^ 2) ≤ 21 * ((maxaMinb vd vq).toInt + 1) ^ 2 ∧
      |vd.toInt| + |vq.toInt| ≤ 2 * ((maxaMinb vd vq).toInt + 1) := by
  obtain ⟨nonneg, le, -⟩ := magnitude_bounds vd vq
  have estimate := estimable.maxaMinb_toInt
  obtain ⟨first, second⟩ := estimate_shares nonneg le (estimate ▸ le_max_left _ _)
    (estimate ▸ le_max_right _ _)
  have sum : |vd.toInt| + |vq.toInt| = larger vd vq + smaller vd vq := (max_add_min _ _).symm
  have sumNonneg : 0 ≤ firstSum (larger vd vq) (smaller vd vq) := by
    unfold firstSum
    omega
  refine ⟨?_, ?_, by omega⟩
  · rw [estimate]
    exact le_max_of_le_left (Int.ediv_nonneg sumNonneg (by decide))
  · rw [squares_eq]
    exact squares_le nonneg le first second

/-- **A vector that its estimate bounds is limited.** -/
theorem limited_of_bounds (limit : 1024 ≤ lim.toInt / 2 ^ 16)
    (nonneg : 0 ≤ (maxaMinb vd vq).toInt)
    (squares : 20 * (vd.toInt ^ 2 + vq.toInt ^ 2) ≤ 21 * ((maxaMinb vd vq).toInt + 1) ^ 2)
    (sum : |vd.toInt| + |vq.toInt| ≤ 2 * ((maxaMinb vd vq).toInt + 1)) :
    Limited vd vq lim (clamp vd vq lim) := by
  have indexIs : (modIdx vd vq lim).toInt = _ := index_toInt nonneg (by omega)
  have highIs : 0 ≤ (maxaMinb vd vq).toInt / 2 ^ 16 := by omega
  have estimateLe : (maxaMinb vd vq).toInt + 1 ≤ 2 ^ 16 * ((maxaMinb vd vq).toInt / 2 ^ 16 + 1) := by
    omega
  have squareLe := pow_le_pow_left₀ (show 0 ≤ (maxaMinb vd vq).toInt + 1 by omega) estimateLe 2
  have limitLe : (2 ^ 16 * (lim.toInt / 2 ^ 16)) ^ 2 ≤ lim.toInt ^ 2 :=
    pow_le_pow_left₀ (by omega) (by omega) 2
  generalize (maxaMinb vd vq).toInt / 2 ^ 16 = high at *
  rcases clamp_cases vd vq lim with ⟨within, kept⟩ | ⟨clamped, scaled⟩
  · rw [kept]
    have index : 7094 * high < 4096 * (lim.toInt / 2 ^ 16) :=
      (Int.ediv_lt_iff_lt_mul (by omega)).mp (by omega)
    have bound : 1200 * (vd.toInt ^ 2 + vq.toInt ^ 2) ≤ _ :=
      kept_le highIs limit (by linarith) index
    exact ⟨by linarith [mul_pow 21 lim.toInt 2], Or.inr rfl, Or.inr rfl⟩
  · rw [scaled]
    rw [indexIs] at clamped
    have most := (Int.le_ediv_iff_mul_le (by omega)).mp clamped
    have large : 592 ≤ high := by omega
    have above := Int.lt_ediv_add_one_mul_self (7094 * high) (show 0 < lim.toInt / 2 ^ 16 by omega)
    rw [← indexIs] at clamped above
    have squares' : 20 * (|vd.toInt| ^ 2 + |vq.toInt| ^ 2) ≤ 21 * (2 ^ 16 * (high + 1)) ^ 2 := by
      rw [sq_abs, sq_abs]
      linarith
    have padded := padded_le large squares' (by linarith)
    have bound := scaled_le clamped above large (abs_nonneg _) (abs_nonneg _)
      (scaleDown_le clamped) (scaleDown_le clamped) padded (by omega)
    rw [sq_abs, sq_abs] at bound
    exact ⟨by linarith [mul_pow 21 lim.toInt 2], scaleDown_sign clamped, scaleDown_sign clamped⟩

theorem not_limited {v : Int32 × Int32}
    (beyond : 441 * lim.toInt ^ 2 < 1200 * (v.1.toInt ^ 2 + v.2.toInt ^ 2)) :
    ¬ Limited vd vq lim v := by
  intro limited
  linarith [limited.within, mul_pow 21 lim.toInt 2]

/-- **If neither sum has 32 bits** the vector stays, and it is longer than any limit. -/
theorem not_limited_sums (limit : 1024 ≤ lim.toInt / 2 ^ 16)
    (notLeastD : vd.toInt ≠ -2 ^ 31) (notLeastQ : vq.toInt ≠ -2 ^ 31)
    (first : 2 ^ 62 ≤ firstSum (larger vd vq) (smaller vd vq))
    (second : 2 ^ 62 ≤ secondSum (larger vd vq) (smaller vd vq)) :
    ¬ Limited vd vq lim (clamp vd vq lim) := by
  have negative := maxaMinb_negative notLeastD notLeastQ first second
  have index : (modIdx vd vq lim).toInt ≤ 0 := index_nonpos negative (by omega)
  rcases clamp_cases vd vq lim with ⟨-, kept⟩ | ⟨clamped, -⟩
  · rw [kept]
    refine not_limited ?_
    obtain ⟨nonneg, le, -⟩ := magnitude_bounds vd vq
    have large : 1820000000 ≤ larger vd vq := by
      unfold firstSum at first
      omega
    have square : 1820000000 ^ 2 ≤ larger vd vq ^ 2 := pow_le_pow_left₀ (by decide) large 2
    have limitLe : lim.toInt ^ 2 ≤ (2 ^ 31) ^ 2 :=
      pow_le_pow_left₀ (by omega) (FixedPoint.toInt_bounds lim).2.le 2
    show 441 * lim.toInt ^ 2 < 1200 * (vd.toInt ^ 2 + vq.toInt ^ 2)
    rw [squares_eq]
    linarith [sq_nonneg (smaller vd vq)]
  · omega

/-- A component that is the least word is beyond the limit, kept or scaled. -/
theorem least_beyond (limit : 1024 ≤ lim.toInt / 2 ^ 16) {v v' : Int32}
    (least : v.toInt = -2 ^ 31) (estimate : (maxaMinb vd vq).toInt ≤ 1761607682)
    (kept_or_scaled : v' = v ∨ 4096 ≤ (modIdx vd vq lim).toInt ∧
      v' = scaleDown v (modIdx vd vq lim)) :
    441 * lim.toInt ^ 2 < 1200 * v'.toInt ^ 2 := by
  rcases kept_or_scaled with rfl | ⟨clamped, rfl⟩
  · have limitLt : lim.toInt ^ 2 ≤ (2 ^ 31) ^ 2 :=
      pow_le_pow_left₀ (by omega) (FixedPoint.toInt_bounds lim).2.le 2
    rw [least]
    linarith
  · have nonneg : 0 ≤ (maxaMinb vd vq).toInt := by
      by_contra negative
      have index : (modIdx vd vq lim).toInt ≤ 0 := index_nonpos (not_le.mp negative) (by omega)
      omega
    have indexIs : (modIdx vd vq lim).toInt = _ := index_toInt nonneg (by omega)
    have below := Int.ediv_mul_le (7094 * ((maxaMinb vd vq).toInt / 2 ^ 16))
      (show lim.toInt / 2 ^ 16 ≠ 0 by omega)
    rw [← indexIs] at below
    obtain ⟨scaleNonneg, -, -, scaleIs⟩ := scale_bounds clamped
    have beyond := scaled_gt clamped below (by omega) limit scaleIs scaleNonneg
    have limitLe : lim.toInt ^ 2 ≤ (2 ^ 16 * (lim.toInt / 2 ^ 16 + 1)) ^ 2 :=
      pow_le_pow_left₀ (by omega) (by omega) 2
    have square : (-2 ^ 31 / 2 ^ 12 * scale (modIdx vd vq lim)) ^ 2 =
        (2 ^ 19 * scale (modIdx vd vq lim)) ^ 2 := by
      rw [show (-2 ^ 31 / 2 ^ 12 : Int) = -2 ^ 19 by decide, neg_mul, neg_sq]
    rw [scaleDown_toInt clamped, least, square]
    linarith

/-- **A least word leaves the vector beyond the limit.** -/
theorem not_limited_least (limit : 1024 ≤ lim.toInt / 2 ^ 16)
    (least : vd.toInt = -2 ^ 31 ∨ vq.toInt = -2 ^ 31) :
    ¬ Limited vd vq lim (clamp vd vq lim) := by
  have estimate := maxaMinb_least least
  have vector : ((clamp vd vq lim).1 = vd ∨ 4096 ≤ (modIdx vd vq lim).toInt ∧
        (clamp vd vq lim).1 = scaleDown vd (modIdx vd vq lim)) ∧
      ((clamp vd vq lim).2 = vq ∨ 4096 ≤ (modIdx vd vq lim).toInt ∧
        (clamp vd vq lim).2 = scaleDown vq (modIdx vd vq lim)) := by
    rcases clamp_cases vd vq lim with ⟨-, kept⟩ | ⟨clamped, scaled⟩
    · rw [kept]
      exact ⟨Or.inl rfl, Or.inl rfl⟩
    · rw [scaled]
      exact ⟨Or.inr ⟨clamped, rfl⟩, Or.inr ⟨clamped, rfl⟩⟩
  refine not_limited ?_
  rcases least with leastD | leastQ
  · have beyond := least_beyond limit leastD estimate vector.1
    linarith [sq_nonneg (clamp vd vq lim).2.toInt]
  · have beyond := least_beyond limit leastQ estimate vector.2
    linarith [sq_nonneg (clamp vd vq lim).1.toInt]

end Clamp

/-! ### In the loop -/

/-- The vector behind the clamp of the loop. -/
theorem limit_vector (s : State) :
    (s.limit.1.vd, s.limit.1.vq) = clamp s.vd s.vq s.lim := by
  unfold State.limit clamp
  dsimp only
  by_cases above : modIdx s.vd s.vq s.lim > modIdxMax
  · rw [if_pos above, if_pos above]
  · rw [if_neg above, if_neg above]

/-- **The clamp limits the vector** if its magnitudes can be taken and weighted in 32 bits; it does
not if they cannot. -/
theorem limits (s : State) (high : (1024 : Int32) ≤ s.lim >>> 16) :
    (Estimable s.vd s.vq → Limited s.vd s.vq s.lim (s.limit.1.vd, s.limit.1.vq)) ∧
      (Overflows s.vd s.vq → ¬ Limited s.vd s.vq s.lim (s.limit.1.vd, s.limit.1.vq)) := by
  have limit : 1024 ≤ s.lim.toInt / 2 ^ 16 := by
    have shifted : (s.lim >>> 16).toInt = s.lim.toInt / 2 ^ 16 := FixedPoint.toInt_shift _ _ rfl
    rw [← shifted]
    exact Int32.le_iff_toInt_le.mp high
  rw [limit_vector]
  constructor
  · intro estimable
    obtain ⟨nonneg, squares, sum⟩ := estimable.bounds
    exact limited_of_bounds limit nonneg squares sum
  · intro overflows
    by_cases least : s.vd.toInt = -2 ^ 31 ∨ s.vq.toInt = -2 ^ 31
    · exact not_limited_least limit least
    obtain ⟨notLeastD, notLeastQ⟩ := not_or.mp least
    cases overflows with
    | leastD is => exact absurd is notLeastD
    | leastQ is => exact absurd is notLeastQ
    | sums first second => exact not_limited_sums limit notLeastD notLeastQ first second

/-- The loop on half of the range of the bus, with the controllers at this vector. -/
def driven (vd vq : Int32) : State := { started 1073741824 with vbus := 1073741824, vd, vq }

/-- A vector twice as long as the limit. -/
theorem limits_driven :
    Limited 1200000000 (-300000000) (driven 1200000000 (-300000000)).lim
        ((driven 1200000000 (-300000000)).limit.1.vd,
          (driven 1200000000 (-300000000)).limit.1.vq) ∧
      ¬ Limited (-2147483648) 5 (driven (-2147483648) 5).lim
        ((driven (-2147483648) 5).limit.1.vd, (driven (-2147483648) 5).limit.1.vq) :=
  ⟨(limits (driven 1200000000 (-300000000)) (by decide +kernel)).1
      ⟨by decide, by decide, by decide, by decide⟩,
    (limits (driven (-2147483648) 5) (by decide +kernel)).2 (.leastD (by decide))⟩

/-- **Two saturated controllers** are not limited at all. -/
theorem not_limits :
    ¬ ∀ s : State, (1024 : Int32) ≤ s.lim >>> 16 →
      Limited s.vd s.vq s.lim (s.limit.1.vd, s.limit.1.vq) := by
  intro limits_
  have limited := limits_ (driven 2147483647 2147483647) (by decide +kernel)
  exact absurd limited.within (by decide +kernel)

end ForgeDrive.Pmsm.Foc
