/-
**The powers of a point near the unit circle**, and tables of sines.

The sines of the multiples of an angle are the imaginary parts of the powers of a point of the unit
circle. With a rational point close to it the powers are rational, and a table is checked against
them in integers.

* `pow_close` — the distance of the powers grows by at most the distance of the points;
* `point_close` — how close a rational point is to the point of an angle;
* `certified_sound` — what the check of a table says;
* `certified_sine` — a table that passes it is a table of sines.
-/

import Mathlib

namespace ForgeDrive.UnitPowers

open Complex

/-- **The powers of two points of the unit disk.** -/
theorem pow_close {z w : ℂ} (first : ‖z‖ ≤ 1) (second : ‖w‖ ≤ 1) (k : ℕ) :
    ‖z ^ k - w ^ k‖ ≤ k * ‖z - w‖ := by
  induction k with
  | zero => simp
  | succ k ih =>
    have power : ‖z ^ k‖ ≤ 1 := norm_pow z k ▸ pow_le_one₀ (norm_nonneg z) first
    have split : z ^ (k + 1) - w ^ (k + 1) = z ^ k * (z - w) + (z ^ k - w ^ k) * w := by ring
    have step : ‖z ^ k * (z - w)‖ ≤ ‖z - w‖ := by
      rw [norm_mul]
      exact mul_le_of_le_one_left (norm_nonneg _) power
    have kept : ‖(z ^ k - w ^ k) * w‖ ≤ k * ‖z - w‖ := by
      rw [norm_mul]
      exact (mul_le_of_le_one_right (norm_nonneg _) second).trans ih
    calc ‖z ^ (k + 1) - w ^ (k + 1)‖ ≤ ‖z ^ k * (z - w)‖ + ‖(z ^ k - w ^ k) * w‖ :=
          split ▸ norm_add_le _ _
      _ ≤ ‖z - w‖ + k * ‖z - w‖ := add_le_add step kept
      _ = (k + 1 : ℕ) * ‖z - w‖ := by
        rw [Nat.cast_succ]
        ring

/-! ### Points close to the circle -/

/-- The point with numerators `re` and `im` and this denominator. -/
noncomputable def point (re im den : ℤ) : ℂ := (re + im * I) / den

/-- The first terms of the series of the cosine. -/
def cosSeries (p : ℚ) : ℚ := 1 - p ^ 2 / 2 + p ^ 4 / 24 - p ^ 6 / 720

/-- The first terms of the series of the sine. -/
def sinSeries (p : ℚ) : ℚ := p - p ^ 3 / 6 + p ^ 5 / 120 - p ^ 7 / 5040

/-- A point given by them is close to the circle. -/
theorem series_close {p : ℚ} (small : |(p : ℝ)| ≤ 1) :
    ‖(cosSeries p + sinSeries p * I : ℂ) - exp ((p : ℝ) * I)‖ ≤ |(p : ℝ)| ^ 8 * (9 / 322560) := by
  have norm : ‖((p : ℝ) * I : ℂ)‖ = |(p : ℝ)| := by
    rw [norm_mul, norm_I, mul_one, norm_real, Real.norm_eq_abs]
  have remainder := exp_bound (x := (p : ℝ) * I) (norm ▸ small) (n := 8) (by norm_num)
  have terms : ∑ m ∈ Finset.range 8, ((p : ℝ) * I : ℂ) ^ m / m.factorial =
      cosSeries p + sinSeries p * I := by
    have two : I ^ 2 = -1 := I_sq
    have three : I ^ 3 = -I := I_pow_three
    have four : I ^ 4 = 1 := I_pow_four
    have five : I ^ 5 = I := by rw [pow_succ, four, one_mul]
    have six : I ^ 6 = -1 := by rw [pow_succ, five, ← sq, two]
    have seven : I ^ 7 = -I := by rw [pow_succ, six, neg_one_mul]
    simp only [Finset.sum_range_succ, Finset.sum_range_zero, mul_pow, two, three, four, five, six,
      seven, cosSeries, sinSeries]
    push_cast
    norm_num [Nat.factorial]
    ring
  rw [terms, norm] at remainder
  rw [norm_sub_rev]
  refine remainder.trans (le_of_eq ?_)
  norm_num [Nat.factorial]

/-- Points of the circle are no further apart than their angles. -/
theorem exp_lipschitz (x p : ℝ) : ‖exp (p * I) - exp (x * I)‖ ≤ |x - p| := by
  have split : exp (p * I) - exp (x * I) = -(exp (p * I) * (exp (I * (x - p : ℝ)) - 1)) := by
    rw [mul_sub, ← exp_add]
    push_cast
    ring_nf
  rw [split, norm_neg, norm_mul, norm_exp_ofReal_mul_I, one_mul]
  exact Real.norm_exp_I_mul_ofReal_sub_one_le

/-- **A rational point close to a point of the circle.** -/
theorem point_close (re im den : ℤ) (x : ℝ) {p : ℚ} (small : |(p : ℝ)| ≤ 1) :
    ‖point re im den - exp (x * I)‖ ≤ |(re : ℝ) / den - cosSeries p| +
      |(im : ℝ) / den - sinSeries p| + |(p : ℝ)| ^ 8 * (9 / 322560) + |x - p| := by
  have apart : ‖point re im den - (cosSeries p + sinSeries p * I : ℂ)‖ ≤
      |(re : ℝ) / den - cosSeries p| + |(im : ℝ) / den - sinSeries p| := by
    have parts : point re im den - (cosSeries p + sinSeries p * I : ℂ) =
        (((re : ℝ) / den - cosSeries p : ℝ) : ℂ) + (((im : ℝ) / den - sinSeries p : ℝ) : ℂ) * I := by
      rw [point]
      push_cast
      ring
    rw [parts]
    refine (norm_add_le _ _).trans (add_le_add ?_ ?_)
    · rw [norm_real, Real.norm_eq_abs]
    · rw [norm_mul, norm_I, mul_one, norm_real, Real.norm_eq_abs]
  calc ‖point re im den - exp (x * I)‖
      ≤ ‖point re im den - (cosSeries p + sinSeries p * I : ℂ)‖ +
          ‖(cosSeries p + sinSeries p * I : ℂ) - exp ((p : ℝ) * I)‖ +
          ‖exp ((p : ℝ) * I) - exp (x * I)‖ := by
        refine (norm_sub_le_norm_sub_add_norm_sub _ (exp ((p : ℝ) * I)) _).trans
          (add_le_add ?_ le_rfl)
        exact norm_sub_le_norm_sub_add_norm_sub _ _ _
    _ ≤ _ := add_le_add (add_le_add apart (series_close small)) (exp_lipschitz x p)

/-! ### The check of a table -/

section Table

variable (re im den scale fine tolerance : ℤ)

/-- Whether the entries are the imaginary parts of the powers, times the scale, with the tolerance as
a multiple of `1 / fine`; the current power is `(x + y * I) / d`. -/
def certified : List ℤ → ℤ → ℤ → ℤ → Bool
  | [], _, _, _ => true
  | entry :: rest, x, y, d =>
    decide (fine * (entry * d - scale * y).natAbs ≤ tolerance * d) &&
      certified rest (x * re - y * im) (x * im + y * re) (d * den)

variable {re im den scale fine tolerance}

/-- One entry. -/
theorem entry_close (positive : 0 < fine) {entry x y d : ℤ} {power : ℂ} (denominator : 0 < d)
    (here : power = point x y d)
    (close : fine * (entry * d - scale * y).natAbs ≤ tolerance * d) :
    |(entry : ℝ) - scale * power.im| ≤ tolerance / fine := by
  have fineReal : (0 : ℝ) < fine := Int.cast_pos.mpr positive
  have dReal : (0 : ℝ) < d := Int.cast_pos.mpr denominator
  have imaginary : power.im = y / d := by
    rw [here, point, div_intCast_im]
    simp
  have closeReal : (fine : ℝ) * |(entry : ℝ) * d - scale * y| ≤ tolerance * d := by
    rw [← Int.abs_eq_natAbs] at close
    exact_mod_cast close
  have scaled : (entry : ℝ) - scale * (y / d) = (entry * d - scale * y) / d := by
    field_simp
  rw [imaginary, scaled, abs_div, abs_of_pos dReal, div_le_div_iff₀ dReal fineReal]
  linarith

/-- **A table that passes**, from some power on. -/
theorem certified_sound (positive : 0 < fine) (divides : 0 < den) {table : List ℤ} {x y d : ℤ}
    {k : ℕ} (denominator : 0 < d) (here : point re im den ^ k = point x y d)
    (passes : certified re im den scale fine tolerance table x y d = true) :
    ∀ (i : ℕ) (entry : ℤ), table[i]? = some entry →
      |(entry : ℝ) - scale * (point re im den ^ (k + i)).im| ≤ tolerance / fine := by
  induction table generalizing x y d k with
  | nil => exact fun i entry at_ => absurd at_ (by simp)
  | cons first rest ih =>
    rw [certified, Bool.and_eq_true, decide_eq_true_eq] at passes
    intro i entry at_
    cases i with
    | zero =>
      obtain rfl : first = entry := Option.some.inj at_
      exact entry_close positive denominator here passes.1
    | succ i =>
      have dNonzero : (d : ℂ) ≠ 0 := Int.cast_ne_zero.mpr denominator.ne'
      have denNonzero : (den : ℂ) ≠ 0 := Int.cast_ne_zero.mpr divides.ne'
      have next : point re im den ^ (k + 1) =
          point (x * re - y * im) (x * im + y * re) (d * den) := by
        rw [pow_succ, here]
        simp only [point]
        push_cast
        field_simp
        linear_combination (y * im : ℂ) * I_sq
      have later := ih (mul_pos denominator divides) next passes.2 i entry at_
      rwa [Nat.add_assoc, Nat.add_comm 1 i] at later

/-- **A table of sines.** -/
theorem certified_sine (positive : 0 < fine) (divides : 0 < den) (scales : 0 ≤ scale)
    {table : List ℤ} (passes : certified re im den scale fine tolerance table 1 0 1 = true)
    (inDisk : ‖point re im den‖ ≤ 1) (angle : ℝ) {i : ℕ} {entry : ℤ} (at_ : table[i]? = some entry) :
    |(entry : ℝ) - scale * Real.sin (i * angle)| ≤
      tolerance / fine + scale * (i * ‖point re im den - exp (angle * I)‖) := by
  have close := certified_sound (k := 0) positive divides one_pos (by simp [point]) passes i entry at_
  rw [Nat.zero_add] at close
  have onCircle : ‖exp (angle * I)‖ ≤ 1 := (norm_exp_ofReal_mul_I angle).le
  have sine : (exp (angle * I) ^ i).im = Real.sin (i * angle) := by
    rw [← exp_nat_mul, ← mul_assoc, ← exp_ofReal_mul_I_im]
    push_cast
    rfl
  have apart := (abs_im_le_norm _).trans (pow_close inDisk onCircle i)
  rw [sub_im, sine] at apart
  have scaled : |(scale : ℝ) * (point re im den ^ i).im - scale * Real.sin (i * angle)| ≤
      scale * (i * ‖point re im den - exp (angle * I)‖) := by
    rw [← mul_sub, abs_mul, abs_of_nonneg (Int.cast_nonneg scales)]
    exact mul_le_mul_of_nonneg_left apart (Int.cast_nonneg scales)
  exact (abs_sub_le _ _ _).trans (add_le_add close scaled)

end Table

end ForgeDrive.UnitPowers
