/-
**Cubic Hermite interpolation.**

Between the nodes 0 and 1 a cubic takes the values and the slopes of a function there.

* `hermite_remainder`, `hermite_error` — what the cubic is off by, from the fourth derivative (Rolle's
  theorem four times): at most `M / 384`, where that is at most `M`;
* `hermite_perturbed` — data that are off move the cubic by no more than the values are off, and a
  quarter of what the slopes are off;
* `hermite_sine` — so for a sine wave;
* `hermite_first_slope`, `hermite_second_slope` — what a wrong slope does, exactly.
-/

import Mathlib

namespace ForgeDrive.CubicHermite

/-! ### The cubic -/

section Cubic

variable {K : Type*} [CommRing K]

/-- The cubic with the values `f1` and `f2` and the slopes `d1` and `d2`, in nested form. -/
def hermite (f1 f2 d1 d2 t : K) : K :=
  t * (t * (t * (d1 + d2 - 2 * (f2 - f1)) + (3 * (f2 - f1) - (d2 + 2 * d1))) + d1) + f1

@[simp] theorem hermite_zero (f1 f2 d1 d2 : K) : hermite f1 f2 d1 d2 0 = f1 := by
  simp [hermite]

@[simp] theorem hermite_one (f1 f2 d1 d2 : K) : hermite f1 f2 d1 d2 1 = f2 := by
  unfold hermite
  ring

theorem hermite_first_slope (f1 f2 d1 d2 e t : K) :
    hermite f1 f2 (d1 + e) d2 t = hermite f1 f2 d1 d2 t + e * (t * (1 - t) ^ 2) := by
  unfold hermite
  ring

theorem hermite_second_slope (f1 f2 d1 d2 e t : K) :
    hermite f1 f2 d1 (d2 + e) t = hermite f1 f2 d1 d2 t - e * (t ^ 2 * (1 - t)) := by
  unfold hermite
  ring

/-- The values weigh one together, and each slope what its distance from the nodes gives. -/
theorem hermite_weights (f1 f2 d1 d2 t : K) :
    hermite f1 f2 d1 d2 t = f1 * ((1 - t) ^ 2 * (1 + 2 * t)) + f2 * (t ^ 2 * (3 - 2 * t)) +
      d1 * (t * (1 - t) ^ 2) - d2 * (t ^ 2 * (1 - t)) := by
  unfold hermite
  ring

end Cubic

/-- The distances from the nodes. -/
theorem distances_le (t : ℝ) : t * (1 - t) ≤ 1 / 4 := by
  linarith [sq_nonneg (2 * t - 1)]

/-- **Data that are off.** -/
theorem hermite_perturbed {f1 f2 d1 d2 g1 g2 e1 e2 t value slope : ℝ} (low : 0 ≤ t) (high : t ≤ 1)
    (first : |f1 - g1| ≤ value) (second : |f2 - g2| ≤ value) (starts : |d1 - e1| ≤ slope)
    (ends : |d2 - e2| ≤ slope) :
    |hermite f1 f2 d1 d2 t - hermite g1 g2 e1 e2 t| ≤ value + slope / 4 := by
  have left : 0 ≤ 1 - t := sub_nonneg.mpr high
  have difference : hermite f1 f2 d1 d2 t - hermite g1 g2 e1 e2 t =
      (f1 - g1) * ((1 - t) ^ 2 * (1 + 2 * t)) + (f2 - g2) * (t ^ 2 * (3 - 2 * t)) +
        (d1 - e1) * (t * (1 - t) ^ 2) - (d2 - e2) * (t ^ 2 * (1 - t)) := by
    rw [hermite_weights, hermite_weights]
    ring
  have scaled {x bound : ℝ} (small : |x| ≤ bound) (weight : ℝ) (positive : 0 ≤ weight) :
      |x * weight| ≤ bound * weight := by
    rw [abs_mul, abs_of_nonneg positive]
    exact mul_le_mul_of_nonneg_right small positive
  have value1 := scaled first ((1 - t) ^ 2 * (1 + 2 * t)) (by positivity)
  have value2 := scaled second (t ^ 2 * (3 - 2 * t))
    (mul_nonneg (sq_nonneg t) (by linarith))
  have slope1 := scaled starts (t * (1 - t) ^ 2) (by positivity)
  have slope2 := scaled ends (t ^ 2 * (1 - t)) (by positivity)
  have positive : 0 ≤ slope := (abs_nonneg _).trans starts
  rw [difference]
  calc |(f1 - g1) * ((1 - t) ^ 2 * (1 + 2 * t)) + (f2 - g2) * (t ^ 2 * (3 - 2 * t)) +
        (d1 - e1) * (t * (1 - t) ^ 2) - (d2 - e2) * (t ^ 2 * (1 - t))|
      ≤ value * ((1 - t) ^ 2 * (1 + 2 * t)) + value * (t ^ 2 * (3 - 2 * t)) +
          slope * (t * (1 - t) ^ 2) + slope * (t ^ 2 * (1 - t)) := by
        refine (abs_sub _ _).trans (add_le_add ((abs_add_le _ _).trans ?_) slope2)
        exact add_le_add ((abs_add_le _ _).trans (add_le_add value1 value2)) slope1
    _ = value + slope * (t * (1 - t)) := by ring
    _ ≤ value + slope * (1 / 4) :=
        add_le_add_right (mul_le_mul_of_nonneg_left (distances_le t) positive) value
    _ = value + slope / 4 := by ring

/-! ### The error -/

/-- A polynomial of the fourth degree. -/
def quartic (a b c d e s : ℝ) : ℝ := a + b * s + c * s ^ 2 + d * s ^ 3 + e * s ^ 4

theorem hasDerivAt_quartic (a b c d e s : ℝ) :
    HasDerivAt (quartic a b c d e) (quartic b (2 * c) (3 * d) (4 * e) 0 s) s := by
  have linear := (hasDerivAt_id s).const_mul b
  have square := (hasDerivAt_pow 2 s).const_mul c
  have cube := (hasDerivAt_pow 3 s).const_mul d
  have fourth := (hasDerivAt_pow 4 s).const_mul e
  have sum := (((linear.const_add a).add square).add cube).add fourth
  refine sum.congr_deriv ?_
  unfold quartic
  norm_num
  ring

/-- Rolle's theorem, between two zeros. -/
theorem zero_between {f f' : ℝ → ℝ} {a b : ℝ} (differentiable : ∀ s, HasDerivAt f (f' s) s)
    (less : a < b) (first : f a = 0) (second : f b = 0) : ∃ c, a < c ∧ c < b ∧ f' c = 0 := by
  obtain ⟨c, inside, zero⟩ := exists_hasDerivAt_eq_zero less
    (fun s _ => (differentiable s).continuousAt.continuousWithinAt) (first.trans second.symm)
    fun s _ => differentiable s
  exact ⟨c, inside.1, inside.2, zero⟩

/-- A function with three zeros, of which the outer two are double, has a zero of its fourth
derivative between them. -/
theorem fourth_zero {f f₁ f₂ f₃ f₄ : ℝ → ℝ} {a b c : ℝ} (first : ∀ s, HasDerivAt f (f₁ s) s)
    (second : ∀ s, HasDerivAt f₁ (f₂ s) s) (third : ∀ s, HasDerivAt f₂ (f₃ s) s)
    (fourth : ∀ s, HasDerivAt f₃ (f₄ s) s) (left : a < b) (right : b < c) (atA : f a = 0)
    (atB : f b = 0) (atC : f c = 0) (slopeA : f₁ a = 0) (slopeC : f₁ c = 0) :
    ∃ s, a < s ∧ s < c ∧ f₄ s = 0 := by
  obtain ⟨u, afterA, beforeB, zeroU⟩ := zero_between first left atA atB
  obtain ⟨v, afterB, beforeC, zeroV⟩ := zero_between first right atB atC
  obtain ⟨x, afterX, beforeX, zeroX⟩ := zero_between second afterA slopeA zeroU
  obtain ⟨y, afterY, beforeY, zeroY⟩ := zero_between second (beforeB.trans afterB) zeroU zeroV
  obtain ⟨z, afterZ, beforeZ, zeroZ⟩ := zero_between second beforeC zeroV slopeC
  obtain ⟨p, afterP, beforeP, zeroP⟩ := zero_between third (beforeX.trans afterY) zeroX zeroY
  obtain ⟨q, afterQ, beforeQ, zeroQ⟩ := zero_between third (beforeY.trans afterZ) zeroY zeroZ
  obtain ⟨s, afterS, beforeS, zeroS⟩ := zero_between fourth (beforeP.trans afterQ) zeroP zeroQ
  exact ⟨s, afterX.trans (afterP.trans afterS), beforeS.trans (beforeQ.trans beforeZ), zeroS⟩

/-- **The error of the interpolation**, by the fourth derivative somewhere. -/
theorem hermite_remainder {f f₁ f₂ f₃ f₄ : ℝ → ℝ} {t : ℝ} (first : ∀ s, HasDerivAt f (f₁ s) s)
    (second : ∀ s, HasDerivAt f₁ (f₂ s) s) (third : ∀ s, HasDerivAt f₂ (f₃ s) s)
    (fourth : ∀ s, HasDerivAt f₃ (f₄ s) s) (low : 0 ≤ t) (high : t ≤ 1) :
    ∃ s, f t - hermite (f 0) (f 1) (f₁ 0) (f₁ 1) t = f₄ s / 24 * (t * (1 - t)) ^ 2 := by
  rcases low.eq_or_lt with rfl | inside
  · exact ⟨0, by simp⟩
  rcases high.eq_or_lt with rfl | before
  · exact ⟨0, by simp⟩
  -- The multiple of the double zeros by which the error at `t` is made up.
  have width : (t * (1 - t)) ^ 2 ≠ 0 := pow_ne_zero 2 (mul_pos inside (sub_pos.mpr before)).ne'
  let k : ℝ := (f t - hermite (f 0) (f 1) (f₁ 0) (f₁ 1) t) / (t * (1 - t)) ^ 2
  have share : k * (t * (1 - t)) ^ 2 = f t - hermite (f 0) (f 1) (f₁ 0) (f₁ 1) t :=
    div_mul_cancel₀ _ width
  let c : ℝ := 3 * (f 1 - f 0) - (f₁ 1 + 2 * f₁ 0)
  let d : ℝ := f₁ 0 + f₁ 1 - 2 * (f 1 - f 0)
  have cubic (s : ℝ) : quartic (f 0) (f₁ 0) (c + k) (d - 2 * k) k s =
      hermite (f 0) (f 1) (f₁ 0) (f₁ 1) s + k * (s * (1 - s)) ^ 2 := by
    simp only [quartic, hermite, c, d]
    ring
  obtain ⟨s, -, -, zero⟩ := fourth_zero
    (fun s => (first s).sub (hasDerivAt_quartic (f 0) (f₁ 0) (c + k) (d - 2 * k) k s))
    (fun s => (second s).sub (hasDerivAt_quartic _ _ _ _ _ s))
    (fun s => (third s).sub (hasDerivAt_quartic _ _ _ _ _ s))
    (fun s => (fourth s).sub (hasDerivAt_quartic _ _ _ _ _ s)) inside before
    (by simp [quartic])
    (by
      show f t - quartic _ _ _ _ _ t = 0
      rw [cubic, share]
      ring)
    (by
      show f 1 - quartic _ _ _ _ _ 1 = 0
      rw [cubic, hermite_one]
      ring)
    (by simp [quartic])
    (by simp only [quartic, c, d]; ring)
  have factor : f₄ s / 24 = k := by
    simp only [quartic] at zero
    linear_combination zero / 24
  exact ⟨s, by rw [factor, share]⟩

/-- **The error of the interpolation**, where the fourth derivative is bounded. -/
theorem hermite_error {f f₁ f₂ f₃ f₄ : ℝ → ℝ} {M t : ℝ} (first : ∀ s, HasDerivAt f (f₁ s) s)
    (second : ∀ s, HasDerivAt f₁ (f₂ s) s) (third : ∀ s, HasDerivAt f₂ (f₃ s) s)
    (fourth : ∀ s, HasDerivAt f₃ (f₄ s) s) (bounded : ∀ s, |f₄ s| ≤ M) (low : 0 ≤ t) (high : t ≤ 1) :
    |f t - hermite (f 0) (f 1) (f₁ 0) (f₁ 1) t| ≤ M / 384 := by
  obtain ⟨s, error⟩ := hermite_remainder first second third fourth low high
  have positive : 0 ≤ M := (abs_nonneg _).trans (bounded s)
  have narrow : (t * (1 - t)) ^ 2 ≤ (1 / 4) ^ 2 :=
    pow_le_pow_left₀ (mul_nonneg low (sub_nonneg.mpr high)) (distances_le t) 2
  have small : |f₄ s / 24| ≤ M / 24 := by
    rw [abs_div, abs_of_pos (by norm_num : (0 : ℝ) < 24)]
    exact div_le_div_of_nonneg_right (bounded s) (by norm_num)
  rw [error, abs_mul, abs_of_nonneg (sq_nonneg (t * (1 - t)))]
  calc |f₄ s / 24| * (t * (1 - t)) ^ 2 ≤ M / 24 * (1 / 4) ^ 2 :=
        mul_le_mul small narrow (sq_nonneg _) (by positivity)
    _ = M / 384 := by ring

/-! ### Sine waves -/

theorem hasDerivAt_sine (A phase h s : ℝ) :
    HasDerivAt (fun s => A * Real.sin (phase + s * h)) (A * h * Real.cos (phase + s * h)) s := by
  have inner : HasDerivAt (fun s => phase + s * h) h s := by
    simpa using ((hasDerivAt_id s).mul_const h).const_add phase
  refine (inner.sin.const_mul A).congr_deriv ?_
  ring

theorem hasDerivAt_cosine (A phase h s : ℝ) :
    HasDerivAt (fun s => A * Real.cos (phase + s * h)) (-(A * h) * Real.sin (phase + s * h)) s := by
  have inner : HasDerivAt (fun s => phase + s * h) h s := by
    simpa using ((hasDerivAt_id s).mul_const h).const_add phase
  refine (inner.cos.const_mul A).congr_deriv ?_
  ring

/-- **The error for a sine wave.** -/
theorem hermite_sine {A t : ℝ} (amplitude : 0 ≤ A) (phase h : ℝ) (low : 0 ≤ t) (high : t ≤ 1) :
    |A * Real.sin (phase + t * h) - hermite (A * Real.sin phase) (A * Real.sin (phase + h))
      (A * h * Real.cos phase) (A * h * Real.cos (phase + h)) t| ≤ A * h ^ 4 / 384 := by
  have error := hermite_error (hasDerivAt_sine A phase h) (hasDerivAt_cosine (A * h) phase h)
    (hasDerivAt_sine (-(A * h * h)) phase h) (hasDerivAt_cosine (-(A * h * h) * h) phase h)
    (M := A * h ^ 4) (fun s => ?_) low high
  · simpa only [zero_mul, one_mul, add_zero] using error
  · have positive : 0 ≤ A * h ^ 4 := mul_nonneg amplitude (by positivity)
    rw [show -(-(A * h * h) * h * h) = A * h ^ 4 by ring, abs_mul, abs_of_nonneg positive]
    exact mul_le_of_le_one_right positive (Real.abs_sin_le_one _)

end ForgeDrive.CubicHermite
