/-
**The scales of the measurements** (`driver/stm32f4/fd_mc3p.c`: `fd_mc3p_set_gain`,
`fd_mc3p_set_sync_scale`, `mc3p_adc_calibrate`, `mc3p_offset_calibration`;
`PmsmControl/PmsmControlCore.cpp`: `PmsmControlCore::init`).

A measurement is a gain times the raw reading and an offset. The gain is computed from the reference
of the converter, `adc_to_uV`, and so is the offset, from the mean of the calibration.
`PmsmControlCore::init` sets the gains before `fd_mc3p_init` calibrates the reference.

What the code computes in floating point is taken exactly and rounded once, toward zero, where it is
stored. An offset is computed from a product of integers, which wraps.

* `gain_zero` — so all gains are zero, and no measurement depends on its reading;
* `offset_eq_zero_iff` — the offset of a current is zero exactly if the mean times the reference is
  even;
* `coreInit_calibrated_iff` — a current reads zero at zero current exactly if this is so and its gain
  is to be zero;
* `not_coreInit_calibrated` — the table of the configuration, with a sensor whose mean is 401.
-/

import Mathlib.Algebra.Order.Floor.Ring
import Mathlib.Data.Rat.Floor
import Mathlib.Tactic.FieldSimp
import Mathlib.Tactic.Ring
import ForgeDrive.Mc3p.Calibration

namespace ForgeDrive.Mc3p

/-! ### Rounding -/

/-- A value rounded toward zero. -/
def truncate (value : ℚ) : Int := if 0 ≤ value then ⌊value⌋ else ⌈value⌉

/-- The conversion to `int32_t`. What does not fit, which C leaves open, saturates as on the
target. -/
def toWord (value : ℚ) : Int32 :=
  Int32.ofInt (max (-2 ^ 31) (min (2 ^ 31 - 1) (truncate value)))

/-! ### The scales -/

/-- The fields of the handle that the scales are computed with. -/
structure Scales where
  adcToUV : Int16
  syncScale : UInt8 → Int32 × Int32

/-- The zeroed handle. -/
def Scales.zero : Scales := ⟨0, fun _ => (0, 0)⟩

/-- `FD_MC3P_CS_SCALE` and `FD_MC3P_VS_SCALE`. -/
def csScale : ℚ := 50
def vsScale : ℚ := 60

/-- `INT32_MAX`. -/
def int32Max : ℚ := 2147483647

/-- The gain of `fd_mc3p_set_gain`. -/
def Scales.gain (h : Scales) (s : UInt8) (gain : ℚ) : Int32 :=
  let scale := if s ≥ Sync.csu.index ∧ s ≤ Sync.csw.index then csScale else vsScale
  toWord ((gain * h.adcToUV.toInt * int32Max + 1 / 2) / (1000000 * scale))

/-- `fd_mc3p_set_gain`. -/
def Scales.setGain (h : Scales) (s : UInt8) (gain : ℚ) : Scales :=
  { h with syncScale := Function.update h.syncScale s (h.gain s gain, (h.syncScale s).2) }

def Scales.setOffset (h : Scales) (s : UInt8) (offset : Int32) : Scales :=
  { h with syncScale := Function.update h.syncScale s ((h.syncScale s).1, offset) }

/-- `FD_MC3P_FLOAT_TO_VS`. -/
def floatToVs (f : ℚ) : Int32 := toWord (f / vsScale * int32Max)

/-- `FD_MC3P_FLOAT_TO_CS`. -/
def floatToCs (f : ℚ) : Int32 := toWord (f / csScale * int32Max)

/-- The loop body of `fd_mc3p_set_sync_scale`. Its first test holds of every channel. -/
def Scales.setChannel (h : Scales) (scales : UInt8 → ℚ × ℚ) (i : UInt8) : Scales :=
  let h := h.setGain i (scales i).1
  if i ≥ Sync.vsbus.index ∨ i ≤ Sync.vsw.index then h.setOffset i (floatToVs (scales i).2)
  else if i ≥ Sync.csv.index ∨ i ≤ Sync.csw.index then h.setOffset i (floatToCs (scales i).2)
  else h

/-- `fd_mc3p_set_sync_scale`. -/
def Scales.setSyncScale (h : Scales) (scales : UInt8 → ℚ × ℚ) : Scales :=
  [0, 1, 2, 3, 4, 5, 6].foldl (fun h i => h.setChannel scales i) h

/-- What `mc3p_adc_calibrate` reads: the factory value of the internal reference, and its
conversions. -/
structure Reference where
  vrefinCal : UInt16
  samples : List UInt16

/-- `adc_ref_V`. -/
def Reference.adcRefV (r : Reference) : ℚ :=
  let inRefDivAdcRef : Nat := (r.samples.map UInt16.toNat).sum / 30
  let internalRefV : ℚ := r.vrefinCal.toNat / 4095 * (33 / 10)
  internalRefV * 4095 / inRefDivAdcRef

/-- The ranks are counted from zero. -/
local instance fourRanks : NeZero 4 := ⟨by decide⟩

section Init

/- The conversion to `int16_t`. -/
variable (narrow : ℚ → Int16)

/-- `mc3p_adc_calibrate`. -/
def Scales.adcCalibrate (h : Scales) (reference : Reference) : Scales :=
  { h with adcToUV := narrow (reference.adcRefV * 1000000 / 4095) }

/-- The product in `mc3p_offset_calibration`, all of whose factors are integers. Where it overflows,
which C leaves open, it wraps as on the target. -/
def Scales.product (h : Scales) (sum : UInt16) : Int32 :=
  Int32.ofNat sum.toNat * h.adcToUV.toInt32 * Int32.maxValue

/-- An offset of `mc3p_offset_calibration`. -/
def Scales.offset (h : Scales) (sum : UInt16) (scale : ℚ) : Int32 :=
  toWord (((h.product sum).toInt + 1 / 2) / (1000000 * scale))

/-- The offsets of `mc3p_offset_calibration`, of the sums that the division left. -/
def Scales.offsets (h : Scales) (results : Calibration.Results) (index : UInt8) : Int32 :=
  if index = Sync.csu.index then h.offset (results.sum .currents 1) csScale
  else if index = Sync.csv.index then h.offset (results.sum .currents 2) csScale
  else if index = Sync.csw.index then h.offset (results.sum .currents 3) csScale
  else if index = Sync.vsu.index then h.offset (results.sum .voltages 1) vsScale
  else if index = Sync.vsv.index then h.offset (results.sum .voltages 2) vsScale
  else if index = Sync.vsw.index then h.offset (results.sum .voltages 3) vsScale
  else (h.syncScale index).2

/-- `PmsmControlCore::init` on the zeroed handle: the scales are set, and then `fd_mc3p_init`
calibrates the reference and the offsets. -/
def coreInit (limits : Setup) (scales : UInt8 → ℚ × ℚ) (reference : Reference)
    (results : Calibration.Results) : Driver :=
  let h := Scales.zero.setSyncScale scales
  let h := h.adcCalibrate narrow reference
  let setup := { limits with
    syncScale := h.syncScale
    offsetCalibration := true
    offsets := h.offsets results }
  (Driver.init setup).writeFloat

end Init

/-! ### What a current is to read -/

/-- The legs of the bridge, whose currents are measured. -/
inductive Leg
  | u
  | v
  | w
  deriving DecidableEq, Repr

def Leg.current : Leg → Sync
  | .u => .csu
  | .v => .csv
  | .w => .csw

/-- The rank of the calibration a current is sampled at. -/
def Leg.rank : Leg → Fin 4
  | .u => 1
  | .v => 2
  | .w => 3

/-- What `fd_mc3p_read_sync` makes of a reading. -/
def Driver.convert (d : Driver) (index : UInt8) (raw : UInt16) : Int32 :=
  (d.syncScale index).1 * Int32.ofNat raw.toNat + (d.syncScale index).2

/-- **A current reads zero at zero current**: every reading converts to the gain times its distance
from the mean, up to one step of the gain. -/
def Driver.ReadsZero (d : Driver) (leg : Leg) (gain : Int32) (mean : UInt16) : Prop :=
  ∀ raw : UInt16, raw.toNat ≤ 4095 →
    |(d.convert leg.current.index raw).toInt - gain.toInt * (raw.toNat - mean.toNat)| ≤ |gain.toInt|

/-! ### Rounding to zero -/

theorem truncate_eq_zero_iff (value : ℚ) : truncate value = 0 ↔ |value| < 1 := by
  unfold truncate
  split_ifs with sign
  · rw [abs_of_nonneg sign, Int.floor_eq_zero_iff, Set.mem_Ico, and_iff_right sign]
  · have negative := not_le.mp sign
    rw [abs_of_neg negative, Int.ceil_eq_zero_iff, Set.mem_Ioc, and_iff_left negative.le,
      neg_lt]

theorem toWord_toInt (value : ℚ) :
    (toWord value).toInt = max (-2 ^ 31) (min (2 ^ 31 - 1) (truncate value)) := by
  rw [toWord]
  exact Int32.toInt_ofInt_of_le (by norm_num) (by norm_num)

theorem toWord_eq_zero_iff (value : ℚ) : (toWord value).toInt = 0 ↔ |value| < 1 := by
  rw [toWord_toInt, ← truncate_eq_zero_iff]
  norm_num
  omega

/-- A quotient that is rounded to zero. -/
theorem toWord_quotient (dividend : ℚ) {divisor : ℚ} (positive : 0 < divisor) :
    (toWord (dividend / divisor)).toInt = 0 ↔ |dividend| < divisor := by
  rw [toWord_eq_zero_iff, abs_div, abs_of_pos positive, div_lt_one positive]

/-! ### The scales after the initialization -/

theorem Scales.setOffset_gain (h : Scales) (s index : UInt8) (offset : Int32) :
    ((h.setOffset s offset).syncScale index).1 = (h.syncScale index).1 := by
  unfold Scales.setOffset
  by_cases here : index = s
  · simp [here]
  · simp [here]

/-- Setting one channel sets its gain with the reference there is. -/
theorem Scales.setChannel_gain (h : Scales) (scales : UInt8 → ℚ × ℚ) (i index : UInt8) :
    ((h.setChannel scales i).syncScale index).1 =
      if index = i then h.gain i (scales i).1 else (h.syncScale index).1 := by
  have gain : ((h.setGain i (scales i).1).syncScale index).1 =
      if index = i then h.gain i (scales i).1 else (h.syncScale index).1 := by
    unfold Scales.setGain
    by_cases here : index = i
    · simp [here]
    · simp [here]
  rw [← gain, Scales.setChannel]
  split_ifs <;> simp only [Scales.setOffset_gain]

theorem Scales.setChannel_adcToUV (h : Scales) (scales : UInt8 → ℚ × ℚ) (i : UInt8) :
    (h.setChannel scales i).adcToUV = h.adcToUV := by
  unfold Scales.setChannel
  split_ifs <;> rfl

/-- **With a reference that is not calibrated, every gain is zero.** -/
theorem gain_zero {h : Scales} (uncalibrated : h.adcToUV = 0) (s : UInt8) (gain : ℚ) :
    h.gain s gain = 0 := by
  have dividend : gain * ((0 : Int16).toInt : ℚ) * int32Max + 1 / 2 = 1 / 2 := by simp
  rw [← Int32.toInt_inj, Scales.gain, uncalibrated, dividend]
  refine (toWord_quotient _ ?_).mpr ?_ <;> split_ifs <;> norm_num [csScale, vsScale]

/-- Setting the scales with such a reference makes all gains zero. -/
theorem Scales.setSyncScale_gain (scales : UInt8 → ℚ × ℚ) (index : UInt8) :
    ((Scales.zero.setSyncScale scales).syncScale index).1 = 0 := by
  have loop : ∀ (channels : List UInt8) (h : Scales), h.adcToUV = 0 →
      (∀ index, (h.syncScale index).1 = 0) →
      ((channels.foldl (fun h i => h.setChannel scales i) h).syncScale index).1 = 0 := by
    intro channels
    induction channels with
    | nil => exact fun h _ none => none index
    | cons i rest ih =>
      intro h uncalibrated none
      refine ih _ ((h.setChannel_adcToUV scales i).trans uncalibrated) fun index => ?_
      rw [h.setChannel_gain, gain_zero uncalibrated, none, ite_self]
  exact loop _ _ rfl fun _ => rfl

/-- The initialization with a calibration leaves the gain of a current, and sets its offset. -/
theorem Driver.init_syncScale (setup : Setup) (calibrates : setup.offsetCalibration = true)
    (leg : Leg) :
    (Driver.init setup).writeFloat.syncScale leg.current.index =
      ((setup.syncScale leg.current.index).1, setup.offsets leg.current.index) := by
  rw [Driver.init, if_pos calibrates]
  cases leg <;> rfl

section Init

variable (narrow : ℚ → Int16) (limits : Setup) (scales : UInt8 → ℚ × ℚ) (reference : Reference)
  (results : Calibration.Results)

/-- The scales with the calibrated reference. -/
def calibrated : Scales := (Scales.zero.setSyncScale scales).adcCalibrate narrow reference

/-- What is left in the handle for a current. -/
theorem coreInit_syncScale (leg : Leg) :
    (coreInit narrow limits scales reference results).syncScale leg.current.index =
      (0, (calibrated narrow scales reference).offset (results.sum .currents leg.rank) csScale) := by
  have offset : (calibrated narrow scales reference).offsets results leg.current.index =
      (calibrated narrow scales reference).offset (results.sum .currents leg.rank) csScale := by
    cases leg <;> rfl
  rw [← offset, ← Scales.setSyncScale_gain scales leg.current.index]
  exact Driver.init_syncScale _ rfl leg

/-- **No measurement of a current depends on its reading.** -/
theorem coreInit_convert (leg : Leg) (raw : UInt16) :
    (coreInit narrow limits scales reference results).convert leg.current.index raw =
      (calibrated narrow scales reference).offset (results.sum .currents leg.rank) csScale := by
  rw [Driver.convert, coreInit_syncScale, Int32.zero_mul, Int32.zero_add]

end Init

/-- **A constant is within one step of a line only if both are zero.** -/
theorem constant_within_iff (gain offset mean : Int) :
    (∀ raw : UInt16, raw.toNat ≤ 4095 → |offset - gain * (raw.toNat - mean)| ≤ |gain|) ↔
      gain = 0 ∧ offset = 0 := by
  constructor
  · intro within
    have low : |offset - gain * (0 - mean)| ≤ |gain| := within 0 (by decide)
    have high : |offset - gain * (4095 - mean)| ≤ |gain| := within 4095 (by decide)
    have span : gain * 4095 = (offset - gain * (0 - mean)) - (offset - gain * (4095 - mean)) := by
      ring
    have bound : |gain| * 4095 ≤ |gain| + |gain| := by
      calc |gain| * 4095 = |gain * 4095| := by rw [abs_mul]; rfl
        _ ≤ _ := by rw [span]; exact abs_sub _ _
        _ ≤ |gain| + |gain| := add_le_add low high
    have zero : gain = 0 := abs_eq_zero.mp (by linarith [abs_nonneg gain])
    rw [zero] at low
    exact ⟨zero, by simpa using low⟩
  · rintro ⟨rfl, rfl⟩ raw -
    simp

/-! ### When a current reads zero -/

theorem gain_current (h : Scales) (leg : Leg) (gain : ℚ) :
    h.gain leg.current.index gain =
      toWord ((gain * h.adcToUV.toInt * int32Max + 1 / 2) / (1000000 * csScale)) := by
  cases leg <;> rfl

/-- The product, of the mean times the reference. -/
theorem Scales.product_toInt (h : Scales) {sum : UInt16} (small : sum.toNat ≤ 511) :
    (h.product sum).toInt =
      (sum.toNat * h.adcToUV.toInt * 2147483647).bmod (2 ^ 32) := by
  have low := h.adcToUV.le_toInt
  have high := h.adcToUV.toInt_lt
  have count : (Int32.ofNat sum.toNat).toInt = sum.toNat :=
    Int32.toInt_ofNat_of_lt (by omega)
  have factor : Int32.maxValue.toInt = 2147483647 := rfl
  rw [Scales.product, Int32.toInt_mul, Int32.toInt_mul, count, Int16.toInt_toInt32, factor,
    Int.bmod_mul_bmod]

/-- Scaled to the full range and wrapped, an even value is its negative. -/
theorem wrap_even (half : Int) :
    (2 * half * 2147483647).bmod (2 ^ 32) = (-(2 * half)).bmod (2 ^ 32) := by
  rw [show 2 * half * 2147483647 = -(2 * half) + (2 ^ 32 : Nat) * half by push_cast; ring,
    Int.add_mul_bmod_self_left]

/-- An odd value is half the range away from that. -/
theorem wrap_odd (half : Int) :
    ((2 * half + 1) * 2147483647).bmod (2 ^ 32) = (2147483647 - 2 * half).bmod (2 ^ 32) := by
  rw [show (2 * half + 1) * 2147483647 = 2147483647 - 2 * half + (2 ^ 32 : Nat) * half by
    push_cast; ring, Int.add_mul_bmod_self_left]

/-- The mean times the reference, which fits 25 bits. -/
theorem value_within (h : Scales) {sum : UInt16} (small : sum.toNat ≤ 511) :
    |(sum.toNat : Int) * h.adcToUV.toInt| ≤ 511 * 32768 := by
  have low := h.adcToUV.le_toInt
  have high := h.adcToUV.toInt_lt
  rw [abs_mul]
  refine mul_le_mul ?_ ?_ (abs_nonneg _) (by norm_num)
  · rw [Nat.abs_cast]
    exact_mod_cast small
  · exact abs_le.mpr ⟨low, by omega⟩

/-- **An offset is zero exactly if the mean times the reference is even.** -/
theorem offset_eq_zero_iff (h : Scales) {sum : UInt16} (small : sum.toNat ≤ 511) :
    (h.offset sum csScale).toInt = 0 ↔ Even ((sum.toNat : Int) * h.adcToUV.toInt) := by
  have within := value_within h small
  have half (product : Int) : (product : ℚ) + 1 / 2 = ((product * 2 + 1 : Int) : ℚ) / 2 := by
    push_cast
    ring
  rw [Scales.offset, toWord_quotient _ (by norm_num [csScale]), half, csScale, abs_div,
    div_lt_iff₀ (by norm_num), ← Int.cast_abs, h.product_toInt small]
  generalize (sum.toNat : Int) * h.adcToUV.toInt = value at within ⊢
  have integral (number : Int) :
      ((number : ℚ) < 1000000 * 50 * |2|) ↔ number < 100000000 := by
    norm_num
    norm_cast
  rw [integral, abs_lt]
  rw [abs_le] at within
  obtain ⟨half, rfl | rfl⟩ := Int.even_or_odd' value
  · rw [wrap_even, Int.bmod_def]
    refine iff_of_true ?_ (even_two_mul half)
    split_ifs <;> omega
  · rw [wrap_odd, Int.bmod_def]
    refine iff_of_false ?_ (Int.not_even_two_mul_add_one half)
    split_ifs <;> omega

/-- **A current reads zero at zero current exactly if its gain is to be rounded to zero, and its mean
times the reference is even.** -/
theorem coreInit_calibrated_iff (narrow : ℚ → Int16) (limits : Setup) (scales : UInt8 → ℚ × ℚ)
    (reference : Reference) (results : Calibration.Results) (leg : Leg) :
    (coreInit narrow limits scales reference results).ReadsZero leg
        ((calibrated narrow scales reference).gain leg.current.index
          (scales leg.current.index).1) (results.sum .currents leg.rank) ↔
      |(scales leg.current.index).1 * (calibrated narrow scales reference).adcToUV.toInt *
          int32Max + 1 / 2| < 1000000 * csScale ∧
        Even (((results.sum .currents leg.rank).toNat : Int) *
          (calibrated narrow scales reference).adcToUV.toInt) := by
  simp only [Driver.ReadsZero, coreInit_convert]
  rw [constant_within_iff, offset_eq_zero_iff _ (results.sum_le _ _), gain_current,
    toWord_quotient _ (by norm_num [csScale])]

/-! ### The table of the configuration -/

/-- `MC3P_SYNC_SCALE`. -/
def mc3pSyncScale (index : UInt8) : ℚ × ℚ :=
  if index = 0 then (30, 0)
  else if index = 1 then (15, 0)
  else if index = 2 then (20, 0)
  else if index = 3 then (15, 0)
  else if index = 4 then (12, 0)
  else if index = 5 then (50, 0)
  else (12, 0)

/-- A reference of 3.3 V. -/
def typicalReference : Reference := ⟨1500, List.replicate 30 1500⟩

/-- **With a sensor whose mean is 401** the current of U reads 42 whatever is measured. -/
theorem not_coreInit_calibrated :
    ¬ ∀ narrow limits scales reference results leg,
      (coreInit narrow limits scales reference results).ReadsZero leg
        ((calibrated narrow scales reference).gain leg.current.index
          (scales leg.current.index).1) (results.sum .currents leg.rank) := by
  intro reads
  obtain ⟨results, samples⟩ := Calibration.averages_level 401
  have mean : results.sum .currents 1 = 401 := by
    refine (results.computed.1.sum 1).trans ?_
    rw [samples, Calibration.quotientWord, Calibration.sumWord, Calibration.total_replicate]
    decide
  have zero := reads (fun value => Int16.ofInt (truncate value)) .zero mc3pSyncScale
    typicalReference results .u 2048 (by decide)
  rw [coreInit_convert, Leg.rank, mean] at zero
  exact absurd zero (by decide +kernel)

end ForgeDrive.Mc3p
