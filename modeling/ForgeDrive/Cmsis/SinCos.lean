/-
**The sine and the cosine of CMSIS-DSP** (`arm_sin_cos_q31.c`, with `sinTable_q31` of
`arm_common_tables.c`).

`Foc_pwmLoop` and `SComm_pwmLoop` turn vectors with `arm_sin_cos_q31`. It interpolates between 512
angles, with the cubic that the table's values and slopes give, in fixed-point arithmetic.

* `sinTableQ31_sine` — the table is one of sines, to a unit;
* `interpolateChecked_eq`, `toInt_interpolate` — nothing overflows between two nodes of the table, so
  the value is that of the integers;
* `rise_close` — the rounding takes at most four units;
* `armSinCos_accurate` — nothing overflows at any angle; the sine is within six units of the true one,
  and so is the cosine, but next to 270 degrees: there the slope is the opposite of the least word,
  which is that word again.
-/

import Mathlib
import ForgeDrive.Library.CubicHermite
import ForgeDrive.Library.UnitPowers
import ForgeDrive.Pmsm.Foc

namespace ForgeDrive.Cmsis

open CubicHermite FixedPoint UnitPowers
open Pmsm.Foc (clipQ63ToQ31)

/-! ### The function -/

/-- `sinTable_q31`. -/
def sinTableQ31 : List Int32 :=
  [0, 26352928, 52701887, 79042909, 105372028, 131685278, 157978697, 184248325, 210490206,
  236700388, 262874923, 289009871, 315101295, 341145265, 367137861, 393075166, 418953276,
  444768294, 470516330, 496193509, 521795963, 547319836, 572761285, 598116479, 623381598,
  648552838, 673626408, 698598533, 723465451, 748223418, 772868706, 797397602, 821806413,
  846091463, 870249095, 894275671, 918167572, 941921200, 965532978, 988999351, 1012316784,
  1035481766, 1058490808, 1081340445, 1104027237, 1126547765, 1148898640, 1171076495, 1193077991,
  1214899813, 1236538675, 1257991320, 1279254516, 1300325060, 1321199781, 1341875533, 1362349204,
  1382617710, 1402678000, 1422527051, 1442161874, 1461579514, 1480777044, 1499751576, 1518500250,
  1537020244, 1555308768, 1573363068, 1591180426, 1608758157, 1626093616, 1643184191, 1660027308,
  1676620432, 1692961062, 1709046739, 1724875040, 1740443581, 1755750017, 1770792044, 1785567396,
  1800073849, 1814309216, 1828271356, 1841958164, 1855367581, 1868497586, 1881346202, 1893911494,
  1906191570, 1918184581, 1929888720, 1941302225, 1952423377, 1963250501, 1973781967, 1984016189,
  1993951625, 2003586779, 2012920201, 2021950484, 2030676269, 2039096241, 2047209133, 2055013723,
  2062508835, 2069693342, 2076566160, 2083126254, 2089372638, 2095304370, 2100920556, 2106220352,
  2111202959, 2115867626, 2120213651, 2124240380, 2127947206, 2131333572, 2134398966, 2137142927,
  2139565043, 2141664948, 2143442326, 2144896910, 2146028480, 2146836866, 2147321946, 2147483647,
  2147321946, 2146836866, 2146028480, 2144896910, 2143442326, 2141664948, 2139565043, 2137142927,
  2134398966, 2131333572, 2127947206, 2124240380, 2120213651, 2115867626, 2111202959, 2106220352,
  2100920556, 2095304370, 2089372638, 2083126254, 2076566160, 2069693342, 2062508835, 2055013723,
  2047209133, 2039096241, 2030676269, 2021950484, 2012920201, 2003586779, 1993951625, 1984016189,
  1973781967, 1963250501, 1952423377, 1941302225, 1929888720, 1918184581, 1906191570, 1893911494,
  1881346202, 1868497586, 1855367581, 1841958164, 1828271356, 1814309216, 1800073849, 1785567396,
  1770792044, 1755750017, 1740443581, 1724875040, 1709046739, 1692961062, 1676620432, 1660027308,
  1643184191, 1626093616, 1608758157, 1591180426, 1573363068, 1555308768, 1537020244, 1518500250,
  1499751576, 1480777044, 1461579514, 1442161874, 1422527051, 1402678000, 1382617710, 1362349204,
  1341875533, 1321199781, 1300325060, 1279254516, 1257991320, 1236538675, 1214899813, 1193077991,
  1171076495, 1148898640, 1126547765, 1104027237, 1081340445, 1058490808, 1035481766, 1012316784,
  988999351, 965532978, 941921200, 918167572, 894275671, 870249095, 846091463, 821806413,
  797397602, 772868706, 748223418, 723465451, 698598533, 673626408, 648552838, 623381598,
  598116479, 572761285, 547319836, 521795963, 496193509, 470516330, 444768294, 418953276,
  393075166, 367137861, 341145265, 315101295, 289009871, 262874923, 236700388, 210490206,
  184248325, 157978697, 131685278, 105372028, 79042909, 52701887, 26352928, 0, -26352928,
  -52701887, -79042909, -105372028, -131685278, -157978697, -184248325, -210490206, -236700388,
  -262874923, -289009871, -315101295, -341145265, -367137861, -393075166, -418953276, -444768294,
  -470516330, -496193509, -521795963, -547319836, -572761285, -598116479, -623381598, -648552838,
  -673626408, -698598533, -723465451, -748223418, -772868706, -797397602, -821806413, -846091463,
  -870249095, -894275671, -918167572, -941921200, -965532978, -988999351, -1012316784,
  -1035481766, -1058490808, -1081340445, -1104027237, -1126547765, -1148898640, -1171076495,
  -1193077991, -1214899813, -1236538675, -1257991320, -1279254516, -1300325060, -1321199781,
  -1341875533, -1362349204, -1382617710, -1402678000, -1422527051, -1442161874, -1461579514,
  -1480777044, -1499751576, -1518500250, -1537020244, -1555308768, -1573363068, -1591180426,
  -1608758157, -1626093616, -1643184191, -1660027308, -1676620432, -1692961062, -1709046739,
  -1724875040, -1740443581, -1755750017, -1770792044, -1785567396, -1800073849, -1814309216,
  -1828271356, -1841958164, -1855367581, -1868497586, -1881346202, -1893911494, -1906191570,
  -1918184581, -1929888720, -1941302225, -1952423377, -1963250501, -1973781967, -1984016189,
  -1993951625, -2003586779, -2012920201, -2021950484, -2030676269, -2039096241, -2047209133,
  -2055013723, -2062508835, -2069693342, -2076566160, -2083126254, -2089372638, -2095304370,
  -2100920556, -2106220352, -2111202959, -2115867626, -2120213651, -2124240380, -2127947206,
  -2131333572, -2134398966, -2137142927, -2139565043, -2141664948, -2143442326, -2144896910,
  -2146028480, -2146836866, -2147321946, -2147483648, -2147321946, -2146836866, -2146028480,
  -2144896910, -2143442326, -2141664948, -2139565043, -2137142927, -2134398966, -2131333572,
  -2127947206, -2124240380, -2120213651, -2115867626, -2111202959, -2106220352, -2100920556,
  -2095304370, -2089372638, -2083126254, -2076566160, -2069693342, -2062508835, -2055013723,
  -2047209133, -2039096241, -2030676269, -2021950484, -2012920201, -2003586779, -1993951625,
  -1984016189, -1973781967, -1963250501, -1952423377, -1941302225, -1929888720, -1918184581,
  -1906191570, -1893911494, -1881346202, -1868497586, -1855367581, -1841958164, -1828271356,
  -1814309216, -1800073849, -1785567396, -1770792044, -1755750017, -1740443581, -1724875040,
  -1709046739, -1692961062, -1676620432, -1660027308, -1643184191, -1626093616, -1608758157,
  -1591180426, -1573363068, -1555308768, -1537020244, -1518500250, -1499751576, -1480777044,
  -1461579514, -1442161874, -1422527051, -1402678000, -1382617710, -1362349204, -1341875533,
  -1321199781, -1300325060, -1279254516, -1257991320, -1236538675, -1214899813, -1193077991,
  -1171076495, -1148898640, -1126547765, -1104027237, -1081340445, -1058490808, -1035481766,
  -1012316784, -988999351, -965532978, -941921200, -918167572, -894275671, -870249095, -846091463,
  -821806413, -797397602, -772868706, -748223418, -723465451, -698598533, -673626408, -648552838,
  -623381598, -598116479, -572761285, -547319836, -521795963, -496193509, -470516330, -444768294,
  -418953276, -393075166, -367137861, -341145265, -315101295, -289009871, -262874923, -236700388,
  -210490206, -184248325, -157978697, -131685278, -105372028, -79042909, -52701887, -26352928, 0]

/-- `CONTROLLER_Q31_SHIFT`. -/
def controllerQ31Shift : UInt32 := 32 - 9

/-- An entry of the table. -/
def entry (index : UInt16) : Int32 := sinTableQ31.getD index.toNat 0

/-- `Dn`. -/
def dn : Int64 := 0x1921FB5

/-- One of the two interpolations. -/
def interpolate (f1 f2 d1 d2 fract : Int32) : Int32 :=
  let df := f2 - f1
  let temp := dn * (d1.toInt64 + d2.toInt64)
  let temp := temp - (df.toInt64 <<< 32)
  let temp := fract.toInt64 * (temp >>> 31)
  let temp := temp + (((3 * df.toInt64) <<< 31) - (d2.toInt64 + (d1.toInt64 <<< 1)) * dn)
  let temp := fract.toInt64 * (temp >>> 31)
  let temp := temp + d1.toInt64 * dn
  let temp := fract.toInt64 * (temp >>> 31)
  clipQ63ToQ31 ((temp >>> 31) + f1.toInt64)

/-- The same with all operations checked: nothing, where one of them overflows. -/
def interpolateChecked (f1 f2 d1 d2 fract : Int32) : Option Int32 :=
  let df := Checked.difference32 f2 f1
  let dn := Checked.word dn
  let d1 := Checked.word d1.toInt64
  let d2 := Checked.word d2.toInt64
  let fract := Checked.word fract.toInt64
  let temp := dn * (d1 + d2)
  let temp := temp - (df <<< 32)
  let temp := fract * (temp >>> (31 : Int64))
  let temp := temp + (((Checked.word 3 * df) <<< 31) - (d2 + (d1 <<< 1)) * dn)
  let temp := fract * (temp >>> (31 : Int64))
  let temp := temp + d1 * dn
  let temp := fract * (temp >>> (31 : Int64))
  ((temp >>> (31 : Int64)) + Checked.word f1.toInt64).result.map clipQ63ToQ31

/-- `indexS`. -/
def indexS (theta : Int32) : UInt16 := (theta.toUInt32 >>> controllerQ31Shift).toUInt16

/-- `indexC`. -/
def indexC (theta : Int32) : UInt16 := (indexS theta + 128) &&& 0x1ff

/-- `fract`. -/
def fraction (theta : Int32) : Int32 :=
  ((theta.toUInt32 - ((indexS theta).toUInt32 <<< controllerQ31Shift)) <<< 8).toInt32

/-- `arm_sin_cos_q31`: the sine and the cosine. -/
def armSinCos (theta : Int32) : Int32 × Int32 :=
  let s := indexS theta
  let c := indexC theta
  (interpolate (entry s) (entry (s + 1)) (entry c) (entry (c + 1)) (fraction theta),
    interpolate (entry c) (entry (c + 1)) (-entry s) (-entry (s + 1)) (fraction theta))

/-- The same with checked interpolations. -/
def armSinCosChecked (theta : Int32) : Option (Int32 × Int32) := do
  let s := indexS theta
  let c := indexC theta
  let sin ← interpolateChecked (entry s) (entry (s + 1)) (entry c) (entry (c + 1)) (fraction theta)
  let cos ←
    interpolateChecked (entry c) (entry (c + 1)) (-entry s) (-entry (s + 1)) (fraction theta)
  return (sin, cos)

/-! ### The table -/

theorem sinTableQ31_length : sinTableQ31.length = 513 := by decide +kernel

/-- The point by which the table is checked, of the angle between two entries, with numerators and a
denominator. -/
def turnRe : ℤ := 72052168233621210
def turnIm : ℤ := 884257524013296
def turnDen : ℤ := 2 ^ 56

theorem turn_close :
    ‖point turnRe turnIm turnDen - Complex.exp ((Real.pi / 256 : ℝ) * Complex.I)‖ ≤ 1 / 2 ^ 50 := by
  have low := Real.pi_gt_d20
  have high := Real.pi_lt_d20
  have rational : (((3.14159265358979323846 / 256 : ℚ) : ℚ) : ℝ) = 3.14159265358979323846 / 256 := by
    norm_num
  have near : |Real.pi / 256 - ((3.14159265358979323846 / 256 : ℚ) : ℝ)| ≤ 1 / 10 ^ 20 := by
    rw [abs_le, rational]
    constructor <;> norm_num <;> linarith
  have terms : |(turnRe : ℝ) / turnDen - cosSeries (3.14159265358979323846 / 256)| +
      |(turnIm : ℝ) / turnDen - sinSeries (3.14159265358979323846 / 256)| +
      |((3.14159265358979323846 / 256 : ℚ) : ℝ)| ^ 8 * (9 / 322560) ≤ 1 / 2 ^ 50 - 1 / 10 ^ 20 := by
    unfold cosSeries sinSeries turnRe turnIm turnDen
    norm_num [abs_of_pos, abs_of_neg]
  refine (point_close _ _ _ _ (p := 3.14159265358979323846 / 256) ?_).trans (by linarith)
  rw [rational]
  norm_num [abs_of_pos]

theorem turn_inDisk : ‖point turnRe turnIm turnDen‖ ≤ 1 := by
  rw [← sq_le_one_iff₀ (norm_nonneg _), ← Complex.normSq_eq_norm_sq, point, Complex.normSq_div]
  simp [Complex.normSq_apply, turnRe, turnIm, turnDen]
  norm_num

/-- **Each entry is a sine**, to a unit. -/
theorem sinTableQ31_sine {i : ℕ} (inside : i ≤ 512) :
    |((sinTableQ31.getD i 0).toInt : ℝ) - 2 ^ 31 * Real.sin (i * (Real.pi / 256))| ≤ 501 / 500 := by
  have passes : certified turnRe turnIm turnDen (2 ^ 31) 1000 1001 (sinTableQ31.map Int32.toInt)
      1 0 1 = true := by decide +kernel
  have at_ : (sinTableQ31.map Int32.toInt)[i]? = some (sinTableQ31.getD i 0).toInt := by
    have short : i < sinTableQ31.length := by
      rw [sinTableQ31_length]
      omega
    rw [List.getElem?_map, List.getD_eq_getElem?_getD, List.getElem?_eq_getElem short]
    rfl
  have sine := certified_sine (by norm_num) (by norm_num [turnDen]) (by norm_num) passes turn_inDisk
    (Real.pi / 256) at_
  have few : (i : ℝ) ≤ 512 := by exact_mod_cast inside
  have drift : (i : ℝ) * ‖point turnRe turnIm turnDen -
      Complex.exp ((Real.pi / 256 : ℝ) * Complex.I)‖ ≤ 512 * (1 / 2 ^ 50) :=
    mul_le_mul few turn_close (norm_nonneg _) (by norm_num)
  norm_num at sine drift ⊢
  linarith

/-! ### The interpolation -/

/-- `clip_q63_to_q31` cuts what is beyond the range. -/
theorem toInt_clip (x : Int64) :
    (clipQ63ToQ31 x).toInt = max (-2 ^ 31) (min (2 ^ 31 - 1) x.toInt) := by
  have low := x.le_toInt
  have high := x.toInt_lt
  have upper := toInt_upper x 32 (n := 32) rfl le_rfl
  have lower : (x.toInt32 >>> 31).toInt = x.toInt.bmod (2 ^ 32) / 2 ^ 31 := by
    rw [toInt_shift x.toInt32 31 (n := 31) rfl, Int64.toInt_toInt32]
  unfold clipQ63ToQ31
  split
  · next beyond =>
    rw [ne_eq, ← Int32.toInt_inj, upper, lower] at beyond
    have sign := toInt_upper x 63 (n := 63) rfl (by norm_num)
    by_cases negative : x.toInt < 0
    · have minus : (x >>> 63).toInt32 = -1 := by
        rw [← Int32.toInt_inj, sign, show (-1 : Int32).toInt = -1 from rfl]
        norm_num at low ⊢
        omega
      rw [minus]
      norm_num [Int.bmod] at beyond low high ⊢
      show (-2147483648 : Int) = _
      omega
    · have zero : (x >>> 63).toInt32 = 0 := by
        rw [← Int32.toInt_inj, sign, show (0 : Int32).toInt = 0 from rfl]
        norm_num at high ⊢
        omega
      rw [zero]
      norm_num [Int.bmod] at beyond low high ⊢
      show (2147483647 : Int) = _
      omega
  · next inside =>
    rw [ne_eq, not_not, ← Int32.toInt_inj, upper, lower] at inside
    rw [Int64.toInt_toInt32]
    norm_num [Int.bmod] at inside low high ⊢
    omega

/-- What is shifted in the end, without a limit to its size. -/
def rise (f1 f2 d1 d2 fract : Int) : Int :=
  let temp := 26353589 * (d1 + d2) - (f2 - f1) * 2 ^ 32
  let temp := fract * (temp / 2 ^ 31)
  let temp := temp + (3 * (f2 - f1) * 2 ^ 31 - (d2 + d1 * 2 ^ 1) * 26353589)
  let temp := fract * (temp / 2 ^ 31)
  let temp := temp + d1 * 26353589
  fract * (temp / 2 ^ 31)

/-- **Nothing overflows**, whatever the slopes are, if the values are as close as the table's. -/
theorem interpolate_evaluates {f1 f2 d1 d2 fract : Int32} (near : |f2.toInt - f1.toInt| ≤ 2 ^ 25) :
    ∃ temp : Int64,
      temp.toInt = rise f1.toInt f2.toInt d1.toInt d2.toInt fract.toInt / 2 ^ 31 + f1.toInt ∧
      interpolate f1 f2 d1 d2 fract = clipQ63ToQ31 temp ∧
      interpolateChecked f1 f2 d1 d2 fract = some (clipQ63ToQ31 temp) := by
  have step : Evaluates (.word dn) dn 26353589 (2 ^ 25) := .of_represents ⟨rfl, by norm_num⟩
  have three : Evaluates (.word 3) 3 3 3 := .of_represents ⟨rfl, by norm_num⟩
  have df := Evaluates.difference32 near (by norm_num)
  have first := Evaluates.of_represents (Represents.word_of_any d1)
  have second := Evaluates.of_represents (Represents.word_of_any d2)
  have part := Evaluates.of_represents (Represents.word_of_any fract)
  have temp := ((step.product (first.sum second (by norm_num)) (by norm_num)).difference
    (df.shiftLeft 32 (n := 32) rfl (by norm_num)) (by norm_num)).shiftRight 31 (2 ^ 27)
    (n := 31) rfl (by norm_num)
  have bend := ((three.product df (by norm_num)).shiftLeft 31 (n := 31) rfl (by norm_num)).difference
    ((second.sum (first.shiftLeft 1 (n := 1) rfl (by norm_num)) (by norm_num)).product step
      (by norm_num)) (by norm_num)
  have temp := ((part.product temp (by norm_num)).sum bend (by norm_num)).shiftRight 31 (2 ^ 29)
    (n := 31) rfl (by norm_num)
  have temp := ((part.product temp (by norm_num)).sum (first.product step (by norm_num))
    (by norm_num)).shiftRight 31 (2 ^ 30) (n := 31) rfl (by norm_num)
  have value := ((part.product temp (by norm_num)).shiftRight 31 (2 ^ 30) (n := 31) rfl
    (by norm_num)).sum (.of_represents (Represents.word_of_any f1)) (by norm_num)
  exact ⟨_, value.represents.toInt, rfl,
    congrArg (fun checked : Checked => checked.result.map clipQ63ToQ31) value.checked⟩

theorem toInt_interpolate {f1 f2 d1 d2 fract : Int32} (near : |f2.toInt - f1.toInt| ≤ 2 ^ 25) :
    (interpolate f1 f2 d1 d2 fract).toInt = max (-2 ^ 31) (min (2 ^ 31 - 1)
      (rise f1.toInt f2.toInt d1.toInt d2.toInt fract.toInt / 2 ^ 31 + f1.toInt)) := by
  obtain ⟨temp, value, interpolated, -⟩ := @interpolate_evaluates f1 f2 d1 d2 fract near
  rw [interpolated, toInt_clip, value]

theorem interpolateChecked_eq {f1 f2 d1 d2 fract : Int32} (near : |f2.toInt - f1.toInt| ≤ 2 ^ 25) :
    interpolateChecked f1 f2 d1 d2 fract = some (interpolate f1 f2 d1 d2 fract) := by
  obtain ⟨temp, -, interpolated, checked⟩ := interpolate_evaluates near
  rw [interpolated, checked]

/-- Rounding down takes less than one. -/
theorem floor_close (x : Int) :
    ∃ ε : ℝ, 0 ≤ ε ∧ ε ≤ 1 ∧ ((x / 2 ^ 31 : Int) : ℝ) = x / 2 ^ 31 - ε := by
  have split := Int.emod_add_mul_ediv x (2 ^ 31)
  have low := Int.emod_nonneg x (by norm_num : (2 ^ 31 : Int) ≠ 0)
  have high := Int.emod_lt_of_pos x (by norm_num : (0 : Int) < 2 ^ 31)
  refine ⟨((x % 2 ^ 31 : Int) : ℝ) / 2 ^ 31, ?_, ?_, ?_⟩
  · have : (0 : ℝ) ≤ (x % 2 ^ 31 : Int) := by exact_mod_cast low
    positivity
  · have : ((x % 2 ^ 31 : Int) : ℝ) ≤ 2 ^ 31 := by exact_mod_cast high.le
    exact (div_le_one (by norm_num)).mpr this
  · have real : ((x % 2 ^ 31 : Int) : ℝ) + 2 ^ 31 * ((x / 2 ^ 31 : Int) : ℝ) = x := by
      exact_mod_cast split
    field_simp
    linarith

/-- A word as a fraction of the range; for `fract` the way between two nodes. -/
def along (fract : Int) : ℚ := fract / 2 ^ 31

theorem along_bounds {fract : Int} (low : 0 ≤ fract) (high : fract ≤ 2 ^ 31) :
    0 ≤ along fract ∧ along fract ≤ 1 :=
  ⟨div_nonneg (by exact_mod_cast low) (by norm_num),
    (div_le_one (by norm_num)).mpr (by exact_mod_cast high)⟩

theorem along_bounds_real {fract : Int} (low : 0 ≤ fract) (high : fract ≤ 2 ^ 31) :
    (0 : ℝ) ≤ along fract ∧ (along fract : ℝ) ≤ 1 := by
  exact_mod_cast along_bounds low high

/-- **The rounding takes at most four.** -/
theorem rise_close (f1 f2 d1 d2 : Int) {fract : Int} (low : 0 ≤ fract) (high : fract ≤ 2 ^ 31) :
    ∃ ε : ℝ, 0 ≤ ε ∧ ε ≤ 4 ∧ ((rise f1 f2 d1 d2 fract / 2 ^ 31 + f1 : Int) : ℝ) =
      hermite (f1 : ℝ) f2 (d1 * (26353589 / 2 ^ 31)) (d2 * (26353589 / 2 ^ 31)) (along fract) - ε := by
  obtain ⟨ε₁, low₁, high₁, floor₁⟩ := floor_close (26353589 * (d1 + d2) - (f2 - f1) * 2 ^ 32)
  obtain ⟨ε₂, low₂, high₂, floor₂⟩ := floor_close
    (fract * ((26353589 * (d1 + d2) - (f2 - f1) * 2 ^ 32) / 2 ^ 31) +
      (3 * (f2 - f1) * 2 ^ 31 - (d2 + d1 * 2 ^ 1) * 26353589))
  obtain ⟨ε₃, low₃, high₃, floor₃⟩ := floor_close
    (fract * ((fract * ((26353589 * (d1 + d2) - (f2 - f1) * 2 ^ 32) / 2 ^ 31) +
      (3 * (f2 - f1) * 2 ^ 31 - (d2 + d1 * 2 ^ 1) * 26353589)) / 2 ^ 31) + d1 * 26353589)
  obtain ⟨ε₄, low₄, high₄, floor₄⟩ := floor_close (rise f1 f2 d1 d2 fract)
  obtain ⟨lowT, highT⟩ := along_bounds_real low high
  have word : (fract : ℝ) = along fract * 2 ^ 31 := by
    rw [along]
    push_cast
    field_simp
  generalize (along fract : ℝ) = t at lowT highT word ⊢
  refine ⟨ε₁ * t ^ 3 + ε₂ * t ^ 2 + ε₃ * t + ε₄, by positivity, ?_, ?_⟩
  · have small {ε weight : ℝ} (most : ε ≤ 1) (positive : 0 ≤ weight) (light : weight ≤ 1) :
        ε * weight ≤ 1 := (mul_le_of_le_one_left positive most).trans light
    have cube := small high₁ (pow_nonneg lowT 3) (pow_le_one₀ lowT highT)
    have square := small high₂ (pow_nonneg lowT 2) (pow_le_one₀ lowT highT)
    have linear := small high₃ lowT highT
    linarith
  · rw [Int.cast_add, floor₄]
    simp only [rise, Int.cast_mul, floor₃, Int.cast_add, floor₂, floor₁]
    push_cast
    rw [word, hermite]
    ring

/-! ### Between two nodes -/

/-- What wrong slopes add. -/
def slopeError (e1 e2 : Int) (t : ℚ) : ℚ :=
  e1 * (26353589 / 2 ^ 31) * (t * (1 - t) ^ 2) - e2 * (26353589 / 2 ^ 31) * (t ^ 2 * (1 - t))

theorem slopeError_cast (e1 e2 : Int) (t : ℚ) : ((slopeError e1 e2 t : ℚ) : ℝ) =
    e1 * (26353589 / 2 ^ 31) * (t * (1 - t) ^ 2) - e2 * (26353589 / 2 ^ 31) * (t ^ 2 * (1 - t)) := by
  rw [slopeError]
  push_cast
  rfl

/-- A slope for the distance of two nodes. -/
theorem slope_close {d e slope : ℝ} (bounded : |slope| ≤ 1)
    (close : |d - e - 2 ^ 31 * slope| ≤ 501 / 500) :
    |(d - e) * (26353589 / 2 ^ 31) - 2 ^ 31 * (Real.pi / 256) * slope| ≤ 1 / 3 := by
  have low := Real.pi_gt_d20
  have high := Real.pi_lt_d20
  have split : (d - e) * (26353589 / 2 ^ 31) - 2 ^ 31 * (Real.pi / 256) * slope =
      (d - e - 2 ^ 31 * slope) * (26353589 / 2 ^ 31) +
        (26353589 - 2 ^ 31 * (Real.pi / 256)) * slope := by ring
  have first : |(d - e - 2 ^ 31 * slope) * (26353589 / 2 ^ 31)| ≤
      501 / 500 * (26353589 / 2 ^ 31) := by
    rw [abs_mul, abs_of_pos (by norm_num : (0 : ℝ) < 26353589 / 2 ^ 31)]
    exact mul_le_mul_of_nonneg_right close (by norm_num)
  have step : |26353589 - 2 ^ 31 * (Real.pi / 256)| ≤ 3 / 10 := by
    rw [abs_le]
    constructor <;> norm_num <;> linarith
  have second : |(26353589 - 2 ^ 31 * (Real.pi / 256)) * slope| ≤ 3 / 10 * 1 := by
    rw [abs_mul]
    exact mul_le_mul step bounded (abs_nonneg _) (by norm_num)
  rw [split]
  refine (abs_add_le _ _).trans ((add_le_add first second).trans ?_)
  norm_num

/-- **The interpolation of a sine wave**, before it is cut to the range. -/
theorem rise_sine {f1 f2 d1 d2 fract e1 e2 : Int} {phase : ℝ} (low : 0 ≤ fract)
    (high : fract ≤ 2 ^ 31) (value1 : |f1 - 2 ^ 31 * Real.sin phase| ≤ 501 / 500)
    (value2 : |f2 - 2 ^ 31 * Real.sin (phase + Real.pi / 256)| ≤ 501 / 500)
    (slope1 : |d1 - e1 - 2 ^ 31 * Real.cos phase| ≤ 501 / 500)
    (slope2 : |d2 - e2 - 2 ^ 31 * Real.cos (phase + Real.pi / 256)| ≤ 501 / 500) :
    |((rise f1 f2 d1 d2 fract / 2 ^ 31 + f1 : Int) : ℝ) -
      (2 ^ 31 * Real.sin (phase + along fract * (Real.pi / 256)) + slopeError e1 e2 (along fract))| ≤
        6 := by
  obtain ⟨ε, nonneg, few, value⟩ := rise_close f1 f2 d1 d2 low high
  obtain ⟨lowT, highT⟩ := along_bounds_real low high
  rw [value, slopeError_cast]
  generalize (along fract : ℝ) = t at lowT highT
  have wave := hermite_sine (A := 2 ^ 31) (by norm_num) phase (Real.pi / 256) lowT highT
  have data := hermite_perturbed lowT highT value1 value2
    (slope_close (Real.abs_cos_le_one _) slope1) (slope_close (Real.abs_cos_le_one _) slope2)
  have shifted : hermite (f1 : ℝ) f2 (d1 * (26353589 / 2 ^ 31)) (d2 * (26353589 / 2 ^ 31)) t =
      hermite (f1 : ℝ) f2 ((d1 - e1) * (26353589 / 2 ^ 31)) ((d2 - e2) * (26353589 / 2 ^ 31)) t +
        (e1 * (26353589 / 2 ^ 31) * (t * (1 - t) ^ 2) -
          e2 * (26353589 / 2 ^ 31) * (t ^ 2 * (1 - t))) := by
    rw [← add_sub_assoc, ← hermite_first_slope, ← hermite_second_slope]
    congr 1 <;> ring
  have fourth : 2 ^ 31 * (Real.pi / 256) ^ 4 / 384 ≤ (1 : ℝ) / 2 := by
    have short : Real.pi / 256 ≤ 1 / 80 := by linarith [Real.pi_lt_d20]
    have power := pow_le_pow_left₀ (by positivity) short 4
    norm_num at power ⊢
    linarith
  rw [shifted]
  rw [abs_le] at wave data ⊢
  constructor <;> linarith [wave.1, wave.2, data.1, data.2]

/-- A value cut to the range comes no further from one inside it. -/
theorem cut_close {value : Int} {x : ℝ} (low : -2 ^ 31 ≤ x) (high : x ≤ 2 ^ 31)
    (close : |(value : ℝ) - x| ≤ 6) :
    |((max (-2 ^ 31) (min (2 ^ 31 - 1) value) : Int) : ℝ) - x| ≤ 6 := by
  rw [abs_le] at close ⊢
  push_cast
  norm_num at low high
  rcases le_total (2147483647 : ℝ) value with beyond | inside
  · rw [min_eq_left beyond, max_eq_right (by norm_num)]
    constructor <;> linarith
  · rw [min_eq_right inside]
    rcases le_total (-2147483648 : ℝ) value with fits | below
    · rwa [max_eq_right fits]
    · rw [max_eq_left below]
      constructor <;> linarith

/-! ### The angle -/

/-- The angle that a word stands for. -/
noncomputable def radians (theta : Int32) : ℝ := Real.pi * along theta.toInt

section Angle

variable (theta : Int32)

theorem indexS_toNat : (indexS theta).toNat = theta.toUInt32.toNat / 2 ^ 23 := by
  have word := theta.toUInt32.toNat_lt
  rw [indexS, controllerQ31Shift, UInt32.toNat_toUInt16, UInt32.toNat_shiftRight,
    show (32 - 9 : UInt32).toNat % 32 = 23 from rfl, Nat.shiftRight_eq_div_pow]
  norm_num at word ⊢
  omega

theorem indexS_lt : (indexS theta).toNat < 512 := by
  have word := theta.toUInt32.toNat_lt
  rw [indexS_toNat]
  norm_num at word ⊢
  omega

theorem indexC_toNat : (indexC theta).toNat = ((indexS theta).toNat + 128) % 512 := by
  have small := indexS_lt theta
  rw [indexC, UInt16.toNat_and, UInt16.toNat_add, show (0x1ff : UInt16).toNat = 2 ^ 9 - 1 from rfl,
    Nat.and_two_pow_sub_one_eq_mod, show (128 : UInt16).toNat = 128 from rfl]
  omega

theorem fraction_toInt :
    (fraction theta).toInt = ((theta.toUInt32.toNat % 2 ^ 23 * 2 ^ 8 : Nat) : Int) := by
  have word := theta.toUInt32.toNat_lt
  have index := indexS_toNat theta
  have value : (fraction theta).toUInt32.toNat = theta.toUInt32.toNat % 2 ^ 23 * 2 ^ 8 := by
    show ((theta.toUInt32 - ((indexS theta).toUInt32 <<< controllerQ31Shift)) <<< 8).toNat = _
    rw [UInt32.toNat_shiftLeft, UInt32.toNat_sub, UInt32.toNat_shiftLeft, UInt16.toNat_toUInt32,
      index, show controllerQ31Shift.toNat % 32 = 23 from rfl,
      show (8 : UInt32).toNat % 32 = 8 from rfl,
      Nat.shiftLeft_eq, Nat.shiftLeft_eq]
    norm_num at word ⊢
    omega
  have small : (fraction theta).toUInt32.toNat < 2 ^ 31 := by
    rw [value]
    omega
  rw [← value]
  show (fraction theta).toBitVec.toInt = ((fraction theta).toBitVec.toNat : Int)
  exact BitVec.toInt_eq_toNat_of_lt (by
    show 2 * (fraction theta).toUInt32.toNat < 2 ^ 32
    omega)

/-- The word with its sign, and without. -/
theorem toInt_cases :
    (theta.toUInt32.toNat < 2 ^ 31 ∧ theta.toInt = (theta.toUInt32.toNat : Int)) ∨
      (2 ^ 31 ≤ theta.toUInt32.toNat ∧ theta.toInt = (theta.toUInt32.toNat : Int) - 2 ^ 32) := by
  have word := theta.toUInt32.toNat_lt
  have bmod : theta.toInt = (theta.toUInt32.toNat : Int).bmod (2 ^ 32) :=
    theta.toBitVec.toInt_eq_toNat_bmod
  rw [bmod]
  norm_num [Int.bmod] at word ⊢
  omega

end Angle

/-! ### The nodes -/

/-- Neighbours are close: they are sines of angles that are. -/
theorem sinTableQ31_near {i : ℕ} (inside : i < 512) :
    |(sinTableQ31.getD (i + 1) 0).toInt - (sinTableQ31.getD i 0).toInt| ≤ 2 ^ 25 := by
  have here := sinTableQ31_sine inside.le
  have next := sinTableQ31_sine (i := i + 1) inside
  have apart := Real.abs_sin_sub_sin_le ((i + 1 : ℕ) * (Real.pi / 256)) (i * (Real.pi / 256))
  have step : ((i + 1 : ℕ) : ℝ) * (Real.pi / 256) - i * (Real.pi / 256) = Real.pi / 256 := by
    push_cast
    ring
  rw [step, abs_of_pos (div_pos Real.pi_pos (by norm_num))] at apart
  have short : Real.pi / 256 ≤ 1 / 80 := by linarith [Real.pi_lt_d20]
  have real : |((sinTableQ31.getD (i + 1) 0).toInt : ℝ) - (sinTableQ31.getD i 0).toInt| ≤
      2 ^ 25 := by
    rw [abs_le] at here next apart ⊢
    constructor <;> linarith
  exact_mod_cast real

/-- The least word stands at 270 degrees only. -/
theorem sinTableQ31_least {i : ℕ} (inside : i < 513) :
    (sinTableQ31.getD i 0).toInt = -2 ^ 31 ↔ i = 384 := by
  have numbered : ∀ numbered ∈ sinTableQ31.zipIdx,
      numbered.1.toInt = -2 ^ 31 ↔ numbered.2 = 384 := by decide +kernel
  refine numbered (sinTableQ31.getD i 0, i) (List.mk_mem_zipIdx_iff_getElem?.mpr ?_)
  have short : i < sinTableQ31.length := sinTableQ31_length.symm ▸ inside
  rw [List.getD_eq_getElem?_getD, List.getElem?_eq_getElem short]
  rfl

/-- What the opposite of an entry is off by. -/
def oppositeError (index : Nat) : Int := if index = 384 then -2 ^ 32 else 0

theorem toInt_opposite {index : UInt16} (inside : index.toNat ≤ 512) :
    (-entry index).toInt - oppositeError index.toNat = -(entry index).toInt := by
  have least := sinTableQ31_least (Nat.lt_succ_of_le inside)
  rw [oppositeError]
  split
  · next at_ =>
    have word : entry index = -2147483648 := Int32.toInt_inj.mp (least.mpr at_)
    rw [word]
    rfl
  · next other =>
    have bounds := toInt_bounds (entry index)
    have notLeast : (entry index).toInt ≠ -2 ^ 31 := fun same => other (least.mp same)
    rw [sub_zero, Int32.toInt_neg]
    refine Int.bmod_eq_of_le ?_ ?_ <;> norm_num at bounds notLeast ⊢ <;> omega

/-- An opposite as a slope of the cosine. -/
theorem opposite_close {index : UInt16} (inside : index.toNat ≤ 512) {x : ℝ}
    (close : |((entry index).toInt : ℝ) - 2 ^ 31 * Real.sin x| ≤ 501 / 500) :
    |((-entry index).toInt : ℝ) - oppositeError index.toNat -
      2 ^ 31 * Real.cos (x + Real.pi / 2)| ≤ 501 / 500 := by
  have exact_ : ((-entry index).toInt : ℝ) - oppositeError index.toNat =
      -((entry index).toInt : ℝ) := by exact_mod_cast toInt_opposite inside
  rw [exact_, Real.cos_add_pi_div_two, show -((entry index).toInt : ℝ) - 2 ^ 31 * -Real.sin x =
    -((entry index).toInt - 2 ^ 31 * Real.sin x) by ring, abs_neg]
  exact close

/-- A quarter of a turn further the sine is the cosine. -/
theorem sine_quarter {n k q : ℕ} (turns : n + 512 * q = k + 128) :
    Real.sin (n * (Real.pi / 256)) = Real.cos (k * (Real.pi / 256)) := by
  have real : (n : ℝ) = k + 128 - 512 * q := by
    have : (n : ℝ) + 512 * q = k + 128 := by exact_mod_cast turns
    linarith
  rw [← Real.sin_add_pi_div_two, ← Real.sin_sub_nat_mul_two_pi (k * (Real.pi / 256) + Real.pi / 2) q,
    real]
  congr 1
  ring

theorem node_next (index : UInt16) (short : index.toNat < 512) :
    (index + 1).toNat = index.toNat + 1 := by
  rw [UInt16.toNat_add, show (1 : UInt16).toNat = 1 from rfl]
  omega

section Nodes

variable (theta : Int32)

/-- The nodes around an angle. -/
theorem nodes :
    |((entry (indexS theta)).toInt : ℝ) -
        2 ^ 31 * Real.sin ((indexS theta).toNat * (Real.pi / 256))| ≤ 501 / 500 ∧
      |((entry (indexS theta + 1)).toInt : ℝ) -
        2 ^ 31 * Real.sin ((indexS theta).toNat * (Real.pi / 256) + Real.pi / 256)| ≤ 501 / 500 ∧
      |((entry (indexC theta)).toInt : ℝ) -
        2 ^ 31 * Real.cos ((indexS theta).toNat * (Real.pi / 256))| ≤ 501 / 500 ∧
      |((entry (indexC theta + 1)).toInt : ℝ) -
        2 ^ 31 * Real.cos ((indexS theta).toNat * (Real.pi / 256) + Real.pi / 256)| ≤ 501 / 500 := by
  have small := indexS_lt theta
  have quarter := indexC_toNat theta
  have nextS := node_next (indexS theta) small
  have nextC := node_next (indexC theta) (by omega)
  have angle : ((indexS theta).toNat : ℝ) * (Real.pi / 256) + Real.pi / 256 =
      ((indexS theta).toNat + 1 : ℕ) * (Real.pi / 256) := by
    push_cast
    ring
  rw [angle]
  refine ⟨sinTableQ31_sine small.le, nextS ▸ sinTableQ31_sine (by omega), ?_, ?_⟩
  · rw [← sine_quarter (q := ((indexS theta).toNat + 128) / 512) (n := (indexC theta).toNat)
      (by omega)]
    exact sinTableQ31_sine (by omega)
  · rw [← sine_quarter (q := ((indexS theta).toNat + 128) / 512) (n := (indexC theta + 1).toNat)
      (by omega)]
    exact sinTableQ31_sine (by omega)

theorem nodes_near :
    |(entry (indexS theta + 1)).toInt - (entry (indexS theta)).toInt| ≤ 2 ^ 25 ∧
      |(entry (indexC theta + 1)).toInt - (entry (indexC theta)).toInt| ≤ 2 ^ 25 := by
  have small := indexS_lt theta
  have quarter := indexC_toNat theta
  have nextS := node_next (indexS theta) small
  have nextC := node_next (indexC theta) (by omega)
  refine ⟨?_, ?_⟩
  · rw [entry, entry, nextS]
    exact sinTableQ31_near small
  · rw [entry, entry, nextC]
    exact sinTableQ31_near (by omega)

/-- The angle, from the node below it. -/
theorem radians_node : ∃ m : ℕ, radians theta = (indexS theta).toNat * (Real.pi / 256) +
    along (fraction theta).toInt * (Real.pi / 256) - m * (2 * Real.pi) := by
  have value := toInt_cases theta
  have split : (theta.toUInt32.toNat : ℝ) =
      (indexS theta).toNat * 2 ^ 23 + (theta.toUInt32.toNat % 2 ^ 23 : ℕ) := by
    rw [indexS_toNat]
    exact_mod_cast (Nat.div_add_mod' _ _).symm
  have inside : (along (fraction theta).toInt : ℝ) * 2 ^ 23 =
      (theta.toUInt32.toNat % 2 ^ 23 : ℕ) := by
    rw [along, fraction_toInt, Int.cast_natCast]
    push_cast
    ring
  rcases value with ⟨-, same⟩ | ⟨-, less⟩
  · refine ⟨0, ?_⟩
    have real : (theta.toInt : ℝ) = (theta.toUInt32.toNat : ℝ) := by exact_mod_cast same
    rw [radians, along]
    push_cast
    rw [real, split, ← inside]
    ring
  · refine ⟨1, ?_⟩
    have real : (theta.toInt : ℝ) = (theta.toUInt32.toNat : ℝ) - 2 ^ 32 := by exact_mod_cast less
    rw [radians, along]
    push_cast
    rw [real, split, ← inside]
    ring

/-! ### The accuracy -/

/-- What the opposite of the least word adds to the cosine. -/
def wrapError : ℚ :=
  let t := along (fraction theta).toInt
  if indexS theta = 383 then 52707178 * (t ^ 2 * (1 - t))
  else if indexS theta = 384 then -(52707178 * (t * (1 - t) ^ 2))
  else 0

theorem wrapError_eq : wrapError theta = slopeError (oppositeError (indexS theta).toNat)
    (oppositeError (indexS theta + 1).toNat) (along (fraction theta).toInt) := by
  have small := indexS_lt theta
  have next := node_next (indexS theta) small
  have before : indexS theta = 383 ↔ (indexS theta).toNat = 383 := UInt16.toNat_inj.symm
  have behind : indexS theta = 384 ↔ (indexS theta).toNat = 384 := UInt16.toNat_inj.symm
  simp only [wrapError, slopeError, oppositeError, next, before, behind]
  split
  · next at_ =>
    rw [if_neg (by omega), if_pos (by omega)]
    push_cast
    ring
  · split
    · rw [if_neg (by omega)]
      push_cast
      ring
    · rw [if_neg (by omega)]
      push_cast
      ring

/-- The way from the node below. -/
theorem fraction_bounds : 0 ≤ (fraction theta).toInt ∧ (fraction theta).toInt < 2 ^ 31 :=
  ⟨fraction_toInt theta ▸ Int.natCast_nonneg _, (toInt_bounds (fraction theta)).2⟩

/-- Which angles it concerns. -/
theorem wrapError_ne_zero_iff :
    wrapError theta ≠ 0 ↔ 0 < |theta.toInt + 2 ^ 30| ∧ |theta.toInt + 2 ^ 30| < 2 ^ 23 := by
  have word := theta.toUInt32.toNat_lt
  have sign := toInt_cases theta
  have index := indexS_toNat theta
  have part := fraction_toInt theta
  have before : indexS theta = 383 ↔ (indexS theta).toNat = 383 := UInt16.toNat_inj.symm
  have behind : indexS theta = 384 ↔ (indexS theta).toNat = 384 := UInt16.toNat_inj.symm
  have zero : along (fraction theta).toInt = 0 ↔ (fraction theta).toInt = 0 := by
    rw [along, div_eq_zero_iff]
    norm_num
  have left : 1 - along (fraction theta).toInt ≠ 0 := by
    have short : along (fraction theta).toInt < 1 :=
      (div_lt_one (by norm_num)).mpr (by exact_mod_cast (fraction_bounds theta).2)
    exact (sub_pos.mpr short).ne'
  have inside : wrapError theta ≠ 0 ↔
      ((indexS theta).toNat = 383 ∨ (indexS theta).toNat = 384) ∧ (fraction theta).toInt ≠ 0 := by
    simp only [wrapError, before, behind]
    split_ifs with at383 at384
    · simp [at383, left, zero]
    · simp [at384, left, zero]
    · simp [at383, at384]
  rw [inside, part]
  norm_num [abs_lt] at word sign index ⊢
  omega

/-- How much it is at most. -/
theorem wrapError_le : |wrapError theta| ≤ 7808471 := by
  obtain ⟨low, high⟩ := along_bounds (fraction_bounds theta).1 (fraction_bounds theta).2.le
  simp only [wrapError]
  generalize along (fraction theta).toInt = t at low high
  have left : 0 ≤ 1 - t := sub_nonneg.mpr high
  -- Both cubics are at most 4 / 27, where they are largest.
  have rising : t ^ 2 * (1 - t) ≤ 4 / 27 := by
    linarith [mul_nonneg (sq_nonneg (t - 2 / 3)) (by linarith : 0 ≤ t + 1 / 3)]
  have falling : t * (1 - t) ^ 2 ≤ 4 / 27 := by
    linarith [mul_nonneg (sq_nonneg (t - 1 / 3)) (by linarith : 0 ≤ 4 / 3 - t)]
  have rises : 0 ≤ t ^ 2 * (1 - t) := by positivity
  have falls : 0 ≤ t * (1 - t) ^ 2 := by positivity
  split_ifs
  · rw [abs_of_nonneg (by positivity)]
    linarith
  · rw [abs_neg, abs_of_nonneg (by positivity)]
    linarith
  · norm_num

/-- Where it counts the cosine is small. -/
theorem cosine_small {k : ℕ} {t : ℝ} (near : k = 383 ∨ k = 384) (low : 0 ≤ t) (high : t ≤ 1) :
    |Real.cos (k * (Real.pi / 256) + t * (Real.pi / 256))| ≤ 1 / 80 := by
  have angle : (k : ℝ) * (Real.pi / 256) + t * (Real.pi / 256) + Real.pi / 2 =
      (k + t - 384) * (Real.pi / 256) + 2 * Real.pi := by ring
  have short : |(k : ℝ) + t - 384| ≤ 1 := by
    rw [abs_le]
    rcases near with rfl | rfl <;> constructor <;> norm_num <;> linarith
  have step : Real.pi / 256 ≤ 1 / 80 := by linarith [Real.pi_lt_d20]
  have positive : 0 < Real.pi / 256 := by positivity
  rw [← Real.sin_add_pi_div_two, angle, Real.sin_add_two_pi]
  have lipschitz := Real.abs_sin_sub_sin_le ((k + t - 384) * (Real.pi / 256)) 0
  rw [Real.sin_zero, sub_zero, sub_zero] at lipschitz
  refine lipschitz.trans ?_
  rw [abs_mul, abs_of_pos positive]
  calc |(k : ℝ) + t - 384| * (Real.pi / 256) ≤ 1 * (1 / 80) :=
        mul_le_mul short step positive.le (by norm_num)
    _ = 1 / 80 := one_mul _

/-- The cosine with the error stays in the range. -/
theorem cosine_range : -2 ^ 31 ≤ 2 ^ 31 * Real.cos (radians theta) + wrapError theta ∧
    2 ^ 31 * Real.cos (radians theta) + wrapError theta ≤ 2 ^ 31 := by
  by_cases none : wrapError theta = 0
  · have unit := abs_le.mp (Real.abs_cos_le_one (radians theta))
    rw [none, Rat.cast_zero, add_zero]
    constructor <;> linarith
  · have near : (indexS theta).toNat = 383 ∨ (indexS theta).toNat = 384 := by
      have word := theta.toUInt32.toNat_lt
      have sign := toInt_cases theta
      have index := indexS_toNat theta
      have close := (wrapError_ne_zero_iff theta).mp none
      norm_num [abs_lt] at word sign index close
      omega
    obtain ⟨m, angle⟩ := radians_node theta
    obtain ⟨low, high⟩ := along_bounds_real (fraction_bounds theta).1 (fraction_bounds theta).2.le
    have small := cosine_small near low high
    rw [← Real.cos_sub_nat_mul_two_pi _ m, ← angle] at small
    have error : |(wrapError theta : ℝ)| ≤ 7808471 := by exact_mod_cast wrapError_le theta
    rw [abs_le] at small error
    norm_num
    constructor <;> linarith

/-- **Nothing overflows in 64 bits** at any angle. -/
theorem armSinCosChecked_eq : armSinCosChecked theta = some (armSinCos theta) := by
  obtain ⟨nearS, nearC⟩ := nodes_near theta
  simp only [armSinCosChecked, interpolateChecked_eq nearS, interpolateChecked_eq nearC]
  rfl

/-- **Nothing overflows, and the sine and the cosine are within six units of the true ones**, but for
the cosine next to 270 degrees. -/
theorem armSinCos_accurate :
    armSinCosChecked theta = some (armSinCos theta) ∧
      |((armSinCos theta).1.toInt : ℝ) - 2 ^ 31 * Real.sin (radians theta)| ≤ 6 ∧
      |((armSinCos theta).2.toInt : ℝ) -
        (2 ^ 31 * Real.cos (radians theta) + wrapError theta)| ≤ 6 ∧
      (wrapError theta ≠ 0 ↔ 0 < |theta.toInt + 2 ^ 30| ∧ |theta.toInt + 2 ^ 30| < 2 ^ 23) ∧
      |wrapError theta| ≤ 7808471 := by
  obtain ⟨sine, nextSine, cosine, nextCosine⟩ := nodes theta
  obtain ⟨nearS, nearC⟩ := nodes_near theta
  obtain ⟨m, angle⟩ := radians_node theta
  have small := indexS_lt theta
  have next := node_next (indexS theta) small
  obtain ⟨low, high⟩ := fraction_bounds theta
  refine ⟨armSinCosChecked_eq theta, ?_, ?_, wrapError_ne_zero_iff theta, wrapError_le theta⟩
  · have exact_ {d : Int} {x : ℝ} (close : |(d : ℝ) - x| ≤ 501 / 500) :
        |(d : ℝ) - (0 : Int) - x| ≤ 501 / 500 := by rwa [Int.cast_zero, sub_zero]
    have value := rise_sine low high.le sine nextSine (exact_ cosine) (exact_ nextCosine)
    have none : slopeError 0 0 (along (fraction theta).toInt) = 0 := by simp [slopeError]
    have unit := abs_le.mp (Real.abs_sin_le_one (radians theta))
    rw [none, Rat.cast_zero, add_zero, ← Real.sin_sub_nat_mul_two_pi _ m, ← angle] at value
    have word : (armSinCos theta).1.toInt = _ := toInt_interpolate nearS
    rw [word]
    exact cut_close (by linarith) (by linarith) value
  · -- The cosine is the sine a quarter of a turn further.
    have phase (x : ℝ) : x + Real.pi / 2 + Real.pi / 256 = x + Real.pi / 256 + Real.pi / 2 := by ring
    have value := rise_sine low high.le
      (by rw [Real.sin_add_pi_div_two]; exact cosine)
      (by rw [phase, Real.sin_add_pi_div_two]; exact nextCosine)
      (opposite_close small.le sine)
      (phase _ ▸ opposite_close (by omega) nextSine)
    have around (x y : ℝ) : x + Real.pi / 2 + y = x + y + Real.pi / 2 := by ring
    rw [← wrapError_eq, around, Real.sin_add_pi_div_two, ← Real.cos_sub_nat_mul_two_pi _ m,
      ← angle] at value
    have word : (armSinCos theta).2.toInt = _ := toInt_interpolate nearC
    rw [word]
    exact cut_close (cosine_range theta).1 (cosine_range theta).2 value

/-- Near 270 degrees the cosine is off by a third of a percent of the range. -/
example : 7808000 < -wrapError (-1070945625) := by decide +kernel

end Nodes

end ForgeDrive.Cmsis
