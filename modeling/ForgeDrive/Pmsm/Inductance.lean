/-
**The arithmetic of the inductance identification** (`PmsmControlCore_SComm.cpp`: `LD_ID` and
`LQ_ID`).

`SComm_pwmLoop` multiplies `2 ^ 15` samples of a current by the sine and the cosine of the injection
angle and adds the products up; `SComm_xmcLoop` takes the averages, and doubles the length of the
vector they make.

`arm_sin_cos_q31` and `arm_sqrt_q31` are parameters. All words but the last are always large enough;
the last is not if the vector is half of the range or longer.

* `Sampled.of_begun` — the accumulators are the exact sums after every sample;
* `exact_iff` — nothing overflows exactly if the averages make a vector shorter than `2 ^ 30`;
* `not_exact` — a saturated current in phase with the injection.
-/

import Mathlib.Algebra.BigOperators.Group.List.Basic
import Mathlib.Data.List.Induction
import Mathlib.Data.Nat.Sqrt
import ForgeDrive.Library.FixedPoint
import ForgeDrive.Pmsm.SComm

namespace ForgeDrive.Pmsm

open FixedPoint

/-! ### The samples, and what is computed of them -/

/-- What one pass of `SComm_pwmLoop` finds: the two currents, and the angle of the injection. -/
structure Sample where
  focId : Int32
  focIq : Int32
  hfiAngle : Int32

/-- The current that a stage samples. -/
def Sample.current (s : Sample) : IDStage → Int32
  | .ldId => s.focId
  | _ => s.focIq

/-- `Idd`, `Idq`, `Iqd` and `Iqq`. -/
def average (accumulate : Int64) : Int32 := (accumulate >>> 15).toInt32

/-- `Imag2`. -/
def imag2 (first second : Int32) : Int32 :=
  ((first.toInt64 * first.toInt64 + second.toInt64 * second.toInt64) >>> 31).toInt32

section Loop

variable (sinCos : Int32 → Int32 × Int32) (sqrt : Int32 → Int32)

/-- One pass of `SComm_pwmLoop`. -/
def Core.sample (c : Core) (s : Sample) : Core :=
  (Core.scommPwmLoop sinCos { c with
    focId := s.focId
    focIq := s.focIq
    scomm := { c.scomm with hfiAngle := s.hfiAngle } }).1

def Core.sampleAll (c : Core) (samples : List Sample) : Core := samples.foldl (Core.sample sinCos) c

/-- A sample multiplied by the sine, and by the cosine, without a limit to its size. -/
def hfid (stage : IDStage) (s : Sample) : Int :=
  (s.current stage).toInt * (sinCos s.hfiAngle).1.toInt / 2 ^ 31

def hfiq (stage : IDStage) (s : Sample) : Int :=
  (s.current stage).toInt * (sinCos s.hfiAngle).2.toInt / 2 ^ 31

/-- What the values of the samples sum to. -/
def total (value : Sample → Int) (samples : List Sample) : Int := (samples.map value).sum

/-- The averages, rounded down. -/
def averageD (stage : IDStage) (samples : List Sample) : Int :=
  total (hfid sinCos stage) samples / 2 ^ 15

def averageQ (stage : IDStage) (samples : List Sample) : Int :=
  total (hfiq sinCos stage) samples / 2 ^ 15

/-- The square of the length of the vector of the averages. -/
def exactImag2 (stage : IDStage) (samples : List Sample) : Int :=
  (averageD sinCos stage samples ^ 2 + averageQ sinCos stage samples ^ 2) / 2 ^ 31

/-- The stage samples, with clear accumulators. -/
structure Core.Begun (c : Core) : Prop where
  stage : c.scomm.idstage = .ldId ∨ c.scomm.idstage = .lqId
  active : c.scomm.idsub = .activeSampling
  accumulate0 : c.scomm.accumulate0 = 0
  accumulate1 : c.scomm.accumulate1 = 0
  counter : c.scomm.samplesCounter = oversample

/-- **Nothing overflows**: the accumulators after every sample, the averages, the square of their
length and the double of its root are the exact ones. -/
structure Core.Exact (c : Core) (samples : List Sample) : Prop where
  accumulate0 : ∀ before, before <+: samples →
    (c.sampleAll sinCos before).scomm.accumulate0.toInt =
      total (hfid sinCos c.scomm.idstage) before
  accumulate1 : ∀ before, before <+: samples →
    (c.sampleAll sinCos before).scomm.accumulate1.toInt =
      total (hfiq sinCos c.scomm.idstage) before
  average0 : (average (c.sampleAll sinCos samples).scomm.accumulate0).toInt =
    averageD sinCos c.scomm.idstage samples
  average1 : (average (c.sampleAll sinCos samples).scomm.accumulate1).toInt =
    averageQ sinCos c.scomm.idstage samples
  imag2 : (imag2 (average (c.sampleAll sinCos samples).scomm.accumulate0)
      (average (c.sampleAll sinCos samples).scomm.accumulate1)).toInt =
    exactImag2 sinCos c.scomm.idstage samples
  twice : (2 * sqrt (Pmsm.imag2 (average (c.sampleAll sinCos samples).scomm.accumulate0)
      (average (c.sampleAll sinCos samples).scomm.accumulate1))).toInt =
    2 * Nat.sqrt ((exactImag2 sinCos c.scomm.idstage samples).toNat * 2 ^ 31)

end Loop

/-- `arm_sin_cos_q31` does not return the least word. -/
def Bounded (sinCos : Int32 → Int32 × Int32) : Prop :=
  ∀ angle, |(sinCos angle).1.toInt| ≤ 2 ^ 31 - 1 ∧ |(sinCos angle).2.toInt| ≤ 2 ^ 31 - 1

/-- `arm_sqrt_q31` returns the root of its argument. -/
def Root (sqrt : Int32 → Int32) : Prop :=
  ∀ x : Int32, 0 ≤ x.toInt → (sqrt x).toInt = Nat.sqrt (x.toInt.toNat * 2 ^ 31)

/-! ### The accumulators -/

/-- A product with a sine or a cosine fits in a word. -/
theorem product_fits (current : Int32) {trig : Int} (bounded : |trig| ≤ 2 ^ 31 - 1) :
    |current.toInt * trig / 2 ^ 31| ≤ 2 ^ 31 - 1 := by
  obtain ⟨low, high⟩ := toInt_bounds current
  have magnitude : |current.toInt * trig| ≤ 2 ^ 31 * (2 ^ 31 - 1) := by
    rw [abs_mul]
    exact mul_le_mul (abs_le.mpr ⟨low, high.le⟩) bounded (abs_nonneg trig) (by norm_num)
  rw [abs_le] at magnitude ⊢
  norm_num at magnitude ⊢
  omega

theorem mulShift_toInt (current : Int32) {trig : Int32} (bounded : |trig.toInt| ≤ 2 ^ 31 - 1) :
    (mulShift current trig).toInt64.toInt = current.toInt * trig.toInt / 2 ^ 31 := by
  have fits := abs_le.mp (product_fits current bounded)
  have shifted := toInt_shift64 (current.toInt64 * trig.toInt64) 31 (n := 31) rfl
  rw [toInt_product] at shifted
  rw [Int32.toInt_toInt64, mulShift, toInt_cut, shifted]
  rw [shifted]
  norm_num at fits ⊢
  omega

theorem total_concat (value : Sample → Int) (samples : List Sample) (s : Sample) :
    total value (samples ++ [s]) = total value samples + value s := by
  simp [total]

/-- Terms of a bounded magnitude. -/
theorem total_le {value : Sample → Int} {bound : Int} (bounded : ∀ s, |value s| ≤ bound)
    (samples : List Sample) : |total value samples| ≤ samples.length * bound := by
  induction samples with
  | nil => simp [total]
  | cons s rest ih =>
    have sum : total value (s :: rest) = value s + total value rest := rfl
    calc |total value (s :: rest)| ≤ |value s| + |total value rest| := sum ▸ abs_add_le _ _
      _ ≤ bound + rest.length * bound := add_le_add (bounded s) ih
      _ = (s :: rest).length * bound := by
        rw [List.length_cons, Nat.cast_succ, add_mul, one_mul, add_comm]

section Run

variable {sinCos : Int32 → Int32 × Int32} {sqrt : Int32 → Int32} {c : Core}

/-- What a pass does while samples remain. -/
theorem Core.sample_scomm (stage : c.scomm.idstage = .ldId ∨ c.scomm.idstage = .lqId)
    (active : c.scomm.idsub = .activeSampling) (more : c.scomm.samplesCounter ≠ 0) (s : Sample) :
    ∃ angle, (c.sample sinCos s).scomm = { c.scomm with
      hfiAngle := angle
      accumulate0 := c.scomm.accumulate0 +
        (mulShift (s.current c.scomm.idstage) (sinCos s.hfiAngle).1).toInt64
      accumulate1 := c.scomm.accumulate1 +
        (mulShift (s.current c.scomm.idstage) (sinCos s.hfiAngle).2).toInt64
      samplesCounter := c.scomm.samplesCounter - 1 } := by
  refine ⟨s.hfiAngle + c.scomm.hfiAngvRpt, ?_⟩
  rcases stage with stage | stage <;>
    simp only [Core.sample, Core.scommPwmLoop, stage, SComm.heterodyne, SComm.take, active, more,
      Sample.current, ne_eq, not_false_eq_true, and_self, if_true]

/-- What holds after a number of samples. -/
structure Sampled (sinCos : Int32 → Int32 × Int32) (c : Core) (done : List Sample) (after : Core) :
    Prop where
  stage : after.scomm.idstage = c.scomm.idstage
  active : after.scomm.idsub = .activeSampling
  counter : after.scomm.samplesCounter.toNat = 2 ^ 15 - done.length
  accumulate0 : after.scomm.accumulate0.toInt = total (hfid sinCos c.scomm.idstage) done
  accumulate1 : after.scomm.accumulate1.toInt = total (hfiq sinCos c.scomm.idstage) done

/-- The terms of the two sums. -/
theorem hfid_bounded (bounded : Bounded sinCos) (stage : IDStage) (s : Sample) :
    |hfid sinCos stage s| ≤ 2 ^ 31 - 1 := product_fits _ (bounded s.hfiAngle).1

theorem hfiq_bounded (bounded : Bounded sinCos) (stage : IDStage) (s : Sample) :
    |hfiq sinCos stage s| ≤ 2 ^ 31 - 1 := product_fits _ (bounded s.hfiAngle).2

/-- One more term of an accumulator. -/
theorem accumulate_toInt {accumulate : Int64} {current trig : Int32} {done : List Sample}
    {value : Sample → Int} {s : Sample} (short : done.length < 2 ^ 15)
    (bounded : ∀ s, |value s| ≤ 2 ^ 31 - 1) (trigBounded : |trig.toInt| ≤ 2 ^ 31 - 1)
    (term : value s = current.toInt * trig.toInt / 2 ^ 31)
    (holds : accumulate.toInt = total value done) :
    (accumulate + (mulShift current trig).toInt64).toInt = total value (done ++ [s]) := by
  have next : accumulate.toInt + (mulShift current trig).toInt64.toInt =
      total value (done ++ [s]) := by
    rw [mulShift_toInt current trigBounded, total_concat, holds, term]
  have magnitude := abs_le.mp (total_le bounded (done ++ [s]))
  rw [List.length_append, List.length_singleton] at magnitude
  rw [toInt_sum, next]
  rw [next]
  norm_num at short magnitude ⊢
  omega

/-- **The accumulators are the exact sums after every sample.** -/
theorem Sampled.of_begun (bounded : Bounded sinCos) (begun : c.Begun) {done : List Sample}
    (count : done.length ≤ 2 ^ 15) : Sampled sinCos c done (c.sampleAll sinCos done) := by
  induction done using List.reverseRecOn with
  | nil =>
    obtain ⟨-, active, accumulate0, accumulate1, counter⟩ := begun
    refine ⟨rfl, active, ?_, ?_, ?_⟩
    · show c.scomm.samplesCounter.toNat = _
      rw [counter]
      rfl
    · show c.scomm.accumulate0.toInt = _
      rw [accumulate0]
      rfl
    · show c.scomm.accumulate1.toInt = _
      rw [accumulate1]
      rfl
  | append_singleton done s ih =>
    rw [List.length_append, List.length_singleton] at count
    obtain ⟨stage, active, counter, accumulate0, accumulate1⟩ := ih (by omega)
    have more : (c.sampleAll sinCos done).scomm.samplesCounter ≠ 0 := by
      rw [ne_eq, ← UInt16.toNat_inj, counter, UInt16.toNat_zero]
      omega
    have unfolded : c.sampleAll sinCos (done ++ [s]) = (c.sampleAll sinCos done).sample sinCos s := by
      rw [Core.sampleAll, List.foldl_append]
      rfl
    obtain ⟨angle, next⟩ := @Core.sample_scomm sinCos _ (stage ▸ begun.stage) active more s
    rw [stage] at next
    constructor
    · rw [unfolded, next]
      exact stage
    · rw [unfolded, next]
      exact active
    · rw [unfolded, next, List.length_append, List.length_singleton]
      have one : (1 : UInt16) ≤ (c.sampleAll sinCos done).scomm.samplesCounter := by
        rw [UInt16.le_iff_toNat_le, counter, UInt16.toNat_one]
        omega
      rw [UInt16.toNat_sub_of_le _ _ one, counter, UInt16.toNat_one]
      omega
    · rw [unfolded, next]
      exact accumulate_toInt (by omega) (hfid_bounded bounded _) (bounded _).1 rfl accumulate0
    · rw [unfolded, next]
      exact accumulate_toInt (by omega) (hfiq_bounded bounded _) (bounded _).2 rfl accumulate1

/-! ### The averages -/

/-- The average of the terms of a bounded sum is a word. -/
theorem average_toInt {accumulate : Int64} {value : Sample → Int} {samples : List Sample}
    (count : samples.length = 2 ^ 15) (bounded : ∀ s, |value s| ≤ 2 ^ 31 - 1)
    (holds : accumulate.toInt = total value samples) :
    (average accumulate).toInt = total value samples / 2 ^ 15 := by
  have shifted := toInt_shift64 accumulate 15 (n := 15) rfl
  have magnitude := abs_le.mp (total_le bounded samples)
  rw [holds] at shifted
  rw [average, toInt_cut, shifted]
  rw [shifted]
  rw [count] at magnitude
  norm_num at magnitude ⊢
  omega

/-- The square of a vector shorter than `2 ^ 30` is a word. -/
theorem imag2_toInt {first second : Int32}
    (short : first.toInt ^ 2 + second.toInt ^ 2 < 2 ^ 60) :
    (imag2 first second).toInt = (first.toInt ^ 2 + second.toInt ^ 2) / 2 ^ 31 := by
  have positive := sq_nonneg first.toInt
  have positive' := sq_nonneg second.toInt
  have squares : (first.toInt64 * first.toInt64 + second.toInt64 * second.toInt64).toInt =
      first.toInt ^ 2 + second.toInt ^ 2 := by
    rw [toInt_sum, toInt_product, toInt_product, sq, sq]
    rw [toInt_product, toInt_product, ← sq, ← sq]
    norm_num at short ⊢
    omega
  have shifted := toInt_shift64 (first.toInt64 * first.toInt64 + second.toInt64 * second.toInt64)
    31 (n := 31) rfl
  rw [squares] at shifted
  rw [imag2, toInt_cut, shifted]
  rw [shifted]
  norm_num at short ⊢
  omega

/-- The root is below half of the range exactly if the vector is shorter than that. -/
theorem root_lt_iff (square : Int) (nonneg : 0 ≤ square) :
    Nat.sqrt ((square / 2 ^ 31).toNat * 2 ^ 31) < 2 ^ 30 ↔ square < 2 ^ 60 := by
  rw [Nat.sqrt_lt']
  norm_num
  omega

/-- **Twice the root is a word exactly if the vector is shorter than `2 ^ 30`.** -/
theorem twice_iff (root : Root sqrt) {x : Int32} {square : Int} (nonneg : 0 ≤ square)
    (holds : square < 2 ^ 60 → x.toInt = square / 2 ^ 31) :
    (2 * sqrt x).toInt = 2 * Nat.sqrt ((square / 2 ^ 31).toNat * 2 ^ 31) ↔ square < 2 ^ 60 := by
  rw [← root_lt_iff square nonneg]
  constructor
  · intro same
    have high := (toInt_bounds (2 * sqrt x)).2
    rw [same] at high
    norm_num at high ⊢
    omega
  · intro short
    have word := holds ((root_lt_iff square nonneg).mp short)
    have value := root x (by rw [word]; exact Int.ediv_nonneg nonneg (by norm_num))
    rw [word] at value
    have two : (2 : Int32).toInt = 2 := rfl
    rw [toInt_scaled, two, value]
    rw [two, value]
    norm_num at short ⊢
    omega

/-- **Nothing overflows in the inductance identification exactly if the averages make a vector
shorter than half of the range.** -/
theorem exact_iff (bounded : Bounded sinCos) (root : Root sqrt) (begun : c.Begun)
    {samples : List Sample} (count : samples.length = 2 ^ 15) :
    c.Exact sinCos sqrt samples ↔
      averageD sinCos c.scomm.idstage samples ^ 2 + averageQ sinCos c.scomm.idstage samples ^ 2 <
        2 ^ 60 := by
  have sampled := Sampled.of_begun bounded begun count.le
  have average0 := average_toInt count (hfid_bounded bounded _) sampled.accumulate0
  have average1 := average_toInt count (hfiq_bounded bounded _) sampled.accumulate1
  have nonneg : 0 ≤ averageD sinCos c.scomm.idstage samples ^ 2 +
      averageQ sinCos c.scomm.idstage samples ^ 2 := add_nonneg (sq_nonneg _) (sq_nonneg _)
  have square (short : averageD sinCos c.scomm.idstage samples ^ 2 +
      averageQ sinCos c.scomm.idstage samples ^ 2 < 2 ^ 60) :
      (imag2 (average (c.sampleAll sinCos samples).scomm.accumulate0)
        (average (c.sampleAll sinCos samples).scomm.accumulate1)).toInt =
      exactImag2 sinCos c.scomm.idstage samples := by
    rw [imag2_toInt, average0, average1]
    · rfl
    · rw [average0, average1]
      exact short
  rw [← twice_iff root nonneg square]
  constructor
  · intro exact_
    exact exact_.twice
  · intro twice
    have prefixed (before : List Sample) (start : before <+: samples) :
        Sampled sinCos c before (c.sampleAll sinCos before) :=
      Sampled.of_begun bounded begun (start.length_le.trans count.le)
    exact ⟨fun before start => (prefixed before start).accumulate0,
      fun before start => (prefixed before start).accumulate1, average0, average1,
      square ((twice_iff root nonneg square).mp twice), twice⟩

/-- **The slow loop computes with these accumulators**, once all samples are in. -/
theorem sampled_compute (bounded : Bounded sinCos) (begun : c.Begun) {samples : List Sample}
    (count : samples.length = 2 ^ 15) :
    ∃ parameter, .compute parameter c.scomm.idstage
        (c.sampleAll sinCos samples).scomm.accumulate0
        (c.sampleAll sinCos samples).scomm.accumulate1 ∈
      (c.sampleAll sinCos samples).scommXmcLoop.2 := by
  obtain ⟨stage, active, counter, -, -⟩ := Sampled.of_begun bounded begun count.le
  have none : (c.sampleAll sinCos samples).scomm.samplesCounter = 0 := by
    rw [← UInt16.toNat_inj, counter, count]
    rfl
  have first {block : Block} {rest : List Block} {output : Output}
      (split : blocks (c.sampleAll sinCos samples).scomm.idstage = block :: rest)
      (emitted : output ∈ ((c.sampleAll sinCos samples).runBlock block).2) :
      output ∈ (c.sampleAll sinCos samples).scommXmcLoop.2 := by
    rw [Core.scommXmcLoop, split]
    exact List.mem_append_left _ emitted
  rw [← stage]
  rcases begun.stage with ld | lq
  · refine ⟨.ld, first (by rw [stage, ld]; rfl) ?_⟩
    simp only [Core.runBlock, SComm.block, SComm.ldBlock, active, none, if_true, SComm.compute,
      List.mem_singleton]
  · refine ⟨.lq, first (by rw [stage, lq]; rfl) ?_⟩
    simp only [Core.runBlock, SComm.block, SComm.lqBlock, active, none, if_true, SComm.compute,
      List.mem_singleton]

end Run

/-! ### A saturated current -/

/-- The root that `arm_sqrt_q31` computes. -/
def rootQ31 (x : Int32) : Int32 := Int32.ofInt (Nat.sqrt (x.toInt.toNat * 2 ^ 31))

theorem root_rootQ31 : Root rootQ31 := by
  intro x nonneg
  have high := (toInt_bounds x).2
  have argument : x.toInt.toNat < 2 ^ 31 := by omega
  have small : Nat.sqrt (x.toInt.toNat * 2 ^ 31) < 2 ^ 31 := by
    rw [Nat.sqrt_lt', sq]
    exact Nat.mul_lt_mul_of_pos_right argument (by norm_num)
  exact Int32.toInt_ofInt_of_le (by norm_num) (by norm_num; exact small)

/-- An angle that does not move, at which the injection is largest. -/
def atPeak (_ : Int32) : Int32 × Int32 := (2147483647, 0)

theorem bounded_atPeak : Bounded atPeak := fun _ =>
  ⟨show |(2147483647 : Int32).toInt| ≤ 2 ^ 31 - 1 by decide,
    show |(0 : Int32).toInt| ≤ 2 ^ 31 - 1 by decide⟩

theorem unit_atPeak (angle : Int32) :
    (atPeak angle).1.toInt ^ 2 + (atPeak angle).2.toInt ^ 2 ≤ 2 ^ 62 :=
  show (2147483647 : Int32).toInt ^ 2 + (0 : Int32).toInt ^ 2 ≤ 2 ^ 62 by decide

/-- `LD_ID`, where it begins to sample. -/
def samplingLd : Core :=
  { Core.init 0 0 0 with
    mcMode := .sComm
    scomm := ⟨0, 0, 0, 0, 0, 0, 0, .ldId, .activeSampling, oversample⟩ }

theorem begun_samplingLd : samplingLd.Begun := ⟨Or.inl rfl, rfl, rfl, rfl, rfl⟩

/-- One current, all along. -/
def steady (current : Int32) : List Sample := List.replicate (2 ^ 15) ⟨current, 0, 0⟩

theorem steady_length (current : Int32) : (steady current).length = 2 ^ 15 := List.length_replicate

theorem total_steady (value : Sample → Int) (current : Int32) :
    total value (steady current) = 2 ^ 15 * value ⟨current, 0, 0⟩ := by
  rw [total, steady, List.map_replicate, List.sum_replicate, nsmul_eq_mul]
  rfl

/-- **A saturated current in phase with the injection** makes twice the root negative. -/
theorem not_exact : ¬ ∀ sinCos sqrt, Bounded sinCos →
    (∀ angle, (sinCos angle).1.toInt ^ 2 + (sinCos angle).2.toInt ^ 2 ≤ 2 ^ 62) → Root sqrt →
    ∀ (c : Core), c.Begun → ∀ samples : List Sample, samples.length = 2 ^ 15 →
      c.Exact sinCos sqrt samples := by
  intro exact_
  have twice := (exact_ atPeak rootQ31 bounded_atPeak unit_atPeak root_rootQ31 samplingLd
    begun_samplingLd (steady 2147483647) (steady_length _)).twice
  have high := (toInt_bounds (2 * rootQ31 (imag2
    (average (samplingLd.sampleAll atPeak (steady 2147483647)).scomm.accumulate0)
    (average (samplingLd.sampleAll atPeak (steady 2147483647)).scomm.accumulate1)))).2
  have averageD : averageD atPeak .ldId (steady 2147483647) = 2147483646 := by
    rw [averageD, total_steady]
    decide
  have averageQ : averageQ atPeak .ldId (steady 2147483647) = 0 := by
    rw [averageQ, total_steady]
    decide
  have square : exactImag2 atPeak .ldId (steady 2147483647) = (2147483646 ^ 2 + 0 ^ 2) / 2 ^ 31 := by
    rw [exactImag2, averageD, averageQ]
  have stage : samplingLd.scomm.idstage = .ldId := rfl
  rw [twice, stage, square] at high
  have short : Nat.sqrt (((2147483646 ^ 2 + 0 ^ 2 : Int) / 2 ^ 31).toNat * 2 ^ 31) < 2 ^ 30 := by
    norm_num at high ⊢
    omega
  exact absurd ((root_lt_iff _ (by norm_num)).mp short) (by norm_num)

/-- What `arm_sin_cos_q31` gives at the angle zero, where the injection stands still. -/
def atZero (_ : Int32) : Int32 × Int32 := (0, 2147483647)

theorem bounded_atZero : Bounded atZero := fun _ =>
  ⟨show |(0 : Int32).toInt| ≤ 2 ^ 31 - 1 by decide,
    show |(2147483647 : Int32).toInt| ≤ 2 ^ 31 - 1 by decide⟩

/-- A current of less than half of the range. -/
theorem exact_steady : samplingLd.Exact atZero rootQ31 (steady 1000000) :=
  (exact_iff bounded_atZero root_rootQ31 begun_samplingLd (steady_length 1000000)).mpr (by
    rw [averageD, averageQ, total_steady, total_steady]
    decide)

end ForgeDrive.Pmsm
