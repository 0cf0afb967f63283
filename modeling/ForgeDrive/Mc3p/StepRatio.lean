/-
**The steps of the plant in a PWM period** (`platform/host/fd_mc3p.cpp`: `fd_mc3p_init`,
`fd_mc3p_reconfigure_pwm`, `postScanMethod`; `platform/host/hconf/fd_driver_conf.h`).

The simulator makes `sil_to_pwm_freq` steps of the plant in a period, of `sil_input.dt` each, and
`fd_mc3p_reconfigure_pwm` is to find the least number with which a step is shorter than
`SIL_MAX_TIMESTEP`. Its loop does not stop at the first number that is large enough, so it ends with
the last; and where one step is enough, the number is left as it was. What the code computes in
floating point is taken exactly. The other fields that the functions write are in `Mc3p.Sil`.

* `postScan_time` — whatever the number is, the steps take one period together;
* `searchRatio_eq` — the loop finds a thousand;
* `paced_iff` — so the number is right after each call exactly in the sequences whose frequencies
  are all large enough for one step.
-/

import Mathlib.Algebra.Order.Field.Basic
import Mathlib.Algebra.Order.Ring.Rat
import Mathlib.Data.Rat.Cast.Order
import Mathlib.Order.Bounds.Basic
import Mathlib.Tactic.FieldSimp
import Mathlib.Tactic.NormNum
import ForgeDrive.Library.History

namespace ForgeDrive.Mc3p

/-! ### The timing of the simulator -/

/-- `SIL_MAX_TIMESTEP`, in seconds. -/
def silMaxTimestep : ℚ := 1 / 20000

/-- `min_sil_freq`. -/
def minSilFreq : ℚ := 1 / silMaxTimestep

/-- `sil_to_pwm_freq` and `sil_input.dt`. -/
structure SilTiming where
  silToPwmFreq : UInt32
  dt : ℚ
  deriving DecidableEq

/-- `1.0f / pwm_Hz / sil_to_pwm_freq`. -/
def timestep (pwmHz silToPwmFreq : UInt32) : ℚ := 1 / pwmHz.toNat / silToPwmFreq.toNat

/-- `fd_mc3p_init`, which finds `sil_to_pwm_freq` as it is initialised. -/
def SilTiming.init (pwmHz : UInt32) : SilTiming := ⟨1, timestep pwmHz 1⟩

/-- The loop body in `fd_mc3p_reconfigure_pwm`. -/
def considerRatio (pwmHz silToPwmFreq : UInt32) (i : Nat) : UInt32 :=
  if ((UInt32.ofNat i * pwmHz).toNat : ℚ) > minSilFreq then UInt32.ofNat i else silToPwmFreq

/-- The loop: `i` is from 1 to 1000. -/
def searchRatio (pwmHz silToPwmFreq : UInt32) : UInt32 :=
  (List.range' 1 1000).foldl (considerRatio pwmHz) silToPwmFreq

/-- `fd_mc3p_reconfigure_pwm`. -/
def SilTiming.reconfigurePwm (s : SilTiming) (pwmHz : UInt32) : SilTiming :=
  let ratio := if (pwmHz.toNat : ℚ) < minSilFreq then searchRatio pwmHz s.silToPwmFreq
    else s.silToPwmFreq
  ⟨ratio, timestep pwmHz ratio⟩

/-- The calls, one after the other. -/
def SilTiming.run (s : SilTiming) (calls : List UInt32) : SilTiming :=
  calls.foldl SilTiming.reconfigurePwm s

/-- The loop in `postScanMethod`, with a step of the plant. -/
def SilTiming.postScan {Plant : Type*} (s : SilTiming) (step : ℚ → Plant → Plant) (plant : Plant) :
    Plant :=
  (step s.dt)^[s.silToPwmFreq.toNat] plant

/-- The numbers of steps that are enough. -/
def sufficient (pwmHz : UInt32) : Set Nat := {i | 1 ≤ i ∧ minSilFreq < i * pwmHz.toNat}

/-- **The number of steps is the smallest that is enough**: a step is at most `SIL_MAX_TIMESTEP`,
and with fewer steps it would not be shorter than that. -/
structure SilTiming.Paced (s : SilTiming) (pwmHz : UInt32) : Prop where
  least : (pwmHz.toNat : ℚ) < minSilFreq → IsLeast (sufficient pwmHz) s.silToPwmFreq.toNat
  one : minSilFreq ≤ pwmHz.toNat → s.silToPwmFreq = 1
  dt_le : s.dt ≤ silMaxTimestep
  coarse : ∀ i : Nat, 1 ≤ i → i < s.silToPwmFreq.toNat → silMaxTimestep ≤ 1 / pwmHz.toNat / i

/-! ### One call -/

variable {s : SilTiming} {pwmHz : UInt32}

theorem minSilFreq_eq : minSilFreq = 20000 := by norm_num [minSilFreq, silMaxTimestep]

theorem slow_iff : (pwmHz.toNat : ℚ) < minSilFreq ↔ pwmHz.toNat < 20000 := by
  rw [minSilFreq_eq]
  exact_mod_cast Iff.rfl

/-- **The steps take one period together.** -/
theorem postScan_time (steps : (s.reconfigurePwm pwmHz).silToPwmFreq.toNat ≠ 0) (time : ℚ) :
    (s.reconfigurePwm pwmHz).postScan (fun dt time => time + dt) time = time + 1 / pwmHz.toNat := by
  have dt : (s.reconfigurePwm pwmHz).dt =
      1 / pwmHz.toNat / (s.reconfigurePwm pwmHz).silToPwmFreq.toNat := rfl
  have nonzero : ((s.reconfigurePwm pwmHz).silToPwmFreq.toNat : ℚ) ≠ 0 := Nat.cast_ne_zero.mpr steps
  rw [SilTiming.postScan, add_right_iterate, dt, nsmul_eq_mul, mul_div_cancel₀ _ nonzero]

/-- The last number that the loop considers. -/
theorem foldl_considerRatio (silToPwmFreq : UInt32) {n last : Nat} (next : 1 + n = last) :
    (List.range' 1 last).foldl (considerRatio pwmHz) silToPwmFreq =
      considerRatio pwmHz ((List.range' 1 n).foldl (considerRatio pwmHz) silToPwmFreq) last := by
  rw [← next, Nat.add_comm 1 n, List.range'_1_concat, List.foldl_append, List.foldl_cons,
    List.foldl_nil, Nat.add_comm 1 n]

/-- **The loop ends with its last number**, which is enough. -/
theorem searchRatio_eq (range : 8000 ≤ pwmHz.toNat ∧ pwmHz.toNat ≤ 40000) (silToPwmFreq : UInt32) :
    searchRatio pwmHz silToPwmFreq = 1000 := by
  have product : (UInt32.ofNat 1000 * pwmHz).toNat = 1000 * pwmHz.toNat := by
    rw [UInt32.toNat_mul]
    exact Nat.mod_eq_of_lt (by show 1000 * pwmHz.toNat < 2 ^ 32; omega)
  have enough : ((UInt32.ofNat 1000 * pwmHz).toNat : ℚ) > minSilFreq := by
    rw [product, minSilFreq_eq]
    exact_mod_cast (by omega : 20000 < 1000 * pwmHz.toNat)
  rw [searchRatio, foldl_considerRatio silToPwmFreq (by decide : 1 + 999 = 1000), considerRatio,
    if_pos enough]
  rfl

/-- A call with a frequency that needs more than one step. -/
theorem reconfigurePwm_slow (range : 8000 ≤ pwmHz.toNat ∧ pwmHz.toNat ≤ 40000)
    (slow : pwmHz.toNat < 20000) : (s.reconfigurePwm pwmHz).silToPwmFreq = 1000 := by
  simp only [SilTiming.reconfigurePwm, if_pos (slow_iff.mpr slow),
    searchRatio_eq range s.silToPwmFreq]

/-- A call with another leaves the number. -/
theorem reconfigurePwm_fast (fast : 20000 ≤ pwmHz.toNat) :
    s.reconfigurePwm pwmHz = ⟨s.silToPwmFreq, timestep pwmHz s.silToPwmFreq⟩ := by
  have enough : ¬ (pwmHz.toNat : ℚ) < minSilFreq := fun slow =>
    Nat.not_lt_of_le fast (slow_iff.mp slow)
  simp only [SilTiming.reconfigurePwm, if_neg enough]

/-- **A thousand steps are never the smallest number**: three are enough. -/
theorem not_paced_slow (range : 8000 ≤ pwmHz.toNat ∧ pwmHz.toNat ≤ 40000)
    (slow : pwmHz.toNat < 20000) : ¬ (s.reconfigurePwm pwmHz).Paced pwmHz := by
  intro paced
  have three : 3 ∈ sufficient pwmHz := by
    refine ⟨by decide, ?_⟩
    rw [minSilFreq_eq]
    exact_mod_cast (by omega : 20000 < 3 * pwmHz.toNat)
  have le := (paced.least (slow_iff.mpr slow)).2 three
  rw [reconfigurePwm_slow range slow] at le
  exact absurd le (by decide)

/-- **One step is right where it is enough.** -/
theorem paced_fast (fast : 20000 ≤ pwmHz.toNat) (one : s.silToPwmFreq = 1) :
    (s.reconfigurePwm pwmHz).Paced pwmHz := by
  rw [reconfigurePwm_fast fast, one]
  refine ⟨fun slow => absurd (slow_iff.mp slow) (Nat.not_lt_of_le fast), fun _ => rfl, ?_, ?_⟩
  · have slowest : (20000 : ℚ) ≤ pwmHz.toNat := by exact_mod_cast fast
    show 1 / (pwmHz.toNat : ℚ) / 1 ≤ 1 / 20000
    rw [div_one]
    exact one_div_le_one_div_of_le (by norm_num) slowest
  · intro i positive less
    exact absurd less (Nat.not_lt_of_le positive)

/-! ### Sequences of calls -/

/-- Calls that need one step leave it at one. -/
theorem run_fast {calls : List UInt32} (one : s.silToPwmFreq = 1)
    (fast : ∀ pwmHz ∈ calls, 20000 ≤ pwmHz.toNat) : (s.run calls).silToPwmFreq = 1 := by
  induction calls generalizing s with
  | nil => exact one
  | cons pwmHz rest ih =>
    obtain ⟨first, later⟩ := List.forall_mem_cons.mp fast
    refine ih ?_ later
    rw [reconfigurePwm_fast first]
    exact one

theorem run_concat (s : SilTiming) (calls : List UInt32) (pwmHz : UInt32) :
    s.run (calls ++ [pwmHz]) = (s.run calls).reconfigurePwm pwmHz := by
  rw [SilTiming.run, List.foldl_append]
  rfl

/-- **The number of steps is right after each call** in exactly the sequences whose frequencies all
need one step only. -/
theorem paced_iff (first : UInt32) {calls : List UInt32}
    (range : ∀ pwmHz ∈ calls, 8000 ≤ pwmHz.toNat ∧ pwmHz.toNat ≤ 40000) :
    History.Each (fun before pwmHz =>
        ((SilTiming.init first).run (before ++ [pwmHz])).Paced pwmHz) calls ↔
      ∀ pwmHz ∈ calls, 20000 ≤ pwmHz.toNat := by
  constructor
  · intro each pwmHz member
    by_contra slow
    obtain ⟨before, after, split⟩ := List.append_of_mem member
    have paced : ((SilTiming.init first).run (before ++ [pwmHz])).Paced pwmHz :=
      each before pwmHz after split
    rw [run_concat] at paced
    exact not_paced_slow (range pwmHz member) (Nat.lt_of_not_le slow) paced
  · rintro fast before pwmHz after rfl
    obtain ⟨earlier, others⟩ := List.forall_mem_append.mp fast
    show ((SilTiming.init first).run (before ++ [pwmHz])).Paced pwmHz
    rw [run_concat]
    exact paced_fast (others pwmHz List.mem_cons_self) (run_fast rfl earlier)

/-- **At 16 kHz two steps are enough**, and a thousand are made. -/
theorem not_paced : ¬ ∀ (first : UInt32) (calls : List UInt32),
    (∀ pwmHz ∈ calls, 8000 ≤ pwmHz.toNat ∧ pwmHz.toNat ≤ 40000) →
      History.Each (fun before pwmHz =>
        ((SilTiming.init first).run (before ++ [pwmHz])).Paced pwmHz) calls := by
  intro always
  have paced : ((SilTiming.init 20000).reconfigurePwm 16000).Paced 16000 :=
    always 20000 [16000] (List.forall_mem_singleton.mpr (by decide)) [] 16000 [] rfl
  exact not_paced_slow (by decide) (by decide) paced

/-- Frequencies of 20 kHz and 40 kHz. -/
theorem paced_twice : History.Each (fun before pwmHz =>
    ((SilTiming.init 20000).run (before ++ [pwmHz])).Paced pwmHz) [20000, 40000] := by
  have both {P : UInt32 → Prop} (first : P 20000) (second : P 40000) :
      ∀ pwmHz ∈ [20000, 40000], P pwmHz :=
    List.forall_mem_cons.mpr ⟨first, List.forall_mem_singleton.mpr second⟩
  exact (paced_iff 20000 (both (by decide) (by decide))).mpr (both (by decide) (by decide))

end ForgeDrive.Mc3p
