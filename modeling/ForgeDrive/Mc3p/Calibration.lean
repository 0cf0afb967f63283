/-
**The calibration of the offsets** (`driver/stm32f4/fd_mc3p.c`: `mc3p_offset_calibration`,
`INTERNAL_mc3p_ADC_JEOS_IRQ`).

The main thread clears four sums, sets the number of samples and waits until it is zero; meanwhile
the interrupt of the injected scan adds the results up. Then the main thread divides the sums by the
number of samples. It does so twice, for the currents and for the voltages.

The interrupt can come between any two accesses of the main thread. It adds only while samples
remain, so the hand-over is right (`Calibration.Consistent`); but the sums have 16 bits.

* `averaged_mean_iff` — in every run, the division leaves the means exactly if no rank has samples
  that sum to `2 ^ 16` or more: 128 samples of 512;
* `Results.sum_le` — what a whole calibration leaves of a rank is at most 511;
* `averages` — any 128 scans can be the samples of the currents, and any other 128 of the voltages;
* `not_averaged_mean` — a sensor at the middle of its range is calibrated to zero.
-/

import Mathlib.Algebra.BigOperators.Group.List.Basic
import Mathlib.Algebra.Order.Ring.Nat
import Mathlib.Logic.Function.Basic
import ForgeDrive.Library.EventMachine
import ForgeDrive.Mc3p.Driver

namespace ForgeDrive.Mc3p

open EventMachine (run)

/-! ### The two threads -/

/-- `FD_MC3P_OFFSET_CALIBRATION_SAMPLES`. -/
def offsetCalibrationSamples : Nat := 128

/-- The results of one injected scan, of 12 bits, by rank. -/
abbrev Scan := Fin 4 → BitVec 12

namespace Calibration

/-- What is calibrated. -/
inductive Phase
  | currents
  | voltages
  deriving DecidableEq, Repr

/-- Where the main thread is, with its loop index. At `store` a quotient is computed and not yet
written. -/
inductive Place
  | idle
  | zero (phase : Phase) (i : Nat)
  | arm (phase : Phase)
  | wait (phase : Phase)
  | divide (phase : Phase) (i : Nat)
  | store (phase : Phase) (i : Fin 4) (quotient : UInt16)
  | assign (phase : Phase)
  deriving DecidableEq

/-- A step of the main thread, or the end of an injected scan. -/
inductive Input
  | main
  | jeos (scan : Scan)

/-- What the main thread goes on with after the division. The samples are the first scans that were
delivered after the number of samples was set. -/
structure Averaged where
  phase : Phase
  sum : Fin 4 → UInt16
  samples : List Scan

end Calibration

open Calibration

/-- The fields of the handle that the calibration uses. For the proofs there are the scans delivered
since the number of samples was set. -/
structure Calibration where
  mode : Mode
  offsetCalibrationSum : Fin 4 → UInt16
  offsetCalibrationRemainingSamples : UInt8
  place : Place
  delivered : List Scan

namespace Calibration

/-- The zeroed handle. -/
def start : Calibration := ⟨.none, fun _ => 0, 0, .idle, []⟩

/-- The scans that are to be averaged. -/
def samples (c : Calibration) : List Scan := c.delivered.take offsetCalibrationSamples

/-- `mc3p_offset_calibration`, one access at a time. -/
def main (c : Calibration) : Calibration × List Averaged :=
  match c.place with
  | .idle => ({ c with mode := .calib, place := .zero .currents 0 }, [])
  | .zero phase i =>
    if inside : i < 4 then
      ({ c with
        offsetCalibrationSum := Function.update c.offsetCalibrationSum ⟨i, inside⟩ 0
        place := .zero phase (i + 1) }, [])
    else ({ c with place := .arm phase }, [])
  | .arm phase =>
    ({ c with
      offsetCalibrationRemainingSamples := UInt8.ofNat offsetCalibrationSamples
      place := .wait phase
      delivered := [] }, [])
  | .wait phase =>
    if c.offsetCalibrationRemainingSamples ≠ 0 then (c, [])
    else ({ c with place := .divide phase 0 }, [])
  | .divide phase i =>
    if inside : i < 4 then
      let quotient := (c.offsetCalibrationSum ⟨i, inside⟩).toNat / offsetCalibrationSamples
      ({ c with place := .store phase ⟨i, inside⟩ (UInt16.ofNat quotient) }, [])
    else ({ c with place := .assign phase }, [⟨phase, c.offsetCalibrationSum, c.samples⟩])
  | .store phase i quotient =>
    ({ c with
      offsetCalibrationSum := Function.update c.offsetCalibrationSum i quotient
      place := .divide phase (i + 1) }, [])
  | .assign .currents => ({ c with place := .zero .voltages 0 }, [])
  | .assign .voltages => ({ c with mode := .none, place := .idle }, [])

/-- `INTERNAL_mc3p_ADC_JEOS_IRQ`. -/
def jeosIrq (c : Calibration) (scan : Scan) : Calibration :=
  match c.mode with
  | .calib =>
    if c.offsetCalibrationRemainingSamples ≠ 0 then
      { c with
        offsetCalibrationSum := fun i =>
          c.offsetCalibrationSum i + UInt16.ofNat (scan i).toNat
        offsetCalibrationRemainingSamples := c.offsetCalibrationRemainingSamples - 1 }
    else c
  | _ => c

/-- The interrupt at the end of a scan. -/
def jeos (c : Calibration) (scan : Scan) : Calibration :=
  { c.jeosIrq scan with delivered := c.delivered ++ [scan] }

def step (c : Calibration) : Input → Calibration × List Averaged
  | .main => c.main
  | .jeos scan => (c.jeos scan, [])

/-- What the results of a rank sum to. -/
def total (scans : List Scan) (i : Fin 4) : Nat := (scans.map fun scan => (scan i).toNat).sum

/-- **The division leaves the means**, rounded down, of as many samples as there are to be. -/
structure Averaged.Mean (result : Averaged) : Prop where
  count : result.samples.length = offsetCalibrationSamples
  mean : ∀ i, (result.sum i).toNat = total result.samples i / offsetCalibrationSamples

/-! ### What holds at each place -/

/-- The sum of a rank, in 16 bits. -/
def sumWord (scans : List Scan) (i : Fin 4) : UInt16 := UInt16.ofNat (total scans i)

/-- What the division makes of it. -/
def quotientWord (scans : List Scan) (i : Fin 4) : UInt16 :=
  UInt16.ofNat ((sumWord scans i).toNat / offsetCalibrationSamples)

/-- The samples are in, and the sums of the ranks below `i` are divided. -/
structure Dividing (c : Calibration) (i : Nat) : Prop where
  remaining : c.offsetCalibrationRemainingSamples = 0
  count : c.samples.length = offsetCalibrationSamples
  sum : ∀ j : Fin 4, c.offsetCalibrationSum j =
    if j.val < i then quotientWord c.samples j else sumWord c.samples j

/-- **What holds at each place of the main thread**, however often the interrupt came. -/
def Consistent (c : Calibration) : Prop :=
  match c.place with
  | .idle | .assign _ => c.offsetCalibrationRemainingSamples = 0
  | .zero _ i =>
    c.offsetCalibrationRemainingSamples = 0 ∧ ∀ j : Fin 4, j.val < i → c.offsetCalibrationSum j = 0
  | .arm _ => c.offsetCalibrationRemainingSamples = 0 ∧ ∀ j, c.offsetCalibrationSum j = 0
  | .wait _ =>
    c.offsetCalibrationRemainingSamples.toNat + c.samples.length = offsetCalibrationSamples ∧
      ∀ j, c.offsetCalibrationSum j = sumWord c.samples j
  | .divide _ i => c.Dividing i
  | .store _ i quotient => c.Dividing i ∧ quotient = quotientWord c.samples i

/-- The mode is that of the calibration until the main thread is done. -/
def Calibrating (c : Calibration) : Prop := c.place = .idle ∨ c.mode = .calib

variable {c : Calibration}

@[simp] theorem jeosIrq_place (c : Calibration) (scan : Scan) : (c.jeosIrq scan).place = c.place := by
  unfold jeosIrq
  split
  · split_ifs <;> rfl
  · rfl

@[simp] theorem jeosIrq_mode (c : Calibration) (scan : Scan) : (c.jeosIrq scan).mode = c.mode := by
  unfold jeosIrq
  split
  · split_ifs <;> rfl
  · rfl

theorem jeos_place (c : Calibration) (scan : Scan) : (c.jeos scan).place = c.place :=
  jeosIrq_place c scan

/-- With no samples remaining the interrupt leaves the handle. -/
theorem jeos_settled (none : c.offsetCalibrationRemainingSamples = 0) (scan : Scan) :
    c.jeos scan = { c with delivered := c.delivered ++ [scan] } := by
  unfold jeos jeosIrq
  split
  · rw [if_neg (not_not.mpr none)]
  · rfl

/-- Further scans are not among the samples that are in. -/
theorem samples_full (count : c.samples.length = offsetCalibrationSamples) (scan : Scan) :
    (c.delivered ++ [scan]).take offsetCalibrationSamples = c.samples := by
  rw [samples, List.length_take] at count
  exact List.take_append_of_le_length (by omega)

theorem Dividing.jeos {i : Nat} (dividing : c.Dividing i) (scan : Scan) :
    (c.jeos scan).Dividing i := by
  obtain ⟨remaining, count, sum⟩ := dividing
  have full : (c.jeos scan).samples = c.samples := by
    rw [jeos_settled remaining]
    exact samples_full count scan
  constructor
  · rw [jeos_settled remaining]
    exact remaining
  · rw [full]
    exact count
  · rw [full, jeos_settled remaining]
    exact sum

theorem total_concat (scans : List Scan) (scan : Scan) (i : Fin 4) :
    total (scans ++ [scan]) i = total scans i + (scan i).toNat := by
  simp [total]

/-- **One more sample.** -/
theorem Consistent.jeos_wait {phase : Phase} (place : c.place = .wait phase)
    (calib : c.mode = .calib) (consistent : c.Consistent) (scan : Scan) :
    (c.jeos scan).Consistent := by
  simp only [Consistent, place] at consistent
  obtain ⟨count, sum⟩ := consistent
  simp only [Consistent, jeos, jeosIrq_place, place]
  by_cases none : c.offsetCalibrationRemainingSamples = 0
  · have whole : c.samples.length = offsetCalibrationSamples := by
      rwa [none, UInt8.toNat_zero, Nat.zero_add] at count
    simp only [jeosIrq, calib, none, ne_eq, not_true, if_false, samples, samples_full whole]
    refine ⟨?_, sum⟩
    rw [UInt8.toNat_zero, Nat.zero_add]
    exact whole
  · have positive : 0 < c.offsetCalibrationRemainingSamples.toNat := by
      rw [Nat.pos_iff_ne_zero, ne_eq, ← UInt8.toNat_zero, UInt8.toNat_inj]
      exact none
    have short : c.delivered.length < offsetCalibrationSamples := by
      rw [samples, List.length_take] at count
      omega
    have before : c.samples = c.delivered := List.take_of_length_le short.le
    have after : (c.delivered ++ [scan]).take offsetCalibrationSamples = c.delivered ++ [scan] :=
      List.take_of_length_le (by rw [List.length_append]; exact short)
    simp only [jeosIrq, calib, none, ne_eq, not_false_eq_true, if_true, samples, after]
    constructor
    · rw [before] at count
      have one : (1 : UInt8) ≤ c.offsetCalibrationRemainingSamples :=
        UInt8.le_iff_toNat_le.mpr positive
      rw [UInt8.toNat_sub_of_le _ _ one, List.length_append]
      simp only [UInt8.toNat_one, List.length_singleton]
      omega
    · intro j
      rw [sum, before, sumWord, sumWord, total_concat, UInt16.ofNat_add]

/-- **The interrupt keeps what holds.** It adds at one place only. -/
theorem Consistent.jeos (consistent : c.Consistent) (calibrating : c.Calibrating) (scan : Scan) :
    (c.jeos scan).Consistent := by
  cases place : c.place with
  | wait phase =>
    rcases calibrating with idle | calib
    · rw [place] at idle
      contradiction
    · exact consistent.jeos_wait place calib scan
  | divide phase i =>
    simp only [Consistent, place] at consistent
    simp only [Consistent, jeos_place, place]
    exact consistent.jeos scan
  | store phase i quotient =>
    simp only [Consistent, place] at consistent
    have full : (c.jeos scan).samples = c.samples := by
      rw [jeos_settled consistent.1.remaining]
      exact samples_full consistent.1.count scan
    simp only [Consistent, jeos_place, place]
    exact ⟨consistent.1.jeos scan, consistent.2.trans (congrArg (quotientWord · i) full.symm)⟩
  | _ =>
    have none : c.offsetCalibrationRemainingSamples = 0 := by
      simp only [Consistent, place] at consistent
      first | exact consistent | exact consistent.1
    rw [jeos_settled none]
    simp only [Consistent, place] at consistent ⊢
    exact consistent

/-- The results the division leaves are the quotients of the sums. -/
structure Averaged.Computed (result : Averaged) : Prop where
  count : result.samples.length = offsetCalibrationSamples
  sum : ∀ i, result.sum i = quotientWord result.samples i

/-- A store at the loop index, in a loop that goes upwards. -/
theorem update_below {sum : Fin 4 → UInt16} {i : Nat} (inside : i < 4) {value : UInt16}
    {before after : Fin 4 → UInt16} (same : value = after ⟨i, inside⟩)
    (each : ∀ j : Fin 4, sum j = if j.val < i then after j else before j) (j : Fin 4) :
    Function.update sum ⟨i, inside⟩ value j = if j.val < i + 1 then after j else before j := by
  by_cases here : j = ⟨i, inside⟩
  · subst here
    rw [Function.update_self, if_pos (Nat.lt_succ_self i), same]
  · have apart : j.val ≠ i := fun equal => here (Fin.ext equal)
    rw [Function.update_of_ne here, each]
    exact if_congr (by omega) rfl rfl

/-- **The main thread keeps what holds, and what it goes on with is computed.** -/
theorem Consistent.main (consistent : c.Consistent) :
    c.main.1.Consistent ∧ ∀ result ∈ c.main.2, result.Computed := by
  cases place : c.place with
  | idle =>
    simp only [Consistent, place] at consistent
    simp only [Calibration.main, place, Consistent]
    exact ⟨⟨consistent, nofun⟩, nofun⟩
  | zero phase i =>
    simp only [Consistent, place] at consistent
    obtain ⟨none, cleared⟩ := consistent
    simp only [Calibration.main, place]
    split_ifs with inside
    · refine ⟨⟨none, fun j below => ?_⟩, nofun⟩
      show Function.update c.offsetCalibrationSum ⟨i, inside⟩ 0 j = 0
      by_cases here : j = ⟨i, inside⟩
      · rw [here, Function.update_self]
      · have apart : j.val ≠ i := fun equal => here (Fin.ext equal)
        rw [Function.update_of_ne here]
        exact cleared j (by omega)
    · exact ⟨⟨none, fun j => cleared j (by omega)⟩, nofun⟩
  | arm phase =>
    simp only [Consistent, place] at consistent
    simp only [Calibration.main, place, Consistent]
    exact ⟨⟨rfl, fun j => consistent.2 j⟩, nofun⟩
  | wait phase =>
    simp only [Calibration.main, place]
    split_ifs with remain
    · exact ⟨consistent, nofun⟩
    · simp only [Consistent, place] at consistent
      obtain ⟨count, sum⟩ := consistent
      have none := not_not.mp remain
      rw [none, UInt8.toNat_zero, Nat.zero_add] at count
      exact ⟨⟨none, count, sum⟩, nofun⟩
  | divide phase i =>
    simp only [Consistent, place] at consistent
    simp only [Calibration.main, place]
    split_ifs with inside
    · have undivided : c.offsetCalibrationSum ⟨i, inside⟩ = sumWord c.samples ⟨i, inside⟩ := by
        rw [consistent.sum, if_neg (Nat.lt_irrefl i)]
      refine ⟨⟨⟨consistent.remaining, consistent.count, consistent.sum⟩, ?_⟩, nofun⟩
      rw [undivided]
      rfl
    · refine ⟨consistent.remaining, ?_⟩
      rintro result (_ | ⟨_, ⟨⟩⟩)
      refine ⟨consistent.count, fun j => ?_⟩
      show c.offsetCalibrationSum j = quotientWord c.samples j
      rw [consistent.sum, if_pos (by omega)]
  | store phase i quotient =>
    simp only [Consistent, place] at consistent
    obtain ⟨dividing, same⟩ := consistent
    simp only [Calibration.main, place]
    exact ⟨⟨dividing.remaining, dividing.count, update_below i.isLt same dividing.sum⟩, nofun⟩
  | assign phase =>
    simp only [Consistent, place] at consistent
    cases phase <;> simp only [Calibration.main, place, Consistent]
    · exact ⟨⟨consistent, nofun⟩, nofun⟩
    · exact ⟨consistent, nofun⟩

theorem Calibrating.main (calibrating : c.Calibrating) : c.main.1.Calibrating := by
  cases place : c.place with
  | idle =>
    simp only [Calibration.main, place]
    exact Or.inr rfl
  | assign phase =>
    have calib : c.mode = .calib := calibrating.resolve_left (by simp [place])
    cases phase <;> simp only [Calibration.main, place]
    · exact Or.inr calib
    · exact Or.inl rfl
  | _ =>
    have calib : c.mode = .calib := calibrating.resolve_left (by simp [place])
    simp only [Calibration.main, place]
    first
    | exact Or.inr calib
    | split_ifs <;> exact Or.inr calib

theorem Calibrating.jeos (calibrating : c.Calibrating) (scan : Scan) :
    (c.jeos scan).Calibrating := by
  rw [Calibrating, jeos_place]
  exact calibrating.imp_right fun calib => (jeosIrq_mode c scan).trans calib

/-! ### Runs -/

theorem runs_keep (consistent : c.Consistent) (calibrating : c.Calibrating)
    (inputs : List Input) :
    (run step c inputs).1.Consistent ∧ (run step c inputs).1.Calibrating := by
  refine EventMachine.run_invariant step (fun c => c.Consistent ∧ c.Calibrating) ?_
    ⟨consistent, calibrating⟩ inputs
  rintro c input ⟨consistent, calibrating⟩
  cases input with
  | main => exact ⟨consistent.main.1, calibrating.main⟩
  | jeos scan => exact ⟨consistent.jeos calibrating scan, calibrating.jeos scan⟩

theorem reached_consistent (inputs : List Input) :
    (run step start inputs).1.Consistent ∧ (run step start inputs).1.Calibrating :=
  runs_keep (c := start) rfl (Or.inl rfl) inputs

theorem computed_of_emitted {inputs : List Input} {result : Averaged}
    (emitted : result ∈ (run step start inputs).2) : result.Computed := by
  obtain ⟨before, input, after, -, emitted⟩ := (EventMachine.mem_run_iff _ _ _ _).mp emitted
  cases input with
  | main => exact (reached_consistent before).1.main.2 result emitted
  | jeos scan => nomatch emitted

/-- A quotient of the wrapped sum is that of the sum as long as nothing is lost. -/
theorem quotientWord_eq_iff (scans : List Scan) (i : Fin 4) :
    (quotientWord scans i).toNat = total scans i / offsetCalibrationSamples ↔
      total scans i < 2 ^ 16 := by
  simp only [quotientWord, sumWord, UInt16.toNat_ofNat', offsetCalibrationSamples]
  omega

/-- **The division leaves the means exactly if no rank has samples that sum to more than 16 bits
hold**, in every run. -/
theorem averaged_mean_iff {inputs : List Input} {result : Averaged}
    (emitted : result ∈ (run step start inputs).2) :
    result.Mean ↔ ∀ i, total result.samples i < 2 ^ 16 := by
  have computed := computed_of_emitted emitted
  constructor
  · intro means i
    rw [← quotientWord_eq_iff, ← computed.sum]
    exact means.mean i
  · intro small
    refine ⟨computed.count, fun i => ?_⟩
    rw [computed.sum, quotientWord_eq_iff]
    exact small i

/-! ### The results of a whole calibration -/

/-- What a whole calibration leaves: a run that goes on with the currents and then the voltages. -/
structure Results where
  inputs : List Input
  currents : Averaged
  voltages : Averaged
  emitted : (run step start inputs).2 = [currents, voltages]
  ofCurrents : currents.phase = .currents
  ofVoltages : voltages.phase = .voltages

/-- `offset_calibration_sum` after the division of a phase. -/
def Results.sum (results : Results) : Phase → Fin 4 → UInt16
  | .currents => results.currents.sum
  | .voltages => results.voltages.sum

theorem Results.computed (results : Results) :
    results.currents.Computed ∧ results.voltages.Computed := by
  have emitted := results.emitted
  exact ⟨computed_of_emitted (by rw [emitted]; exact .head _),
    computed_of_emitted (by rw [emitted]; exact .tail _ (.head _))⟩

/-- A quotient of 16 bits. -/
theorem quotientWord_le (scans : List Scan) (i : Fin 4) : (quotientWord scans i).toNat ≤ 511 := by
  have wrapped := (sumWord scans i).toNat_lt
  simp only [quotientWord, UInt16.toNat_ofNat', offsetCalibrationSamples]
  omega

/-- **What is left of a rank** is at most `65535 / 128`. -/
theorem Results.sum_le (results : Results) (phase : Phase) (i : Fin 4) :
    (results.sum phase i).toNat ≤ 511 := by
  obtain ⟨currents, voltages⟩ := results.computed
  cases phase with
  | currents => exact (congrArg UInt16.toNat (currents.sum i)).trans_le (quotientWord_le _ i)
  | voltages => exact (congrArg UInt16.toNat (voltages.sum i)).trans_le (quotientWord_le _ i)

/-! ### Every result of a calibration -/

theorem runs_arm {phase : Phase} (place : c.place = .zero phase 0) :
    (run step c (List.replicate 6 .main)).1.place = .wait phase ∧
      (run step c (List.replicate 6 .main)).1.delivered = [] ∧
      (run step c (List.replicate 6 .main)).2 = [] := by
  simp [List.replicate, step, main, place]

theorem runs_scans {phase : Phase} (place : c.place = .wait phase) (scans : List Scan) :
    (run step c (scans.map .jeos)).1.place = .wait phase ∧
      (run step c (scans.map .jeos)).1.delivered = c.delivered ++ scans ∧
      (run step c (scans.map .jeos)).2 = [] := by
  induction scans generalizing c with
  | nil => exact ⟨place, (List.append_nil _).symm, rfl⟩
  | cons scan rest ih =>
    obtain ⟨waits, delivered, silent⟩ := ih (c := c.jeos scan) ((jeos_place c scan).trans place)
    refine ⟨waits, delivered.trans ?_, silent⟩
    show (c.delivered ++ [scan]) ++ rest = _
    rw [List.append_assoc, List.singleton_append]

theorem runs_divide {phase : Phase} (place : c.place = .wait phase)
    (full : c.offsetCalibrationRemainingSamples = 0) :
    (run step c (List.replicate 10 .main)).1.place = .assign phase ∧
      ∃ sum, (run step c (List.replicate 10 .main)).2 = [⟨phase, sum, c.samples⟩] := by
  simp +decide [List.replicate, step, main, place, full, samples]

/-- **From the start of a phase, any 128 scans can be its samples.** -/
theorem averages_phase {phase : Phase} (consistent : c.Consistent) (calibrating : c.Calibrating)
    (place : c.place = .zero phase 0) {scans : List Scan}
    (count : scans.length = offsetCalibrationSamples) :
    ∃ inputs, (run step c inputs).1.place = .assign phase ∧
      ∃ sum, (run step c inputs).2 = [⟨phase, sum, scans⟩] := by
  obtain ⟨armed, fresh, quiet⟩ := runs_arm place
  obtain ⟨waits, delivered, silent⟩ := runs_scans armed scans
  rw [fresh, List.nil_append] at delivered
  rw [← EventMachine.run_append_fst] at waits delivered
  have kept := runs_keep consistent calibrating (List.replicate 6 .main ++ scans.map .jeos)
  have whole : (run step c (List.replicate 6 .main ++ scans.map .jeos)).1.samples = scans := by
    rw [samples, delivered]
    exact List.take_of_length_le count.le
  have full : (run step c (List.replicate 6 .main ++ scans.map
      .jeos)).1.offsetCalibrationRemainingSamples = 0 := by
    have holds := kept.1
    simp only [Consistent, waits] at holds
    rw [whole, count] at holds
    exact UInt8.toNat_inj.mp (Nat.add_eq_right.mp holds.1)
  obtain ⟨done, sum, emitted⟩ := runs_divide waits full
  rw [whole] at emitted
  refine ⟨(List.replicate 6 .main ++ scans.map .jeos) ++ List.replicate 10 .main, ?_, sum, ?_⟩
  · rw [EventMachine.run_append_fst]
    exact done
  · rw [EventMachine.run_append_snd, EventMachine.run_append_snd, quiet, silent, emitted]
    rfl

/-- From the currents the main thread goes on to the voltages. -/
theorem runs_next (place : c.place = .assign .currents) :
    run step c [.main] = ({ c with place := .zero .voltages 0 }, []) := by
  simp [step, main, place]

/-- **Any 128 scans can be the samples of the currents, and any other 128 of the voltages.** -/
theorem averages {first second : List Scan} (firstCount : first.length = offsetCalibrationSamples)
    (secondCount : second.length = offsetCalibrationSamples) :
    ∃ results : Results, results.currents.samples = first ∧ results.voltages.samples = second := by
  have begun := reached_consistent [.main]
  obtain ⟨before, done, currents, divided⟩ := averages_phase begun.1 begun.2 rfl firstCount
  have kept := runs_keep begun.1 begun.2 (before ++ [.main])
  have next : (run step (run step start [.main]).1 (before ++ [.main])).1.place =
      .zero .voltages 0 := by
    rw [EventMachine.run_append_fst, runs_next done]
  have one : (run step (run step start [.main]).1 (before ++ [.main])).2 =
      [⟨.currents, currents, first⟩] := by
    rw [EventMachine.run_append_snd, divided, runs_next done]
    rfl
  obtain ⟨after, -, voltages, emitted⟩ := averages_phase kept.1 kept.2 next secondCount
  refine ⟨⟨[.main] ++ ((before ++ [.main]) ++ after), ⟨.currents, currents, first⟩,
    ⟨.voltages, voltages, second⟩, ?_, rfl, rfl⟩, rfl, rfl⟩
  rw [EventMachine.run_append_snd, EventMachine.run_append_snd, one, emitted]
  rfl

/-- A scan with one result at all ranks. -/
def level (value : BitVec 12) : Scan := fun _ => value

theorem total_replicate (n : Nat) (scan : Scan) (i : Fin 4) :
    total (List.replicate n scan) i = n * (scan i).toNat := by
  simp [total]

/-- The results of scans that are all at one level. -/
theorem averages_level (value : BitVec 12) :
    ∃ results : Results,
      results.currents.samples = List.replicate offsetCalibrationSamples (level value) := by
  have count : (List.replicate offsetCalibrationSamples (level value)).length =
    offsetCalibrationSamples := List.length_replicate
  obtain ⟨results, samples, -⟩ := averages count count
  exact ⟨results, samples⟩

/-- **A sensor at the middle of its range** is calibrated to zero. -/
theorem not_averaged_mean :
    ¬ ∀ inputs, ∀ result ∈ (run step start inputs).2, result.Mean := by
  intro means
  obtain ⟨results, samples⟩ := averages_level 2048
  have emitted : results.currents ∈ (run step start results.inputs).2 :=
    results.emitted ▸ List.Mem.head _
  have mean := (means _ _ emitted).mean 1
  rw [results.computed.1.sum, quotientWord_eq_iff, samples, total_replicate] at mean
  exact absurd mean (by decide)

/-- Near the bottom of its range it is calibrated. -/
theorem averaged_mean_bottom :
    ∃ inputs, ∃ result ∈ (run step start inputs).2, result.samples ≠ [] ∧ result.Mean := by
  obtain ⟨results, samples⟩ := averages_level 100
  have emitted : results.currents ∈ (run step start results.inputs).2 :=
    results.emitted ▸ List.Mem.head _
  refine ⟨results.inputs, results.currents, emitted, ?_, (averaged_mean_iff emitted).mpr ?_⟩
  · rw [samples]
    exact List.ne_nil_of_length_pos (by rw [List.length_replicate]; decide)
  · intro i
    rw [samples, total_replicate]
    decide +revert

end Calibration

end ForgeDrive.Mc3p
