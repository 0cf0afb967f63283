/-
**The space vectors of the driver** (`driver/stm32f4/fd_mc3p.c`: `fd_mc3p_write_svm`).

The command of the α and β axes is turned into three phase values, whose signs are the sector. The
middle of the largest and the least of them is taken from all three, and half of the range added:
that leaves the line voltages and centres the duties.

* `writeSvm_selects_iff` — the call ends in the sector of the signs, and the next scan updates the
  currents, unless both axes are zero: then all three phases are zero, and the sector is the
  floating one;
* `writeSvm_injects` — the words of the code are the integers they stand for, the differences of the
  phases stay, and the duties are centred and inside the range as long as the spread allows.
-/

import Mathlib.Algebra.Order.Group.Unbundled.Int
import ForgeDrive.Library.FixedPoint
import ForgeDrive.Mc3p.SyncChannels

namespace ForgeDrive.Mc3p

open ForgeDrive.FixedPoint

/-! ### The sector -/

/-- The signs of the three phases a sector is for. -/
def Sector.signs : Sector → Option (Bool × Bool × Bool)
  | .svm1 => some (true, false, false)
  | .svm2 => some (true, true, false)
  | .svm3 => some (false, true, false)
  | .svm4 => some (false, true, true)
  | .svm5 => some (false, false, true)
  | .svm6 => some (true, false, true)
  | _ => none

/-- **The call ends in the sector of the signs of its phases**, an SVM one, and the scan read next
updates the three currents. -/
structure Driver.Selects (d : Driver) (alpha beta : Int16) : Prop where
  svm : (d.writeSvm alpha beta).sectorLast.isSvm
  signs : (d.writeSvm alpha beta).sectorLast.signs =
    some (decide ((svmPhases alpha beta).1 ≥ 0), decide ((svmPhases alpha beta).2.1 ≥ 0),
      decide ((svmPhases alpha beta).2.2 ≥ 0))
  currents : ∀ analog, ((d.writeSvm alpha beta).readSync analog).2 =
    .svm ((d.writeSvm alpha beta).measure analog svmVbus)
      ((d.writeSvm alpha beta).measure analog svmCu)
      ((d.writeSvm alpha beta).measure analog svmCv)
      ((d.writeSvm alpha beta).measure analog svmCw)

/-- The sector of three values is that of their signs, where they do not agree. -/
theorem svmSector_signs {u v w : Int} (differ : ¬ (u ≥ 0 ∧ v ≥ 0 ∧ w ≥ 0))
    (differ' : ¬ (u < 0 ∧ v < 0 ∧ w < 0)) :
    (svmSector u v w).isSvm ∧
      (svmSector u v w).signs = some (decide (u ≥ 0), decide (v ≥ 0), decide (w ≥ 0)) := by
  unfold svmSector
  by_cases first : u ≥ 0 <;> by_cases second : v ≥ 0 <;> by_cases third : w ≥ 0 <;>
    simp only [first, second, third, decide_true, decide_false] <;>
    first | exact ⟨rfl, rfl⟩ | omega

/-- **All three phases have one sign at the origin only.** They nearly sum to zero: `v` and `w`
before they are shifted sum to `-32768 * u`. -/
theorem svmPhases_agree_iff (alpha beta : Int16) :
    ((svmPhases alpha beta).1 ≥ 0 ∧ (svmPhases alpha beta).2.1 ≥ 0 ∧
      (svmPhases alpha beta).2.2 ≥ 0) ↔ alpha = 0 ∧ beta = 0 := by
  simp only [svmPhases, Int.shiftRight_eq_div_pow, ← Int16.toInt_inj, Int16.toInt_zero]
  norm_num
  omega

theorem svmPhases_not_negative (alpha beta : Int16) :
    ¬ ((svmPhases alpha beta).1 < 0 ∧ (svmPhases alpha beta).2.1 < 0 ∧
      (svmPhases alpha beta).2.2 < 0) := by
  simp only [svmPhases, Int.shiftRight_eq_div_pow]
  norm_num
  omega

/-- In an SVM sector the scan is read for the currents. -/
theorem Driver.readSync_svm {d : Driver} (svm : d.sectorLast.isSvm) (analog : Nat → UInt16) :
    (d.readSync analog).2 = .svm (d.measure analog svmVbus) (d.measure analog svmCu)
      (d.measure analog svmCv) (d.measure analog svmCw) := by
  rw [Driver.readSync, if_pos svm]

/-- **The call ends in the sector of its signs unless both axes are zero.** -/
theorem writeSvm_selects_iff (d : Driver) (alpha beta : Int16) :
    d.Selects alpha beta ↔ ¬ (alpha = 0 ∧ beta = 0) := by
  have sector := (d.writeSvm_frame alpha beta).2.2
  constructor
  · rintro selects ⟨rfl, rfl⟩
    have svm := selects.svm
    rw [sector] at svm
    exact absurd svm (by decide)
  · intro moved
    obtain ⟨svm, signs⟩ := svmSector_signs (mt (svmPhases_agree_iff alpha beta).mp moved)
      (svmPhases_not_negative alpha beta)
    rw [← sector] at svm signs
    exact ⟨svm, signs, Driver.readSync_svm svm⟩

/-- **At the origin** the bridge is told to switch and the sector is the floating one. -/
theorem not_selects : ¬ ∀ (d : Driver) (alpha beta : Int16), d.Selects alpha beta := by
  intro selects
  exact absurd (selects (Driver.init .zero) 0 0).svm (by decide)

/-! ### The injection, in words -/

/-- The values of the three phases, `dutyu_q15`, `dutyv_q15` and `dutyw_q15`. -/
structure Phases where
  u : Int32
  v : Int32
  w : Int32

/-- αβ → phase. -/
def Phases.of (alpha beta : Int16) : Phases where
  u := alpha.toInt32
  v := ((-16384 : Int32) * alpha.toInt32 + (28378 : Int32) * beta.toInt32) >>> (15 : Int32)
  w := ((-16384 : Int32) * alpha.toInt32 - (28378 : Int32) * beta.toInt32) >>> (15 : Int32)

def Phases.vmax (p : Phases) : Int32 :=
  let vmax := p.u
  let vmax := if p.v > vmax then p.v else vmax
  if p.w > vmax then p.w else vmax

def Phases.vmin (p : Phases) : Int32 :=
  let vmin := p.u
  let vmin := if p.v < vmin then p.v else vmin
  if p.w < vmin then p.w else vmin

def Phases.voff (p : Phases) : Int32 := (p.vmax + p.vmin) >>> (1 : Int32)

/-- The zero sequence injection. -/
def Phases.inject (p : Phases) : Phases where
  u := (p.u - p.voff) + 16384
  v := (p.v - p.voff) + 16384
  w := (p.w - p.voff) + 16384

/-- The three values, as integers. -/
def Phases.toInts (p : Phases) : Int × Int × Int := (p.u.toInt, p.v.toInt, p.w.toInt)

/-- An integer that is a word of 32 bits. -/
def FitsWord (value : Int) : Prop := -2 ^ 31 ≤ value ∧ value < 2 ^ 31

/-- The products and sums before the phases, without overflow. -/
def clarkeIntermediates (alpha beta : Int) : List Int :=
  [-16384 * alpha, 28378 * beta, -16384 * alpha + 28378 * beta, -16384 * alpha - 28378 * beta]

/-- The middle of three values, rounded down. -/
def middle (u v w : Int) : Int := (max (max u v) w + min (min u v) w) / 2

/-- The sums and differences of the injection, without overflow. -/
def injectIntermediates (u v w : Int) : List Int :=
  [max (max u v) w + min (min u v) w, u - middle u v w, v - middle u v w, w - middle u v w,
    u - middle u v w + 16384, v - middle u v w + 16384, w - middle u v w + 16384]

/-- **The injection does what it is for**: nothing overflows on the way, the words are the integers
they stand for, the differences stay, the duties are centred, inside the range if the spread allows
that, and what is compensated and written. -/
structure Driver.Injects (d : Driver) (alpha beta : Int16) : Prop where
  fits : ∀ value ∈ clarkeIntermediates alpha.toInt beta.toInt ++
    injectIntermediates (Phases.of alpha beta).u.toInt (Phases.of alpha beta).v.toInt
      (Phases.of alpha beta).w.toInt, FitsWord value
  phases : (Phases.of alpha beta).toInts = svmPhases alpha beta
  differences :
    (Phases.of alpha beta).inject.u.toInt - (Phases.of alpha beta).inject.v.toInt =
        (Phases.of alpha beta).u.toInt - (Phases.of alpha beta).v.toInt ∧
      (Phases.of alpha beta).inject.v.toInt - (Phases.of alpha beta).inject.w.toInt =
        (Phases.of alpha beta).v.toInt - (Phases.of alpha beta).w.toInt ∧
      (Phases.of alpha beta).inject.w.toInt - (Phases.of alpha beta).inject.u.toInt =
        (Phases.of alpha beta).w.toInt - (Phases.of alpha beta).u.toInt
  centred :
    (Phases.of alpha beta).inject.vmax.toInt + (Phases.of alpha beta).inject.vmin.toInt = 32768 ∨
      (Phases.of alpha beta).inject.vmax.toInt + (Phases.of alpha beta).inject.vmin.toInt = 32769
  inside : (Phases.of alpha beta).vmax.toInt - (Phases.of alpha beta).vmin.toInt ≤ 32766 →
    ∀ duty ∈ [(Phases.of alpha beta).inject.u, (Phases.of alpha beta).inject.v,
      (Phases.of alpha beta).inject.w],
      0 ≤ duty.toInt ∧ duty.toInt ≤ 32767 ∧ (ssat16 duty.toInt).toInt = duty.toInt
  compensated : ∀ duty ∈ [(Phases.of alpha beta).inject.u, (Phases.of alpha beta).inject.v,
    (Phases.of alpha beta).inject.w],
    FitsWord (duty.toInt + d.dtcComp.toNat) ∧ FitsWord (duty.toInt - d.dtcComp.toNat)
  duties :
    (d.writeSvm alpha beta).dutyU =
        d.compensate (Phases.of alpha beta).inject.u.toInt ((1 : UInt8) <<< 0) ∧
      (d.writeSvm alpha beta).dutyV =
        d.compensate (Phases.of alpha beta).inject.v.toInt ((1 : UInt8) <<< 1) ∧
      (d.writeSvm alpha beta).dutyW =
        d.compensate (Phases.of alpha beta).inject.w.toInt ((1 : UInt8) <<< 2)

/-! ### The words as integers -/

theorem int16_bounds (x : Int16) : -32768 ≤ x.toInt ∧ x.toInt ≤ 32767 :=
  ⟨x.le_toInt, Int.le_of_lt_add_one x.toInt_lt⟩

/-- The products and sums of the phases fit. -/
theorem clarkeIntermediates_fit (alpha beta : Int16) :
    ∀ value ∈ clarkeIntermediates alpha.toInt beta.toInt, FitsWord value := by
  obtain ⟨lowAlpha, highAlpha⟩ := int16_bounds alpha
  obtain ⟨lowBeta, highBeta⟩ := int16_bounds beta
  simp only [clarkeIntermediates, List.forall_mem_cons, FitsWord]
  refine ⟨?_, ?_, ?_, ?_, nofun⟩ <;> omega

/-- **The phases are the exact ones.** -/
theorem Phases.toInts_of (alpha beta : Int16) :
    (Phases.of alpha beta).toInts = svmPhases alpha beta := by
  have fits := clarkeIntermediates_fit alpha beta
  simp only [clarkeIntermediates, List.forall_mem_cons, FitsWord] at fits
  obtain ⟨half, root, sum, difference, -⟩ := fits
  have alphaWord : alpha.toInt32.toInt = alpha.toInt := Int16.toInt_toInt32 alpha
  have betaWord : beta.toInt32.toInt = beta.toInt := Int16.toInt_toInt32 beta
  have halfWord : ((-16384 : Int32) * alpha.toInt32).toInt = -16384 * alpha.toInt := by
    rw [toInt_scaled, alphaWord]
    · rfl
    · rw [alphaWord]
      exact half
  have rootWord : ((28378 : Int32) * beta.toInt32).toInt = 28378 * beta.toInt := by
    rw [toInt_scaled, betaWord]
    · rfl
    · rw [betaWord]
      exact root
  rw [← halfWord, ← rootWord] at sum difference
  refine Prod.ext alphaWord (Prod.ext ?_ ?_)
  · show (((-16384 : Int32) * alpha.toInt32 + (28378 : Int32) * beta.toInt32) >>>
      (15 : Int32)).toInt = (-16384 * alpha.toInt + 28378 * beta.toInt) >>> (15 : Nat)
    rw [toInt_shift _ _ rfl, toInt_sum32 sum, halfWord, rootWord,
      Int.shiftRight_eq_div_pow]
    rfl
  · show (((-16384 : Int32) * alpha.toInt32 - (28378 : Int32) * beta.toInt32) >>>
      (15 : Int32)).toInt = (-16384 * alpha.toInt - 28378 * beta.toInt) >>> (15 : Nat)
    rw [toInt_shift _ _ rfl, toInt_difference32 difference, halfWord, rootWord,
      Int.shiftRight_eq_div_pow]
    rfl

theorem Phases.vmax_toInt (p : Phases) :
    p.vmax.toInt = max (max p.u.toInt p.v.toInt) p.w.toInt := by
  simp only [Phases.vmax, gt_iff_lt, Int32.lt_iff_toInt_lt]
  split_ifs <;> omega

theorem Phases.vmin_toInt (p : Phases) :
    p.vmin.toInt = min (min p.u.toInt p.v.toInt) p.w.toInt := by
  simp only [Phases.vmin, Int32.lt_iff_toInt_lt]
  split_ifs <;> omega

/-- What the phases of a command are bounded by: `28378 + 16384` in units of `2⁻¹⁵`. -/
def Phases.Bounded (p : Phases) : Prop :=
  (-44762 ≤ p.u.toInt ∧ p.u.toInt ≤ 44762) ∧ (-44762 ≤ p.v.toInt ∧ p.v.toInt ≤ 44762) ∧
    (-44762 ≤ p.w.toInt ∧ p.w.toInt ≤ 44762)

theorem Phases.bounded_of (alpha beta : Int16) : (Phases.of alpha beta).Bounded := by
  obtain ⟨lowAlpha, highAlpha⟩ := int16_bounds alpha
  obtain ⟨lowBeta, highBeta⟩ := int16_bounds beta
  have words := Phases.toInts_of alpha beta
  simp only [Phases.toInts, svmPhases, Int.shiftRight_eq_div_pow, Prod.mk.injEq] at words
  obtain ⟨u, v, w⟩ := words
  norm_num at v w
  rw [Phases.Bounded, u, v, w]
  omega

namespace Phases.Bounded

variable {p : Phases}

/-- The middle of the phases is the exact one. -/
theorem voff (bounded : p.Bounded) :
    p.voff.toInt = middle p.u.toInt p.v.toInt p.w.toInt := by
  obtain ⟨⟨lowU, highU⟩, ⟨lowV, highV⟩, ⟨lowW, highW⟩⟩ := bounded
  have fits : -2 ^ 31 ≤ p.vmax.toInt + p.vmin.toInt ∧ p.vmax.toInt + p.vmin.toInt < 2 ^ 31 := by
    rw [p.vmax_toInt, p.vmin_toInt]
    omega
  rw [Phases.voff, toInt_shift _ _ (n := 1) rfl, toInt_sum32 fits, p.vmax_toInt, p.vmin_toInt]
  rfl

/-- The middle lies between the bounds of the phases. -/
theorem middle_bounds (bounded : p.Bounded) :
    -44762 ≤ middle p.u.toInt p.v.toInt p.w.toInt ∧ middle p.u.toInt p.v.toInt p.w.toInt ≤ 44762 := by
  obtain ⟨⟨lowU, highU⟩, ⟨lowV, highV⟩, ⟨lowW, highW⟩⟩ := bounded
  rw [middle]
  omega

/-- One phase after the injection. -/
theorem shifted (bounded : p.Bounded) {x : Int32} (phase : -44762 ≤ x.toInt ∧ x.toInt ≤ 44762) :
    ((x - p.voff) + 16384).toInt = x.toInt - middle p.u.toInt p.v.toInt p.w.toInt + 16384 := by
  have offset := bounded.voff
  obtain ⟨low, high⟩ := bounded.middle_bounds
  have difference : (x - p.voff).toInt = x.toInt - middle p.u.toInt p.v.toInt p.w.toInt := by
    rw [toInt_difference32, offset]
    rw [offset]
    omega
  have half : (16384 : Int32).toInt = 16384 := rfl
  rw [toInt_sum32, difference, half]
  rw [difference, half]
  omega

/-- The three phases after the injection. -/
theorem inject (bounded : p.Bounded) :
    p.inject.u.toInt = p.u.toInt - middle p.u.toInt p.v.toInt p.w.toInt + 16384 ∧
      p.inject.v.toInt = p.v.toInt - middle p.u.toInt p.v.toInt p.w.toInt + 16384 ∧
      p.inject.w.toInt = p.w.toInt - middle p.u.toInt p.v.toInt p.w.toInt + 16384 :=
  ⟨bounded.shifted bounded.1, bounded.shifted bounded.2.1, bounded.shifted bounded.2.2⟩

/-- The sums and differences of the injection fit. -/
theorem fits (bounded : p.Bounded) :
    ∀ value ∈ injectIntermediates p.u.toInt p.v.toInt p.w.toInt, FitsWord value := by
  obtain ⟨lowMiddle, highMiddle⟩ := bounded.middle_bounds
  obtain ⟨⟨lowU, highU⟩, ⟨lowV, highV⟩, ⟨lowW, highW⟩⟩ := bounded
  simp only [injectIntermediates, List.forall_mem_cons, FitsWord]
  refine ⟨?_, ?_, ?_, ?_, ?_, ?_, ?_, nofun⟩ <;> omega

/-- **The duties are centred**: the odd unit is lost to the rounding of the middle. -/
theorem centred (bounded : p.Bounded) :
    p.inject.vmax.toInt + p.inject.vmin.toInt = 32768 ∨
      p.inject.vmax.toInt + p.inject.vmin.toInt = 32769 := by
  obtain ⟨u, v, w⟩ := bounded.inject
  rw [Phases.vmax_toInt, Phases.vmin_toInt, u, v, w, middle]
  omega

/-- **The duties are inside the range** if the spread is less than the range. -/
theorem inside (bounded : p.Bounded) (spread : p.vmax.toInt - p.vmin.toInt ≤ 32766) :
    ∀ duty ∈ [p.inject.u, p.inject.v, p.inject.w], 0 ≤ duty.toInt ∧ duty.toInt ≤ 32767 := by
  obtain ⟨u, v, w⟩ := bounded.inject
  rw [Phases.vmax_toInt, Phases.vmin_toInt] at spread
  simp only [List.forall_mem_cons]
  rw [u, v, w, middle]
  refine ⟨?_, ?_, ?_, nofun⟩ <;> omega

/-- Adding or taking off a compensation fits. -/
theorem compensated (bounded : p.Bounded) (comp : UInt16) :
    ∀ duty ∈ [p.inject.u, p.inject.v, p.inject.w],
      FitsWord (duty.toInt + comp.toNat) ∧ FitsWord (duty.toInt - comp.toNat) := by
  have small : comp.toNat < 65536 := comp.toNat_lt
  obtain ⟨lowMiddle, highMiddle⟩ := bounded.middle_bounds
  obtain ⟨u, v, w⟩ := bounded.inject
  obtain ⟨⟨lowU, highU⟩, ⟨lowV, highV⟩, ⟨lowW, highW⟩⟩ := bounded
  simp only [List.forall_mem_cons, FitsWord]
  rw [u, v, w]
  refine ⟨?_, ?_, ?_, nofun⟩ <;> omega

end Phases.Bounded

/-- A value inside the range is not changed by the saturation. -/
theorem ssat16_inside {value : Int} (inside : 0 ≤ value ∧ value ≤ 32767) :
    (ssat16 value).toInt = value := by
  have clamped : max (-32768) (min 32767 value) = value := by omega
  rw [ssat16, clamped]
  exact Int16.toInt_ofInt_of_le (by norm_num; omega) (by norm_num; omega)

/-- The duties of a space vector, before they are centred, as the driver was before. -/
theorem Driver.writeSvm_compensates (d : Driver) (alpha beta : Int16) {u v w : Int}
    (phases : svmPhases alpha beta = (u, v, w)) :
    (d.writeSvm alpha beta).dutyU = d.compensate (u - middle u v w + 16384) ((1 : UInt8) <<< 0) ∧
      (d.writeSvm alpha beta).dutyV = d.compensate (v - middle u v w + 16384) ((1 : UInt8) <<< 1) ∧
      (d.writeSvm alpha beta).dutyW =
        d.compensate (w - middle u v w + 16384) ((1 : UInt8) <<< 2) := by
  have kept (duty : Int) (bit : UInt8) : (if d.sectorLast.isSvm then d
      else { d.writePhaseState .comp .comp .comp with mode := .svm }).compensate duty bit =
        d.compensate duty bit := by
    split_ifs
    · rfl
    · rfl
  have offset : (max (max u v) w + min (min u v) w) >>> (1 : Nat) = middle u v w := by
    rw [Int.shiftRight_eq_div_pow]
    rfl
  rw [Driver.writeSvm, phases, ← offset, ← kept, ← kept, ← kept]
  exact ⟨rfl, rfl, rfl⟩

/-- The duties of a space vector are those of the injection, compensated. -/
theorem Driver.writeSvm_duties (d : Driver) (alpha beta : Int16) :
    (d.writeSvm alpha beta).dutyU =
        d.compensate (Phases.of alpha beta).inject.u.toInt ((1 : UInt8) <<< 0) ∧
      (d.writeSvm alpha beta).dutyV =
        d.compensate (Phases.of alpha beta).inject.v.toInt ((1 : UInt8) <<< 1) ∧
      (d.writeSvm alpha beta).dutyW =
        d.compensate (Phases.of alpha beta).inject.w.toInt ((1 : UInt8) <<< 2) := by
  obtain ⟨u, v, w⟩ := (Phases.bounded_of alpha beta).inject
  rw [u, v, w]
  exact d.writeSvm_compensates alpha beta (Phases.toInts_of alpha beta).symm

/-- **The injection keeps the line voltages and centres the duties**, for every command. -/
theorem writeSvm_injects (d : Driver) (alpha beta : Int16) : d.Injects alpha beta := by
  have bounded := Phases.bounded_of alpha beta
  obtain ⟨u, v, w⟩ := bounded.inject
  constructor
  · intro value member
    rcases List.mem_append.mp member with clarke | inject
    · exact clarkeIntermediates_fit alpha beta value clarke
    · exact bounded.fits value inject
  · exact Phases.toInts_of alpha beta
  · rw [u, v, w]
    refine ⟨?_, ?_, ?_⟩ <;> omega
  · exact bounded.centred
  · intro spread duty member
    have inside := bounded.inside spread duty member
    exact ⟨inside.1, inside.2, ssat16_inside inside⟩
  · exact bounded.compensated d.dtcComp
  · exact d.writeSvm_duties alpha beta

end ForgeDrive.Mc3p
