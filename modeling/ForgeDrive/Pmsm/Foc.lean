/-
**The current loop of the field-oriented control** (`PmsmControlCore_Foc.cpp`, with the functions of
CMSIS-DSP it calls).

`Foc_pwmLoop` runs in the PWM interrupt: it transforms the currents, runs the two current controllers,
limits the voltage vector to what the bus can give, and writes the bridge. The state is what the loop
reads and writes of `PmsmControlCore`; `arm_sin_cos_q31` is a parameter. With the state a step gives
the divisors of the divisions it executes.

* `limit_toInt` — the limit of the voltage, for the duties that a configuration can set;
* `divisors_iff` — none of the divisors is zero exactly if the bus is negative, or so high that the
  limit counts;
* `divides_iff` — so under every configuration that is accepted, whatever is called behind it.
-/

import Mathlib.Tactic.NormNum
import ForgeDrive.Library.FixedPoint
import ForgeDrive.Mc3p.Limits
import ForgeDrive.Pmsm.SComm

namespace ForgeDrive.Pmsm.Foc

open Mc3p (Platform ConfigPwm ControlCall)

/-! ### The functions of the library -/

/-- `arm_pid_instance_q31`, without the gains that the others are derived from. -/
structure Pid where
  a0 : Int32
  a1 : Int32
  a2 : Int32
  state0 : Int32
  state1 : Int32
  state2 : Int32
  deriving DecidableEq, Repr

/-- `arm_pid_q31`. -/
def armPid (s : Pid) (input : Int32) : Pid × Int32 :=
  let acc := s.a0.toInt64 * input.toInt64
  let acc := acc + s.a1.toInt64 * s.state0.toInt64
  let acc := acc + s.a2.toInt64 * s.state1.toInt64
  let out := (acc >>> 31).toInt32
  let out := out + s.state2
  ({ s with state1 := s.state0, state0 := input, state2 := out }, out)

/-- `clip_q63_to_q31`. -/
def clipQ63ToQ31 (x : Int64) : Int32 :=
  if (x >>> 32).toInt32 ≠ x.toInt32 >>> 31 then (0x7FFFFFFF : Int32) ^^^ (x >>> 63).toInt32
  else x.toInt32

/-- `__QADD`. -/
def qadd (x y : Int32) : Int32 := clipQ63ToQ31 (x.toInt64 + y.toInt64)

/-- `__QSUB`. -/
def qsub (x y : Int32) : Int32 := clipQ63ToQ31 (x.toInt64 - y.toInt64)

/-- `arm_clarke_q31`. -/
def armClarke (ia ib : Int32) : Int32 × Int32 :=
  (ia, qadd ((ia.toInt64 * 0x24F34E8B) >>> 30).toInt32 ((ib.toInt64 * 0x49E69D16) >>> 30).toInt32)

/-- `arm_park_q31`. -/
def armPark (iAlpha iBeta sin cos : Int32) : Int32 × Int32 :=
  (qadd (mulShift iAlpha cos) (mulShift iBeta sin), qsub (mulShift iBeta cos) (mulShift iAlpha sin))

/-- `arm_inv_park_q31`. -/
def armInvPark (id iq sin cos : Int32) : Int32 × Int32 :=
  (qsub (mulShift id cos) (mulShift iq sin), qadd (mulShift iq cos) (mulShift id sin))

/-! ### The clamp -/

/-- `MAXA_MINB_A0`, `MAXA_MINB_A1`, `MAXA_MINB_B0` and `MAXA_MINB_B1`. -/
def maxaMinbA0 : Int32 := 2130706431
def maxaMinbA1 : Int32 := 1811939327
def maxaMinbB0 : Int32 := 402653183
def maxaMinbB1 : Int32 := 1191182335

/-- `SQRT3_Q3P12`. -/
def sqrt3Q3p12 : Int32 := 7094

/-- `mod_idx_max_q3p12`, which nothing writes. -/
def modIdxMax : Int32 := 4095

/-- One of the two weighted sums. -/
def weighted (a b max min : Int32) : Int32 :=
  ((a.toInt64 * max.toInt64 + b.toInt64 * min.toInt64) >>> 31).toInt32

/-- `maxa_minb_q31`. -/
def maxaMinb (i1 i2 : Int32) : Int32 :=
  let i1 := if i1 < 0 then -i1 else i1
  let i2 := if i2 < 0 then -i2 else i2
  let max := if i1 > i2 then i1 else i2
  let min := if i1 > i2 then i2 else i1
  let z0 := weighted maxaMinbA0 maxaMinbB0 max min
  let z1 := weighted maxaMinbA1 maxaMinbB1 max min
  if z0 > z1 then z0 else z1

/-- `vbus_lim_q31`. -/
def vbusLim (vbus : Int32) (dutyMax : UInt16) : Int32 :=
  ((vbus.toInt64 * Int64.ofNat dutyMax.toNat) >>> 15).toInt32

/-- `mod_idx_q3p12`. -/
def modIdx (vd vq lim : Int32) : Int32 := ((maxaMinb vd vq >>> 16) * sqrt3Q3p12) / (lim >>> 16)

/-- A component of the vector, scaled down. -/
def scaleDown (v idx : Int32) : Int32 := (v >>> 12) * ((modIdxMax <<< 12) / idx)

/-- The two voltages behind the clamp. -/
def clamp (vd vq lim : Int32) : Int32 × Int32 :=
  let idx := modIdx vd vq lim
  if idx > modIdxMax then (scaleDown vd idx, scaleDown vq idx) else (vd, vq)

/-! ### The loop -/

/-- What `Foc_pwmLoop` reads and writes of `PmsmControlCore`. -/
structure State where
  /-- `mc3p_sync_meas.svm`. -/
  measVbus : Int32
  measCu : Int32
  measCv : Int32
  /-- `state`. -/
  vbus : Int32
  ibus : Int32
  eTheta : Int32
  eAngvRpt : Int32
  /-- `control`. -/
  elecMode : ElecMode
  /-- `foc.state`. -/
  idPid : Pid
  iqPid : Pid
  vd : Int32
  vq : Int32
  id : Int32
  iq : Int32
  ecqSp : Int32
  ecdSp : Int32
  mc3p : Mc3p.Driver

variable (sinCos : Int32 → Int32 × Int32)

/-- The measurement: the currents in the rotor frame, and the current of the bus. -/
def State.measure (s : State) : State × List Int32 :=
  let s := { s with vbus := s.measVbus, eTheta := s.eTheta + s.eAngvRpt }
  let (sin, cos) := sinCos s.eTheta
  let (iAlpha, iBeta) := armClarke s.measCu s.measCv
  let (id, iq) := armPark iAlpha iBeta sin cos
  let temp0 := ((id.toInt64 * s.vd.toInt64 + iq.toInt64 * s.vq.toInt64) >>> 1) / s.vbus.toInt64
  ({ s with id := id, iq := iq, ibus := (temp0 * 3).toInt32 }, [s.vbus])

/-- The current controllers. Without current control the set points are their outputs. -/
def State.regulate (s : State) : State :=
  let (s, ed, eq) :=
    match s.elecMode with
    | .current => (s, s.ecdSp - s.id, s.ecqSp - s.iq)
    | .voltage =>
      ({ s with
        idPid := { s.idPid with state2 := s.ecdSp }
        iqPid := { s.iqPid with state2 := s.ecqSp } }, 0, 0)
  let (idPid, vd) := armPid s.idPid (ed >>> 2)
  let (iqPid, vq) := armPid s.iqPid (eq >>> 2)
  { s with idPid := idPid, vd := vd, iqPid := iqPid, vq := vq }

/-- The limit of the voltage now. -/
def State.lim (s : State) : Int32 := vbusLim s.vbus s.mc3p.dutyMax

/-- The clamp, which also holds the controllers where it leaves the vector. -/
def State.limit (s : State) : State × List Int32 :=
  let idx := modIdx s.vd s.vq s.lim
  let v := clamp s.vd s.vq s.lim
  if idx > modIdxMax then
    ({ s with
      vd := v.1, vq := v.2
      idPid := { s.idPid with state2 := v.1 }
      iqPid := { s.iqPid with state2 := v.2 } }, [s.lim >>> 16, idx, idx])
  else (s, [s.lim >>> 16])

/-- The duties of the vector in the frame of the stator. -/
def State.modulate (s : State) : State × List Int32 :=
  let (sin, cos) := sinCos s.eTheta
  let (vAlpha, vBeta) := armInvPark s.vd s.vq sin cos
  let dAlpha := (vAlpha / (s.vbus >>> 15)).toInt16
  let dBeta := (vBeta / (s.vbus >>> 15)).toInt16
  ({ s with mc3p := s.mc3p.writeSvm dAlpha dBeta }, [s.vbus >>> 15, s.vbus >>> 15])

/-- `Foc_pwmLoop`, with the divisors of its divisions. C leaves open what a division by zero does; the
quotient is taken to be zero, as `SDIV` of the target gives it (of the one in 64 bits, a call of the
library, only `ibus` depends). -/
def State.pwmLoop (s : State) : State × List Int32 :=
  let (s, measuring) := s.measure sinCos
  let s := s.regulate
  let (s, limiting) := s.limit
  let (s, modulating) := s.modulate sinCos
  (s, measuring ++ limiting ++ modulating)

/-! ### The divisors -/

section Divisors

variable {sinCos}

theorem toInt_ne_zero_iff {x : Int32} : x ≠ 0 ↔ x.toInt ≠ 0 :=
  not_congr Int32.toInt_inj.symm

/-- **The limit of the voltage** is the share of the bus that the largest duty takes. -/
theorem limit_toInt (vbus : Int32) {dutyMax : UInt16} (short : dutyMax.toNat ≤ 32767) :
    (vbusLim vbus dutyMax).toInt = vbus.toInt * dutyMax.toNat / 2 ^ 15 := by
  have bounds := FixedPoint.toInt_bounds vbus
  have word : (Int64.ofNat dutyMax.toNat).toInt = dutyMax.toNat :=
    Int64.toInt_ofNat_of_lt (by omega)
  have low : -(2 ^ 31 * 32767) ≤ vbus.toInt * dutyMax.toNat := by nlinarith
  have high : vbus.toInt * dutyMax.toNat ≤ 2 ^ 31 * 32767 := by nlinarith
  have product : (vbus.toInt64 * Int64.ofNat dutyMax.toNat).toInt =
      vbus.toInt * dutyMax.toNat := by
    rw [FixedPoint.toInt_scaled64, Int32.toInt_toInt64, word]
    rw [Int32.toInt_toInt64, word]
    exact ⟨by linarith, by linarith⟩
  have shifted := FixedPoint.toInt_shift64 (vbus.toInt64 * Int64.ofNat dutyMax.toNat) 15
    (n := 15) rfl
  rw [product] at shifted
  rw [vbusLim, FixedPoint.toInt_cut, shifted]
  rw [shifted]
  omega

/-- The controllers leave the bus and the driver as they are. -/
theorem regulate_unchanged (s : State) :
    s.regulate.vbus = s.vbus ∧ s.regulate.mc3p = s.mc3p := by
  unfold State.regulate
  cases s.elecMode <;> exact ⟨rfl, rfl⟩

/-- The clamp divides by the limit, and by the index only if that is above the largest. -/
theorem limit_divisors (s : State) : s.limit.1.vbus = s.vbus ∧
    ∃ indices, s.limit.2 = (s.lim >>> 16) :: indices ∧ ∀ idx ∈ indices, idx > modIdxMax := by
  unfold State.limit
  dsimp only
  by_cases above : modIdx s.vd s.vq s.lim > modIdxMax
  · rw [if_pos above]
    refine ⟨rfl, [modIdx s.vd s.vq s.lim, modIdx s.vd s.vq s.lim], rfl, ?_⟩
    intro idx member
    rcases List.mem_pair.mp member with rfl | rfl <;> exact above
  · rw [if_neg above]
    exact ⟨rfl, [], rfl, List.forall_mem_nil _⟩

/-- **The divisors that can be zero** are the bus, the limit and the bus again. -/
theorem divisors_ne_zero_iff (s : State) :
    (∀ divisor ∈ (s.pwmLoop sinCos).2, divisor ≠ 0) ↔
      s.measVbus ≠ 0 ∧ vbusLim s.measVbus s.mc3p.dutyMax >>> 16 ≠ 0 ∧ s.measVbus >>> 15 ≠ 0 := by
  have measured : (s.measure sinCos).1.vbus = s.measVbus ∧
      (s.measure sinCos).1.mc3p = s.mc3p := ⟨rfl, rfl⟩
  obtain ⟨vbus, mc3p⟩ := regulate_unchanged (s.measure sinCos).1
  rw [measured.1] at vbus
  rw [measured.2] at mc3p
  obtain ⟨kept, indices, divisors, above⟩ := limit_divisors (s.measure sinCos).1.regulate
  rw [State.lim, vbus, mc3p] at divisors
  rw [vbus] at kept
  have list : (s.pwmLoop sinCos).2 = [s.measVbus] ++
      (s.measure sinCos).1.regulate.limit.2 ++
      [(s.measure sinCos).1.regulate.limit.1.vbus >>> 15,
        (s.measure sinCos).1.regulate.limit.1.vbus >>> 15] := rfl
  have positive : ∀ idx ∈ indices, idx ≠ 0 := by
    rintro _ member rfl
    exact absurd (above 0 member) (by decide)
  rw [list, divisors, kept]
  simp only [List.forall_mem_append, List.forall_mem_cons, List.not_mem_nil, false_imp_iff,
    implies_true, and_true, and_self]
  constructor
  · rintro ⟨⟨bus, limit, -⟩, shifted⟩
    exact ⟨bus, limit, shifted⟩
  · rintro ⟨bus, limit, shifted⟩
    exact ⟨⟨bus, limit, positive⟩, shifted⟩

/-- **No divisor is zero** exactly if there is a largest duty, and the bus is negative or so high
that the limit has its upper bits. -/
theorem divisors_iff (s : State) (short : s.mc3p.dutyMax.toNat ≤ 32767) :
    (∀ divisor ∈ (s.pwmLoop sinCos).2, divisor ≠ 0) ↔
      0 < s.mc3p.dutyMax.toNat ∧
        (s.measVbus.toInt < 0 ∨ 2 ^ 31 ≤ s.measVbus.toInt * s.mc3p.dutyMax.toNat) := by
  have low : (s.measVbus >>> 15).toInt = s.measVbus.toInt / 2 ^ 15 :=
    FixedPoint.toInt_shift _ _ rfl
  have high : (vbusLim s.measVbus s.mc3p.dutyMax >>> 16).toInt =
      s.measVbus.toInt * s.mc3p.dutyMax.toNat / 2 ^ 15 / 2 ^ 16 := by
    rw [FixedPoint.toInt_shift _ _ (n := 16) rfl, limit_toInt _ short]
  rw [divisors_ne_zero_iff, toInt_ne_zero_iff, toInt_ne_zero_iff, toInt_ne_zero_iff, low, high]
  generalize s.measVbus.toInt = bus
  generalize s.mc3p.dutyMax.toNat = duty at short ⊢
  rcases Nat.eq_zero_or_pos duty with rfl | some_
  · simp
  rcases lt_or_ge bus 0 with negative | notNegative
  · have product : bus * duty < 0 := Int.mul_neg_of_neg_of_pos negative (by omega)
    omega
  · have product : 0 ≤ bus * duty := Int.mul_nonneg notNegative (by omega)
    have small : bus * duty ≤ bus * 32767 := Int.mul_le_mul_of_nonneg_left (by omega) notNegative
    omega

end Divisors

/-! ### Under an accepted configuration -/

/-- `(uint16_t)(duty * 0x7FFF)` is in q15 for every duty that `configPwm` accepts. -/
def InQ15 {Number : Type} [LinearOrder Number] (p : Platform Number) : Prop :=
  ∀ x, p.zero ≤ x → x ≤ p.maxDuty → (p.conversions.dutyQ15 x).toNat ≤ 32767

/-- **The loop does not divide by zero**, under any configuration that is accepted and whatever is
called behind it, exactly if there is a largest duty, and the bus is negative or so high that the
largest duty of it counts. -/
theorem divides_iff {Number : Type} [LinearOrder Number] {p : Platform Number} (inQ15 : InQ15 p)
    (core : Mc3p.Core Number) {cfg : ConfigPwm Number} (accepted : cfg.check p = .ok)
    (calls : List (ControlCall Number)) (s : State)
    (driver : s.mc3p = (calls.foldl (Mc3p.Core.step p) (core.configPwm p cfg).1).mc3p) :
    (∀ divisor ∈ (s.pwmLoop sinCos).2, divisor ≠ 0) ↔
      0 < s.mc3p.dutyMax.toNat ∧
        (s.measVbus.toInt < 0 ∨ 2 ^ 31 ≤ s.measVbus.toInt * s.mc3p.dutyMax.toNat) := by
  refine divisors_iff s ?_
  rw [driver]
  refine Mc3p.Core.configured_run (motive := fun d => d.dutyMax.toNat ≤ 32767)
    (fun core cfg accepted => ?_) (fun d d' same small => ?_) core accepted calls
  · obtain ⟨least, ordered, largest⟩ := ConfigPwm.check_ok accepted
    rw [Mc3p.Core.configPwm, accepted]
    exact inQ15 _ (le_trans least ordered) largest
  · rw [same.2.1]
    exact small

/-- The loop with this bus, on the board with the limits 0 and 0.95, and all else zero. -/
def started (vbus : Int32) : State where
  measVbus := vbus
  measCu := 0
  measCv := 0
  vbus := 0
  ibus := 0
  eTheta := 0
  eAngvRpt := 0
  elecMode := .current
  idPid := ⟨0, 0, 0, 0, 0, 0⟩
  iqPid := ⟨0, 0, 0, 0, 0, 0⟩
  vd := 0
  vq := 0
  id := 0
  iq := 0
  ecqSp := 0
  ecdSp := 0
  mc3p := (Mc3p.slow.configPwm Mc3p.board ⟨8000, 1000, 0, 950⟩).1.mc3p

theorem board_inQ15 : InQ15 Mc3p.board := by
  intro x _ small
  have largest : x ≤ 950 := small
  show (UInt16.ofNat (x * 32767 / 1000)).toNat ≤ 32767
  rw [UInt16.toNat_ofNat']
  have word : x * 32767 / 1000 ≤ 32767 := by omega
  exact le_trans (Nat.mod_le _ _) word

/-- Half of the range of the bus is enough. -/
theorem divides_started :
    0 < (started 1073741824).mc3p.dutyMax.toNat ∧
      ∀ divisor ∈ ((started 1073741824).pwmLoop fun _ => (0, 0)).2, divisor ≠ 0 :=
  ⟨by decide, (divides_iff (fun _ => (0, 0)) board_inQ15 Mc3p.slow
    (show ConfigPwm.check ⟨8000, 1000, 0, 950⟩ Mc3p.board = .ok by decide) []
    (started 1073741824) rfl).mpr (by decide)⟩

/-- **At power-up the bus is zero**, and so is every divisor. -/
theorem not_divides :
    ((started 0).pwmLoop fun _ => (0, 0)).2 = [0, 0, 0, 0] ∧
      ¬ ∀ divisor ∈ ((started 0).pwmLoop fun _ => (0, 0)).2, divisor ≠ 0 := by
  have zero : ((started 0).pwmLoop fun _ => (0, 0)).2 = [0, 0, 0, 0] := by decide +kernel
  refine ⟨zero, fun none_ => none_ 0 ?_ rfl⟩
  rw [zero]
  exact List.mem_cons_self

end ForgeDrive.Pmsm.Foc
