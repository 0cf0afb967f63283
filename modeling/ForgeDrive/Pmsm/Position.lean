/-
**The error of the position** (`PmsmControlCore_Foc.cpp`: `Foc_xmcLoop`; `cmsis_gcc.h`: `__SSAT`).

`Foc_xmcLoop` runs in the control tick: it reads the position, and runs the controllers of position
and speed in a cascade. The error of the position is a difference of 64 bits that is to be
saturated to 32; but the macro takes its argument as a word of 32 bits, and saturates that.

* `narrow_eq_iff` — when the narrowed difference is the saturated one;
* `error_saturates_iff` — so for what the controller of the position is given;
* `not_error_saturates` — one turn ahead, the controller is told that it is one turn behind.
-/

import ForgeDrive.Pmsm.Foc

namespace ForgeDrive.Pmsm.Foc

/-! ### The loop -/

/-- The instruction `ssat`, on a register. -/
def ssat (value : Int32) (bits : Nat) : Int32 :=
  Int32.ofInt (max (-2 ^ (bits - 1)) (min (2 ^ (bits - 1) - 1) value.toInt))

/-- The macro `__SSAT` of an argument of 64 bits. -/
def ssatMacro (arg : Int64) (bits : Nat) : Int32 := ssat arg.toInt32 bits

/-- `MechMode`. -/
inductive MechMode
  | skip
  | torque
  | speed
  | position
  | openSpeed
  deriving DecidableEq, Repr

/-- What `Foc_xmcLoop` reads and writes of `PmsmControlCore`. -/
structure Mechanics where
  /-- `state`. -/
  mechTheta : Int64
  mechThetaSp : Int64
  mechAngv : Int32
  mechAngvSp : Int32
  torqueSp : Int32
  eAngvRpt : Int32
  /-- `control`. -/
  runMode : RunMode
  mechMode : MechMode
  mptaActive : Bool
  positionPid : Pid
  speedPid : Pid
  /-- `foc.state`. -/
  ecdSp : Int32
  ecqSp : Int32

namespace Mechanics

/-- The position and the speed. -/
def measure (s : Mechanics) (theta : Int64) : Mechanics :=
  { s with mechAngv := ((theta - s.mechTheta) >>> 7).toInt32, mechTheta := theta }

/-- The controller of the position. Without position control its output is the set point there
is. -/
def position (s : Mechanics) : Mechanics :=
  let (s, ep) :=
    match s.mechMode with
    | .position => (s, ssatMacro (s.mechThetaSp - s.mechTheta) 32)
    | _ => ({ s with positionPid := { s.positionPid with state2 := s.mechAngvSp } }, 0)
  let (positionPid, angv) := armPid s.positionPid ep
  { s with positionPid := positionPid, mechAngvSp := angv }

/-- The controller of the speed. -/
def speed (s : Mechanics) : Mechanics :=
  let (s, es) :=
    match s.mechMode with
    | .position | .speed => (s, s.mechAngvSp - s.mechAngv)
    | _ => ({ s with speedPid := { s.speedPid with state2 := s.torqueSp } }, 0)
  let (speedPid, torque) := armPid s.speedPid es
  { s with speedPid := speedPid, torqueSp := torque }

/-- The set points of the currents. -/
def currents (s : Mechanics) : Mechanics :=
  if s.mptaActive then { s with ecdSp := 0, ecqSp := s.torqueSp }
  else { s with ecdSp := 0, ecqSp := s.torqueSp }

/-- `Foc_xmcLoop`, with the angle of the position sensor, and the electrical speed that it computes
in floating point. -/
def xmcLoop (s : Mechanics) (theta : Int64) (eAngvRpt : Int32) : Mechanics :=
  let s := s.measure theta
  let s :=
    match s.runMode with
    | .closedLoop => s.position.speed.currents
    | .override => s
  { s with eAngvRpt := eAngvRpt }

end Mechanics

/-! ### What the controller is to be given -/

/-- A difference saturated to 32 bits. -/
def saturated (difference : Int) : Int := max (-2 ^ 31) (min (2 ^ 31 - 1) difference)

/-- **The controller of the position is given the saturated difference**, and so one of the same
sign. -/
structure Mechanics.Saturates (s : Mechanics) (theta : Int64) (eAngvRpt : Int32) : Prop where
  passed : (s.xmcLoop theta eAngvRpt).positionPid.state0.toInt =
    saturated (s.mechThetaSp.toInt - theta.toInt)
  sign : (s.xmcLoop theta eAngvRpt).positionPid.state0.toInt.sign =
    (s.mechThetaSp.toInt - theta.toInt).sign

/-- The difference fits in 32 bits, or its lower 32 bits are by chance those of the limit. -/
def Spared (difference : Int) : Prop :=
  (-2 ^ 31 ≤ difference ∧ difference < 2 ^ 31) ∨
    (2 ^ 31 ≤ difference ∧ difference % 2 ^ 32 = 2 ^ 31 - 1) ∨
    (difference < -2 ^ 31 ∧ difference % 2 ^ 32 = 2 ^ 31)

/-- Saturating a word to its own width does nothing. -/
theorem ssat_full (value : Int32) : ssat value 32 = value := by
  obtain ⟨low, high⟩ := FixedPoint.toInt_bounds value
  have inside : max (-2 ^ (32 - 1)) (min (2 ^ (32 - 1) - 1) value.toInt) = value.toInt := by
    norm_num at low high ⊢
    omega
  rw [ssat, inside, Int32.ofInt_toInt]

theorem saturated_sign (difference : Int) : (saturated difference).sign = difference.sign := by
  unfold saturated
  rcases lt_trichotomy difference 0 with negative | rfl | positive
  · rw [Int.sign_eq_neg_one_of_neg negative, Int.sign_eq_neg_one_of_neg]
    omega
  · rfl
  · rw [Int.sign_eq_one_of_pos positive, Int.sign_eq_one_of_pos]
    omega

theorem saturated_le {difference larger : Int} (le : difference ≤ larger) :
    saturated difference ≤ saturated larger :=
  max_le_max (Int.le_refl _) (min_le_min (Int.le_refl _) le)

/-- **The lower 32 bits are the saturated value**: where there is nothing to saturate, and at one
difference in `2 ^ 32` elsewhere. -/
theorem narrow_eq_iff (difference : Int) :
    difference.bmod (2 ^ 32) = saturated difference ↔ Spared difference := by
  unfold saturated Spared
  rw [Int.bmod_def]
  norm_num
  split_ifs <;> omega

/-! ### What it is given -/

section Loop

variable {s : Mechanics} {theta : Int64}

/-- The controllers of the speed and of the currents leave that of the position. -/
theorem Mechanics.positionPid_unchanged (s : Mechanics) :
    s.speed.currents.positionPid = s.positionPid := by
  unfold Mechanics.currents Mechanics.speed
  split_ifs <;> cases s.mechMode <;> rfl

/-- **In closed loop position control** the error is the narrowed difference. -/
theorem Mechanics.passed_eq (closed : s.runMode = .closedLoop) (position : s.mechMode = .position)
    (theta : Int64) (eAngvRpt : Int32) :
    (s.xmcLoop theta eAngvRpt).positionPid.state0 = (s.mechThetaSp - theta).toInt32 := by
  have loop : (s.xmcLoop theta eAngvRpt).positionPid =
      (s.measure theta).position.positionPid := by
    have mode : (s.measure theta).runMode = .closedLoop := closed
    simp only [Mechanics.xmcLoop, mode, Mechanics.positionPid_unchanged]
  have error : (s.measure theta).position.positionPid.state0 =
      ssatMacro (s.mechThetaSp - theta) 32 := by
    have mode : (s.measure theta).mechMode = .position := position
    simp only [Mechanics.position, mode]
    rfl
  rw [loop, error, ssatMacro, ssat_full]

/-- A difference that fits in 64 bits, narrowed. -/
theorem narrowed_toInt {setpoint : Int64}
    (fits : -2 ^ 63 ≤ setpoint.toInt - theta.toInt ∧ setpoint.toInt - theta.toInt < 2 ^ 63) :
    (setpoint - theta).toInt32.toInt = (setpoint.toInt - theta.toInt).bmod (2 ^ 32) := by
  have difference : (setpoint - theta).toInt = setpoint.toInt - theta.toInt := by
    rw [Int64.toInt_sub]
    exact Int.bmod_eq_of_le (by norm_num at fits ⊢; omega) (by norm_num at fits ⊢; omega)
  rw [Int64.toInt_toInt32, difference]

/-- **The controller of the position is given the saturated difference exactly if that has nothing
to saturate**, or by chance. -/
theorem error_saturates_iff (closed : s.runMode = .closedLoop) (position : s.mechMode = .position)
    (fits : -2 ^ 63 ≤ s.mechThetaSp.toInt - theta.toInt ∧
      s.mechThetaSp.toInt - theta.toInt < 2 ^ 63) (eAngvRpt : Int32) :
    s.Saturates theta eAngvRpt ↔ Spared (s.mechThetaSp.toInt - theta.toInt) := by
  have passed : (s.xmcLoop theta eAngvRpt).positionPid.state0.toInt =
      (s.mechThetaSp.toInt - theta.toInt).bmod (2 ^ 32) := by
    rw [Mechanics.passed_eq closed position, narrowed_toInt fits]
  rw [← narrow_eq_iff]
  constructor
  · intro saturates
    exact passed.symm.trans saturates.passed
  · intro same
    refine ⟨passed.trans same, ?_⟩
    rw [passed, same, saturated_sign]

/-- Where it is, a larger difference gives no smaller error. -/
theorem passed_mono {other : Mechanics} {otherTheta : Int64} {eAngvRpt : Int32}
    (saturates : s.Saturates theta eAngvRpt) (otherwise : other.Saturates otherTheta eAngvRpt)
    (le : s.mechThetaSp.toInt - theta.toInt ≤ other.mechThetaSp.toInt - otherTheta.toInt) :
    (s.xmcLoop theta eAngvRpt).positionPid.state0.toInt ≤
      (other.xmcLoop otherTheta eAngvRpt).positionPid.state0.toInt := by
  rw [saturates.passed, otherwise.passed]
  exact saturated_le le

end Loop

/-! ### A turn ahead -/

/-- A motor at rest in position control. -/
def Mechanics.holding (setpoint : Int64) : Mechanics where
  mechTheta := 0
  mechThetaSp := setpoint
  mechAngv := 0
  mechAngvSp := 0
  torqueSp := 0
  eAngvRpt := 0
  runMode := .closedLoop
  mechMode := .position
  mptaActive := false
  positionPid := ⟨1, 0, 0, 0, 0, 0⟩
  speedPid := ⟨1, 0, 0, 0, 0, 0⟩
  ecdSp := 0
  ecqSp := 0

/-- **A set point one turn ahead** drives the motor backwards. -/
theorem not_error_saturates : ¬ ∀ (s : Mechanics) (theta : Int64) (eAngvRpt : Int32),
    s.runMode = .closedLoop → s.mechMode = .position →
    -2 ^ 63 ≤ s.mechThetaSp.toInt - theta.toInt ∧ s.mechThetaSp.toInt - theta.toInt < 2 ^ 63 →
    s.Saturates theta eAngvRpt := by
  intro saturates
  have sign := (saturates (.holding 2147483648) 0 0 rfl rfl (by decide)).sign
  exact absurd sign (by decide)

/-- Within a turn it is driven forwards. -/
theorem error_saturates_near : (Mechanics.holding 1000000).Saturates 0 0 :=
  (error_saturates_iff rfl rfl (by decide) 0).mpr (Or.inl (by decide))

end ForgeDrive.Pmsm.Foc
