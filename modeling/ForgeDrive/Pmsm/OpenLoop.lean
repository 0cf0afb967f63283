/-
**What the motor is driven with.**

`Foc_xmcLoop` has a cascade of controllers for position, speed and torque, and `Foc_pwmLoop` two for
the currents. They act in `RunMode::ClosedLoop` and with `ElecMode::Current`, and nothing in the
firmware sets either: whatever gains are configured and whatever is requested, no controller is ever
given an error, and the rotor frame stands still.

* `armPid_of_noErrors` — a controller that never had an error gives what it holds;
* `pwmLoop_voltage` — so the current loop passes the set points through, up to the clamp;
* `Controller.OpenLoop.step` — what each step keeps;
* `Controller.divisors_ne_zero_iff` — a PWM interrupt that drives the motor divides by zero only if
  the bus is measured as zero, or next to it;
* `open_loop` — in every run the bridge is written with the clamped set points at the angle zero, by
  every interrupt that drives the motor and does not divide by zero.
-/

import ForgeDrive.Pmsm.Identification

namespace ForgeDrive.Pmsm

open Foc (Pid Mechanics clamp vbusLim armPid armInvPark)

variable {Number : Type}

/-! ### The current loop without errors -/

/-- The controller was given no error in its last two steps. -/
def NoErrors (s : Pid) : Prop := s.state0 = 0 ∧ s.state1 = 0

/-- **A controller without errors gives what it holds**, whatever its gains are. -/
theorem armPid_of_noErrors {s : Pid} (none : NoErrors s) : armPid s 0 = (s, s.state2) := by
  obtain ⟨a0, a1, a2, state0, state1, state2⟩ := s
  obtain ⟨rfl, rfl⟩ := none
  have sum : (a0.toInt64 * (0 : Int32).toInt64 + a1.toInt64 * (0 : Int32).toInt64 +
      a2.toInt64 * (0 : Int32).toInt64) >>> 31 = 0 := by
    rw [show (0 : Int32).toInt64 = 0 from rfl, Int64.mul_zero, Int64.mul_zero, Int64.mul_zero]
    rfl
  simp only [armPid, sum]
  rw [show (0 : Int64).toInt32 = 0 from rfl, Int32.zero_add]

/-- The duties of a voltage vector in the frame of the stator. -/
def duties (sinCos : Int32 → Int32 × Int32) (eTheta vbus vd vq : Int32) : Int16 × Int16 :=
  let v := armInvPark vd vq (sinCos eTheta).1 (sinCos eTheta).2
  ((v.1 / (vbus >>> 15)).toInt16, (v.2 / (vbus >>> 15)).toInt16)

section Loop

variable {sinCos : Int32 → Int32 × Int32} {s : Foc.State}

/-- Without current control the set points are the voltages. -/
theorem regulate_voltage (voltage : s.elecMode = .voltage) (noId : NoErrors s.idPid)
    (noIq : NoErrors s.iqPid) :
    s.regulate = { s with
      idPid := { s.idPid with state2 := s.ecdSp }, vd := s.ecdSp
      iqPid := { s.iqPid with state2 := s.ecqSp }, vq := s.ecqSp } := by
  have held (p : Pid) (held : Int32) (none : NoErrors p) :
      armPid { p with state2 := held } 0 = ({ p with state2 := held }, held) :=
    armPid_of_noErrors (s := { p with state2 := held }) none
  simp only [Foc.State.regulate, voltage]
  rw [show (0 : Int32) >>> 2 = 0 from rfl, held _ _ noId, held _ _ noIq]

/-- The clamp gives a controller a value to hold, and no error. -/
theorem limit_noErrors (noId : NoErrors s.idPid) (noIq : NoErrors s.iqPid) :
    NoErrors s.limit.1.idPid ∧ NoErrors s.limit.1.iqPid ∧
      (s.limit.1.vd, s.limit.1.vq) = clamp s.vd s.vq s.lim ∧
      s.limit.1.eTheta = s.eTheta ∧ s.limit.1.vbus = s.vbus ∧ s.limit.1.mc3p = s.mc3p := by
  unfold Foc.State.limit
  dsimp only
  split_ifs with beyond
  · exact ⟨noId, noIq, rfl, rfl, rfl, rfl⟩
  · refine ⟨noId, noIq, ?_, rfl, rfl, rfl⟩
    rw [clamp, if_neg beyond]

/-- The last part of the loop writes the bridge and nothing else. -/
theorem modulate_frame (s : Foc.State) : (s.modulate sinCos).1 = { s with
    mc3p := s.mc3p.writeSvm (duties sinCos s.eTheta s.vbus s.vd s.vq).1
      (duties sinCos s.eTheta s.vbus s.vd s.vq).2 } := by
  unfold Foc.State.modulate duties
  rcases sinCos s.eTheta with ⟨sin, cos⟩
  dsimp only

/-- **Without current control the loop passes the set points through**, up to the clamp. -/
theorem pwmLoop_voltage (voltage : s.elecMode = .voltage) (noId : NoErrors s.idPid)
    (noIq : NoErrors s.iqPid) {after : Foc.State} (is : (s.pwmLoop sinCos).1 = after) :
    (after.vd, after.vq) = clamp s.ecdSp s.ecqSp (vbusLim s.measVbus s.mc3p.dutyMax) ∧
      NoErrors after.idPid ∧ NoErrors after.iqPid ∧
      after.mc3p = s.mc3p.writeSvm
        (duties sinCos (s.eTheta + s.eAngvRpt) s.measVbus after.vd after.vq).1
        (duties sinCos (s.eTheta + s.eAngvRpt) s.measVbus after.vd after.vq).2 := by
  have regulated := regulate_voltage (s := (s.measure sinCos).1) voltage noId noIq
  obtain ⟨stillId, stillIq, clamped, eTheta, vbus, mc3p⟩ :=
    limit_noErrors (s := (s.measure sinCos).1.regulate)
      (by rw [regulated]; exact noId) (by rw [regulated]; exact noIq)
  have loop : (s.pwmLoop sinCos).1 = ((s.measure sinCos).1.regulate.limit.1.modulate sinCos).1 := by
    unfold Foc.State.pwmLoop
    rfl
  rw [← is, loop, modulate_frame]
  refine ⟨clamped.trans ?_, stillId, stillIq, ?_⟩
  · rw [regulated]
    rfl
  · dsimp only
    rw [eTheta, vbus, mc3p, regulated]
    rfl

end Loop

/-! ### The complete controller -/

/-- **No controller acts, and the rotor frame stands still.** -/
structure Controller.OpenLoop (c : Controller Number) : Prop where
  elecMode : c.core.elecMode = .voltage
  eTheta : c.core.eTheta = 0
  idPid : NoErrors c.idPid
  iqPid : NoErrors c.iqPid
  torqueSp : c.torqueSp = 0
  fault : c.fault = .ok

section Steps

variable {b : Board Number} {sinCos : Int32 → Int32 × Int32} {c : Controller Number}

/-- The mode drives the motor. -/
def MCMode.Drives (mode : MCMode) : Prop := mode = .foc ∨ mode = .sComm

/-- **The bridge is written with the set points**, clamped to what the bus can give, at the angle
zero. -/
structure Controller.PassesThrough (sinCos : Int32 → Int32 × Int32) (before : Mc3p.Driver)
    (after : Controller Number) : Prop where
  clamped : (after.vd, after.vq) =
    clamp after.core.ecdSp after.core.ecqSp (vbusLim after.measVbus before.dutyMax)
  written : after.mc3p.mc3p = before.writeSvm
    (duties sinCos 0 after.measVbus after.vd after.vq).1
    (duties sinCos 0 after.measVbus after.vd after.vq).2

/-- **An interrupt that drives the motor divides by what is not zero** exactly if the measured bus and
the limit have their upper bits. -/
theorem Controller.divisors_ne_zero_iff (drives : c.core.mcMode.Drives) (analog : Nat → UInt16) :
    (∀ divisor ∈ c.divisors sinCos analog, divisor ≠ 0) ↔
      (c.readSync analog).measVbus ≠ 0 ∧
        vbusLim (c.readSync analog).measVbus (c.mc3p.mc3p.readSync analog).1.dutyMax >>> 16 ≠ 0 ∧
        (c.readSync analog).measVbus >>> 15 ≠ 0 := by
  rcases drives with foc | sComm
  · simp only [Controller.divisors, foc]
    exact Foc.divisors_ne_zero_iff (c.readSync analog).current
  · simp only [Controller.divisors, sComm]
    exact Foc.divisors_ne_zero_iff _

variable (sinCos) in
/-- A `Foc_pwmLoop` of the complete controller. -/
theorem Controller.OpenLoop.focPwmLoop (open_ : c.OpenLoop) (still : c.eAngvRpt = 0) :
    (c.focPwmLoop sinCos).OpenLoop ∧
      Controller.PassesThrough sinCos c.mc3p.mc3p (c.focPwmLoop sinCos) := by
  obtain ⟨elecMode, eTheta, idPid, iqPid, torqueSp, fault⟩ := open_
  generalize loop : (c.current.pwmLoop sinCos).1 = s
  obtain ⟨clamped, noId, noIq, written⟩ := pwmLoop_voltage elecMode idPid iqPid loop
  have angle : c.current.eTheta + c.current.eAngvRpt = 0 := by
    show c.core.eTheta + c.eAngvRpt = 0
    rw [eTheta, still]
    rfl
  rw [angle] at written
  have stepped : s.eTheta = 0 := by
    rw [← loop]
    exact (pwmLoop_eTheta sinCos c.current).trans angle
  rw [Controller.focPwmLoop, loop]
  exact ⟨⟨elecMode, stepped, noId, noIq, torqueSp, fault⟩, clamped, written⟩

/-- Counting the interrupt changes nothing of it. -/
theorem Controller.PassesThrough.pTick {before : Mc3p.Driver}
    (passes : Controller.PassesThrough sinCos before c) :
    Controller.PassesThrough sinCos before c.pTick := ⟨passes.clamped, passes.written⟩

theorem Controller.OpenLoop.pTick (open_ : c.OpenLoop) : c.pTick.OpenLoop :=
  ⟨open_.elecMode, open_.eTheta, open_.idPid, open_.iqPid, open_.torqueSp, open_.fault⟩

variable (sinCos) in
/-- A PWM interrupt. -/
theorem Controller.OpenLoop.pwmLoop (open_ : c.OpenLoop) (still : c.eAngvRpt = 0)
    (analog : Nat → UInt16) :
    (c.pwmLoop sinCos analog).OpenLoop ∧ (c.core.mcMode.Drives →
      Controller.PassesThrough sinCos (c.mc3p.mc3p.readSync analog).1
        (c.pwmLoop sinCos analog)) := by
  obtain ⟨elecMode, eTheta, idPid, iqPid, torqueSp, fault⟩ := open_
  have read : (c.readSync analog).OpenLoop := ⟨elecMode, eTheta, idPid, iqPid, torqueSp, fault⟩
  unfold Controller.pwmLoop
  split
  · next mode =>
    refine ⟨⟨elecMode, eTheta, idPid, iqPid, torqueSp, fault⟩, ?_⟩
    rw [mode]
    rintro (foc | sComm) <;> contradiction
  · obtain ⟨kept, passes⟩ := read.focPwmLoop sinCos still
    exact ⟨kept.pTick, fun _ => passes.pTick⟩
  · obtain ⟨-, sameElec, -, sameTheta⟩ := scommPwmLoop_modes sinCos c.core
    have injected : Controller.OpenLoop
        { c.readSync analog with core := (c.core.scommPwmLoop sinCos).1 } :=
      ⟨sameElec.trans elecMode, sameTheta.trans eTheta, idPid, iqPid, torqueSp, fault⟩
    obtain ⟨kept, passes⟩ := injected.focPwmLoop sinCos still
    exact ⟨kept.pTick, fun _ => passes.pTick⟩
  · next none foc sComm =>
    refine ⟨read.pTick, ?_⟩
    rintro (isFoc | isSComm)
    · exact absurd isFoc foc
    · exact absurd isSComm sComm

theorem Controller.OpenLoop.xmcLoop (open_ : c.OpenLoop) (resting : c.Resting b) :
    (c.xmcLoop b).OpenLoop := by
  obtain ⟨elecMode, eTheta, idPid, iqPid, torqueSp, fault⟩ := open_
  unfold Controller.xmcLoop
  split
  · exact ⟨elecMode, eTheta, idPid, iqPid, torqueSp, fault⟩
  · have override : c.mechanics.runMode = .override := resting.runMode
    rw [Controller.focXmcLoop, xmcLoop_override override]
    exact ⟨elecMode, eTheta, idPid, iqPid, torqueSp, fault⟩
  · split_ifs <;> exact ⟨elecMode, eTheta, idPid, iqPid, torqueSp, fault⟩
  · exact ⟨elecMode, eTheta, idPid, iqPid, torqueSp, fault⟩

theorem Controller.OpenLoop.runPending (open_ : c.OpenLoop) : (c.runPending b).OpenLoop := by
  obtain ⟨elecMode, eTheta, idPid, iqPid, torqueSp, fault⟩ := open_
  unfold Controller.runPending
  split
  · exact ⟨elecMode, eTheta, idPid, iqPid, torqueSp, fault⟩
  · next block rest _ =>
    obtain ⟨-, sameElec, -, theta⟩ := runBlock_modes c.core block
    have zero : (c.core.runBlock block).1.eTheta = 0 := theta.elim id (·.trans eTheta)
    dsimp only
    split_ifs <;> exact ⟨sameElec.trans elecMode, zero, idPid, iqPid, torqueSp, fault⟩

variable [LT Number] [LE Number] [DecidableLT Number] [DecidableLE Number]

theorem Controller.OpenLoop.request (open_ : c.OpenLoop) (call : Request Number) :
    (c.request b call).1.OpenLoop := by
  have effect := request_effect b c call
  obtain ⟨elecMode, eTheta, idPid, iqPid, torqueSp, fault⟩ := open_
  generalize c.request b call = result at effect
  obtain ⟨after, err⟩ := result
  cases effect with
  | mode mode mechMode allowed =>
    obtain ⟨-, elec, theta⟩ := setControlMode_modes c.core mode
    exact ⟨elec.elim (·.trans elecMode) id, theta.trans eTheta, idPid, iqPid, torqueSp, fault⟩
  | fault => exact ⟨elecMode, eTheta, idPid, iqPid, torqueSp, rfl⟩
  | _ => exact ⟨elecMode, eTheta, idPid, iqPid, torqueSp, fault⟩

/-- **What each step keeps.** -/
theorem Controller.OpenLoop.step (open_ : c.OpenLoop) (resting : c.Resting b)
    (event : ControllerEvent Number) : (c.step b sinCos event).OpenLoop := by
  cases event with
  | pwm analog => exact (open_.pwmLoop sinCos resting.eAngvRpt analog).1
  | xmc =>
    rw [Controller.step]
    split_ifs
    · exact open_.xmcLoop resting
    · exact open_
  | block => exact open_.runPending
  | request call =>
    rw [Controller.step]
    split_ifs
    · exact open_.request call
    · exact open_

end Steps

/-! ### The runs -/

section Runs

variable [LT Number] [LE Number] [DecidableLT Number] [DecidableLE Number] {b : Board Number}
  (boot : Boot b) (sinCos : Int32 → Int32 × Int32)

theorem Boot.start_openLoop : boot.start.OpenLoop := by
  rw [boot.start_eq]
  exact ⟨rfl, rfl, ⟨rfl, rfl⟩, ⟨rfl, rfl⟩, rfl, rfl⟩

theorem Boot.reached_openLoop (events : List (ControllerEvent Number)) :
    (boot.reached sinCos events).OpenLoop := by
  have both : (boot.reached sinCos events).OpenLoop ∧ (boot.reached sinCos events).Resting b :=
    List.foldlRecOn events (Controller.step b sinCos)
      (motive := fun c => c.OpenLoop ∧ c.Resting b) ⟨boot.start_openLoop, boot.start_resting⟩
      fun _ kept event _ => ⟨kept.1.step kept.2 event, kept.2.step event⟩
  exact both.1

/-- **In every run no controller acts**, whatever gains are configured and whatever is requested: no
error of a position, a speed or a current is ever taken, the rotor frame stands still, no fault is
reported, and every PWM interrupt that drives the motor, and divides by what is not zero, writes the
clamped set points. -/
theorem open_loop (events : List (ControllerEvent Number)) :
    let c := boot.reached sinCos events
    c.core.runMode = .override ∧ c.core.elecMode = .voltage ∧ c.core.eTheta = 0 ∧
      c.torqueSp = 0 ∧ c.fault = .ok ∧ ∀ analog, c.core.mcMode.Drives →
        (∀ divisor ∈ c.divisors sinCos analog, divisor ≠ 0) →
        Controller.PassesThrough sinCos (c.mc3p.mc3p.readSync analog).1
          (c.step b sinCos (.pwm analog)) := by
  have open_ := boot.reached_openLoop sinCos events
  have resting := boot.reached_resting sinCos events
  refine ⟨resting.runMode, open_.elecMode, open_.eTheta, open_.torqueSp, open_.fault, ?_⟩
  intro analog drives _
  exact (open_.pwmLoop sinCos resting.eAngvRpt analog).2 drives

end Runs

end ForgeDrive.Pmsm
