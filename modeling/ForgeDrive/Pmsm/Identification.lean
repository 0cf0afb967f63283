/-
**The identification in the complete controller.**

The model of self-commissioning takes the currents that `Foc_pwmLoop` leaves behind as inputs. In the
complete controller they are computed, from what the channels read, by way of the driver and the
current loop; and the angle of the rotor frame, which the identification holds at zero, is stepped by
the electrical speed. No function sets that speed to anything but zero.

* `Controller.Resting.step` — the electrical speed stays at rest, and nothing controls the position;
* `Controller.Resting.step_refines` — so a step of the object is one of the identification;
* `controller_refines` — every run of the complete controller is a run of the model of the
  identification, preempted as it is there.
-/

import ForgeDrive.Pmsm.Controller

namespace ForgeDrive.Pmsm

open Foc (Mechanics)
open Mc3p (ConfigPwm Platform)

variable {Number : Type}

/-! ### What the loops leave -/

section Frames

variable (sinCos : Int32 → Int32 × Int32) (c : Controller Number)

/-- The current loop steps the angle. -/
theorem pwmLoop_eTheta (s : Foc.State) :
    (s.pwmLoop sinCos).1.eTheta = s.eTheta + s.eAngvRpt := by
  have regulated (s : Foc.State) : s.regulate.eTheta = s.eTheta := by
    unfold Foc.State.regulate
    cases s.elecMode <;> rfl
  have limited (s : Foc.State) : s.limit.1.eTheta = s.eTheta := by
    unfold Foc.State.limit
    dsimp only
    split <;> rfl
  show (s.measure sinCos).1.regulate.limit.1.eTheta = _
  rw [limited, regulated]
  rfl

theorem Controller.focPwmLoop_core : (c.focPwmLoop sinCos).core =
    { c.core with
      eTheta := c.core.eTheta + c.eAngvRpt
      focId := (c.focPwmLoop sinCos).core.focId
      focIq := (c.focPwmLoop sinCos).core.focIq } := by
  show { c.core with
    eTheta := (c.current.pwmLoop sinCos).1.eTheta
    focId := (c.focPwmLoop sinCos).core.focId
    focIq := (c.focPwmLoop sinCos).core.focIq } = _
  rw [pwmLoop_eTheta]
  rfl

/-- **The PWM loop does to the identification what its model says**, with the electrical speed at
rest. -/
theorem Controller.pwmLoop_core (still : c.eAngvRpt = 0) (analog : Nat → UInt16) :
    (c.pwmLoop sinCos analog).core = (c.core.pwmLoop sinCos
      (c.pwmLoop sinCos analog).core.focId (c.pwmLoop sinCos analog).core.focIq).1 := by
  have loop (c : Controller Number) (still : c.eAngvRpt = 0) :
      (c.focPwmLoop sinCos).pTick.core = { c.core with
        focId := (c.focPwmLoop sinCos).core.focId
        focIq := (c.focPwmLoop sinCos).core.focIq
        pTicks := c.core.pTicks + 1 } := by
    rw [Controller.pTick, focPwmLoop_core, still, Int32.add_zero]
  unfold Controller.pwmLoop
  split
  · next mode => simp only [Core.pwmLoop, mode]
  · next mode =>
    rw [loop (c.readSync analog) still]
    simp only [Core.pwmLoop, mode, Controller.readSync]
  · next mode =>
    rw [Controller.scommPwmLoop, loop { c.readSync analog with core := _ } still]
    simp only [Core.pwmLoop, mode, Controller.readSync]
  · next none foc sComm =>
    cases mode : c.core.mcMode with
    | idle | fault => simp only [Core.pwmLoop, mode, Controller.readSync, Controller.pTick]
    | none => exact absurd mode none
    | foc => exact absurd mode foc
    | sComm => exact absurd mode sComm

theorem Controller.pwmLoop_pending (analog : Nat → UInt16) :
    (c.pwmLoop sinCos analog).pending = c.pending := by
  unfold Controller.pwmLoop
  split <;> rfl

/-- Without control of the position `Foc_xmcLoop` leaves the set points. -/
theorem xmcLoop_override {s : Mechanics} (override : s.runMode = .override) (theta : Int64)
    (eAngvRpt : Int32) :
    s.xmcLoop theta eAngvRpt = { s.measure theta with eAngvRpt := eAngvRpt } := by
  have mode : (s.measure theta).runMode = .override := override
  simp only [Mechanics.xmcLoop, mode]

end Frames

/-! ### The electrical speed -/

section Refinement

variable {b : Board Number} {sinCos : Int32 → Int32 × Int32} {c : Controller Number}

/-- **The electrical speed is at rest**, and nothing controls the position. -/
structure Controller.Resting (b : Board Number) (c : Controller Number) : Prop where
  eAngvRps : c.eAngvRps = b.zero
  eAngvRpt : c.eAngvRpt = 0
  runMode : c.core.runMode = .override
  pwmFreqHz : Mc3p.minPwmFrequency ≤ c.mc3p.pwmFreqHz

/-- The identification, with what the slow loop still has to run. -/
def Controller.preempted (c : Controller Number) : Preempted := ⟨c.core, c.pending⟩

/-- What a step is for the identification. -/
def Controller.events (sinCos : Int32 → Int32 × Int32) (c : Controller Number) :
    ControllerEvent Number → List Event
  | .pwm analog =>
    [.pwm (c.pwmLoop sinCos analog).core.focId (c.pwmLoop sinCos analog).core.focIq]
  | .xmc => [.call]
  | .block => [.block]
  | .request (.configControlMode mode _) => [.config mode]
  | .request _ => []

/-- The step does not store amplitudes of the identification. -/
def ControllerEvent.KeepsAmplitudes : ControllerEvent Number → Prop
  | .request (.configSComm _) => False
  | _ => True

/-- `Foc_xmcLoop` leaves the identification. -/
theorem Controller.Resting.focXmcLoop_core (resting : c.Resting b) :
    (c.focXmcLoop b).core = c.core := by
  have override : c.mechanics.runMode = .override := resting.runMode
  rw [Controller.focXmcLoop, xmcLoop_override override]
  rfl

/-- The call of the slow loop leaves the identification, but for the blocks that it is to run. -/
theorem Controller.Resting.xmcLoop_preempted (resting : c.Resting b) (idle : c.pending = []) :
    (c.xmcLoop b).preempted =
      ⟨c.core, if c.core.mcMode = .sComm then blocks c.core.scomm.idstage else []⟩ := by
  unfold Controller.xmcLoop
  split
  · next mode => rw [Controller.preempted, idle, mode, if_neg (by decide)]
  · next mode =>
    rw [mode, if_neg (by decide), ← idle]
    exact congrArg (fun core => (⟨core, c.pending⟩ : Preempted)) resting.focXmcLoop_core
  · next mode =>
    rw [if_pos mode]
    split_ifs with none
    · rw [none, ← idle]
      rfl
    · rfl
  · next sComm =>
    rw [if_neg sComm, ← idle]
    rfl

variable (sinCos c) in
theorem Controller.pwmLoop_speed (analog : Nat → UInt16) :
    (c.pwmLoop sinCos analog).eAngvRps = c.eAngvRps ∧
      (c.pwmLoop sinCos analog).eAngvRpt = c.eAngvRpt ∧
      (c.pwmLoop sinCos analog).mc3p.pwmFreqHz = c.mc3p.pwmFreqHz := by
  unfold Controller.pwmLoop
  split <;> exact ⟨rfl, rfl, rfl⟩

/-- The modes and the angle are not written by `SComm_pwmLoop`. -/
theorem scommPwmLoop_modes (sinCos : Int32 → Int32 × Int32) (c : Core) :
    (c.scommPwmLoop sinCos).1.runMode = c.runMode ∧
      (c.scommPwmLoop sinCos).1.elecMode = c.elecMode ∧
      (c.scommPwmLoop sinCos).1.mcMode = c.mcMode ∧
      (c.scommPwmLoop sinCos).1.eTheta = c.eTheta := by
  unfold Core.scommPwmLoop
  split <;> exact ⟨rfl, rfl, rfl, rfl⟩

/-- The PWM loop writes no mode. -/
theorem pwmLoop_modes (sinCos : Int32 → Int32 × Int32) (c : Core) (focId focIq : Int32) :
    (c.pwmLoop sinCos focId focIq).1.runMode = c.runMode ∧
      (c.pwmLoop sinCos focId focIq).1.elecMode = c.elecMode ∧
      (c.pwmLoop sinCos focId focIq).1.mcMode = c.mcMode ∧
      (c.pwmLoop sinCos focId focIq).1.eTheta = c.eTheta := by
  unfold Core.pwmLoop
  split
  · exact ⟨rfl, rfl, rfl, rfl⟩
  · exact ⟨rfl, rfl, rfl, rfl⟩
  · exact scommPwmLoop_modes sinCos c
  · exact ⟨rfl, rfl, rfl, rfl⟩

/-- A block of the slow loop writes no mode, and no angle but zero. -/
theorem runBlock_modes (c : Core) (block : Block) :
    (c.runBlock block).1.runMode = c.runMode ∧ (c.runBlock block).1.elecMode = c.elecMode ∧
      (c.runBlock block).1.mcMode = c.mcMode ∧
      ((c.runBlock block).1.eTheta = 0 ∨ (c.runBlock block).1.eTheta = c.eTheta) := by
  unfold Core.runBlock
  cases block with
  | rest0 =>
    dsimp only [Core.force]
    split_ifs
    · exact ⟨rfl, rfl, rfl, Or.inl rfl⟩
    · exact ⟨rfl, rfl, rfl, Or.inr rfl⟩
  | rs | ld | lq => exact ⟨rfl, rfl, rfl, Or.inl rfl⟩

/-- The modes that a mode switch writes are those of self-commissioning. -/
theorem setControlMode_modes (c : Core) (mode : MCMode) :
    ((c.setControlMode mode).1.runMode = c.runMode ∨
        (c.setControlMode mode).1.runMode = .override) ∧
      ((c.setControlMode mode).1.elecMode = c.elecMode ∨
        (c.setControlMode mode).1.elecMode = .voltage) ∧
      (c.setControlMode mode).1.eTheta = c.eTheta := by
  unfold Core.setControlMode
  split_ifs
  · exact ⟨Or.inl rfl, Or.inl rfl, rfl⟩
  · exact ⟨Or.inr rfl, Or.inr rfl, rfl⟩
  · exact ⟨Or.inl rfl, Or.inl rfl, rfl⟩

/-- The speed of a block is zero. -/
theorem Controller.Resting.blockSpeed_eq (resting : c.Resting b) (block : Block) :
    c.blockSpeed b block = b.zero := by
  cases block with
  | rest0 =>
    unfold Controller.blockSpeed
    split_ifs
    · rfl
    · exact resting.eAngvRps
  | rs | ld | lq => rfl

theorem Controller.Resting.toRpt_eq (resting : c.Resting b) :
    b.toRpt c.eAngvRps c.mc3p.pwmFreqHz = 0 := by
  rw [resting.eAngvRps]
  exact b.toRpt_zero _ resting.pwmFreqHz

theorem Controller.Resting.finish (resting : c.Resting b) : (c.finish b).Resting b :=
  ⟨resting.eAngvRps, resting.toRpt_eq, resting.runMode, resting.pwmFreqHz⟩

theorem Controller.Resting.xmcLoop (resting : c.Resting b) : (c.xmcLoop b).Resting b := by
  unfold Controller.xmcLoop
  split
  · exact resting
  · refine ⟨resting.eAngvRps, ?_, ?_, resting.pwmFreqHz⟩
    · have override : c.mechanics.runMode = .override := resting.runMode
      dsimp only [Controller.focXmcLoop]
      rw [xmcLoop_override override]
      exact resting.toRpt_eq
    · dsimp only
      rw [resting.focXmcLoop_core]
      exact resting.runMode
  · split_ifs
    · exact resting.finish
    · exact ⟨resting.eAngvRps, resting.eAngvRpt, resting.runMode, resting.pwmFreqHz⟩
  · exact ⟨resting.eAngvRps, resting.eAngvRpt, resting.runMode, resting.pwmFreqHz⟩

theorem Controller.Resting.runPending (resting : c.Resting b) : (c.runPending b).Resting b := by
  unfold Controller.runPending
  split
  · exact resting
  · next block rest _ =>
    have ran : Controller.Resting b { c with
        core := (c.core.runBlock block).1
        eAngvRps := c.blockSpeed b block
        pending := rest } :=
      ⟨resting.blockSpeed_eq block, resting.eAngvRpt,
        (runBlock_modes c.core block).1.trans resting.runMode, resting.pwmFreqHz⟩
    dsimp only
    split_ifs
    · exact ran.finish
    · exact ran

variable [LT Number] [LE Number] [DecidableLT Number] [DecidableLE Number]

/-- A call on the main thread is the mode switch of the identification, or nothing to it. -/
theorem Controller.request_preempted (idle : c.pending = []) (call : Request Number)
    (keeps : (ControllerEvent.request call).KeepsAmplitudes) :
    (c.request b call).1.preempted = (EventMachine.run (Preempted.step sinCos) c.preempted
      (c.events sinCos (.request call))).1 := by
  cases call with
  | configSComm cfg => exact keeps.elim
  | configControlMode mode mechMode =>
    simp only [Controller.events, EventMachine.run_singleton, Preempted.step,
      Controller.preempted, if_pos idle, Controller.request, Controller.configControlMode,
      Core.configControlMode]
    split_ifs <;> rfl
  | setSetpoint sp mechMode =>
    simp only [Controller.events, EventMachine.run_nil, Controller.request,
      Controller.setSetpoint]
    split_ifs <;> split <;> rfl
  | configLimits =>
    simp only [Controller.events, EventMachine.run_nil, Controller.request,
      Controller.configLimits]
    split_ifs <;> rfl
  | configFocPid idPid iqPid =>
    simp only [Controller.events, EventMachine.run_nil, Controller.request,
      Controller.configFocPid]
    split_ifs <;> rfl
  | configFocOlstup cfg =>
    simp only [Controller.events, EventMachine.run_nil, Controller.request,
      Controller.configFocOlstup]
    split_ifs <;> rfl
  | configPwm cfg => rfl
  | setOnFault given => rfl
  | clearFault => rfl

variable (sinCos) in
/-- **With the electrical speed at rest a step is one of the identification**, with the currents
that the current loop leaves behind. -/
theorem Controller.Resting.step_refines (resting : c.Resting b) (event : ControllerEvent Number)
    (keeps : event.KeepsAmplitudes) :
    (c.step b sinCos event).preempted =
      (EventMachine.run (Preempted.step sinCos) c.preempted (c.events sinCos event)).1 := by
  cases event with
  | pwm analog =>
    have core := c.pwmLoop_core sinCos resting.eAngvRpt analog
    have pending := c.pwmLoop_pending sinCos analog
    rw [Controller.step, Controller.preempted, pending, core]
    rfl
  | xmc =>
    by_cases idle : c.pending = []
    · rw [Controller.step, if_pos idle, resting.xmcLoop_preempted idle]
      simp only [Controller.events, EventMachine.run_singleton, Preempted.step,
        Controller.preempted, idle, true_and]
      split_ifs <;> rfl
    · rw [Controller.step, if_neg idle]
      simp only [Controller.events, EventMachine.run_singleton, Preempted.step,
        Controller.preempted, idle, false_and, if_false]
  | block =>
    simp only [Controller.events, EventMachine.run_singleton, Controller.step]
    unfold Controller.runPending
    split
    · next none => simp only [Preempted.step, Controller.preempted, none]
    · next block rest some =>
      simp only [Preempted.step, Controller.preempted, some]
      split_ifs <;> rfl
  | request call =>
    by_cases idle : c.pending = []
    · rw [Controller.step, if_pos idle]
      exact Controller.request_preempted idle call keeps
    · rw [Controller.step, if_neg idle]
      cases call with
      | configSComm cfg => exact keeps.elim
      | configControlMode mode mechMode =>
        simp only [Controller.events, EventMachine.run_singleton, Preempted.step,
          Controller.preempted, idle, if_false]
      | _ => rfl

/-! ### What each step keeps -/

omit [LE Number] [DecidableLE Number] in
/-- A configuration that passes its checks has a frequency within the limits. -/
theorem pwm_freq {p : Platform Number} {cfg : ConfigPwm Number} (passed : cfg.check p = .ok) :
    Mc3p.minPwmFrequency ≤ cfg.pwmFreqHz := by
  unfold ConfigPwm.check at passed
  split_ifs at passed with frequency
  exact UInt32.not_lt.mp fun low => frequency (Or.inr low)

theorem Controller.Resting.request (resting : c.Resting b) (call : Request Number) :
    (c.request b call).1.Resting b := by
  have effect := request_effect b c call
  obtain ⟨eAngvRps, eAngvRpt, runMode, pwmFreqHz⟩ := resting
  generalize c.request b call = result at effect
  obtain ⟨after, err⟩ := result
  cases effect with
  | mode mode mechMode allowed =>
    refine ⟨eAngvRps, eAngvRpt, ?_, pwmFreqHz⟩
    rcases (setControlMode_modes c.core mode).1 with same | override
    · exact same.trans runMode
    · exact override
  | pwm cfg passed => exact ⟨eAngvRps, eAngvRpt, runMode, pwm_freq passed⟩
  | _ => exact ⟨eAngvRps, eAngvRpt, runMode, pwmFreqHz⟩

/-- **What each step keeps.** -/
theorem Controller.Resting.step (resting : c.Resting b) (event : ControllerEvent Number) :
    (c.step b sinCos event).Resting b := by
  cases event with
  | pwm analog =>
    obtain ⟨rps, rpt, freq⟩ := c.pwmLoop_speed sinCos analog
    have core := c.pwmLoop_core sinCos resting.eAngvRpt analog
    refine ⟨rps.trans resting.eAngvRps, rpt.trans resting.eAngvRpt, ?_, ?_⟩
    · rw [Controller.step, core]
      exact (pwmLoop_modes sinCos c.core _ _).1.trans resting.runMode
    · rw [Controller.step, freq]
      exact resting.pwmFreqHz
  | xmc =>
    rw [Controller.step]
    split_ifs
    · exact resting.xmcLoop
    · exact resting
  | block => exact resting.runPending
  | request call =>
    rw [Controller.step]
    split_ifs
    · exact resting.request call
    · exact resting

end Refinement

/-! ### The runs -/

section Runs

variable [LT Number] [LE Number] [DecidableLT Number] [DecidableLE Number] {b : Board Number}
  (boot : Boot b) (sinCos : Int32 → Int32 × Int32)

/-- In `Idle` a start-up table that passes its checks is stored. -/
theorem Controller.configFocOlstup_ok {c : Controller Number} (idle : c.core.mcMode = .idle)
    {cfg : ConfigOlstup Number} (accepted : cfg.check b = .ok) :
    c.configFocOlstup b cfg = ({ c with olstup := cfg }, .ok) := by
  rw [Controller.configFocOlstup, if_neg (not_not.mpr idle), if_pos accepted]

/-- In `Idle` amplitudes that pass their checks are stored. -/
theorem Controller.configSComm_ok {c : Controller Number} (idle : c.core.mcMode = .idle)
    {cfg : ConfigSComm Number} (accepted : cfg.check b = .ok) :
    c.configSComm b cfg = ({ c with
      hfiN := cfg.hfiN
      core := { c.core with
        scomm := { c.core.scomm with
          dcVinj := b.toVs cfg.dcVinj, hfiVinj := b.toVs cfg.hfiVinj } } }, .ok) := by
  rw [Controller.configSComm, if_neg (not_not.mpr idle), if_pos accepted]

/-- The object before `PmsmControl::init`. -/
def Boot.configured (boot : Boot b) : Controller Number :=
  { boot.static with
    core := { Core.init (b.toVs boot.scomm.dcVinj) (b.toVs boot.scomm.hfiVinj) boot.hfiAngvRpt with
      mcMode := .idle }
    mechMode := boot.mechMode
    olstup := boot.olstup
    hfiN := boot.scomm.hfiN
    mc3p := (boot.static.mc3p.configPwm b.toPlatform boot.pwm).1 }

theorem Boot.start_eq : boot.start = boot.configured.init b boot.setup := by
  simp only [Boot.start]
  rw [Controller.configFocOlstup_ok rfl boot.olstup_ok, Controller.configSComm_ok rfl boot.scomm_ok]
  rfl

/-- What the identification is after the boot. -/
theorem Boot.start_preempted : boot.start.preempted =
    (EventMachine.run (Preempted.step sinCos)
      ⟨Core.init (b.toVs boot.scomm.dcVinj) (b.toVs boot.scomm.hfiVinj) boot.hfiAngvRpt, []⟩
      [.config .idle]).1 := by
  rw [boot.start_eq]
  rfl

theorem Boot.start_resting : boot.start.Resting b := by
  rw [boot.start_eq]
  refine ⟨rfl, rfl, rfl, ?_⟩
  have accepted := boot.pwm_ok
  have stored : boot.static.mc3p.configPwm b.toPlatform boot.pwm =
      (boot.static.mc3p.pwmConfigUpdate b.toPlatform boot.pwm, .ok) := by
    rw [Mc3p.Core.configPwm, accepted]
  show Mc3p.minPwmFrequency ≤ (boot.static.mc3p.configPwm b.toPlatform boot.pwm).1.pwmFreqHz
  rw [stored]
  exact pwm_freq boot.pwm_ok

/-- The electrical speed stays at rest in every run. -/
theorem Boot.reached_resting (events : List (ControllerEvent Number)) :
    (boot.reached sinCos events).Resting b :=
  List.foldlRecOn events (Controller.step b sinCos) boot.start_resting
    fun _ resting event _ => resting.step event

/-- The events of the identification in a run of the complete controller. -/
def Controller.allEvents (b : Board Number) (sinCos : Int32 → Int32 × Int32) :
    Controller Number → List (ControllerEvent Number) → List Event
  | _, [] => []
  | c, event :: rest => c.events sinCos event ++ allEvents b sinCos (c.step b sinCos event) rest

/-- **In every run the complete controller runs the identification as its model does**, from the
static object with the amplitudes of the boot, with the currents that its own current loop leaves
behind. -/
theorem controller_refines (events : List (ControllerEvent Number))
    (keeps : ∀ event ∈ events, event.KeepsAmplitudes) :
    (boot.reached sinCos events).preempted = (EventMachine.run (Preempted.step sinCos)
      ⟨Core.init (b.toVs boot.scomm.dcVinj) (b.toVs boot.scomm.hfiVinj) boot.hfiAngvRpt, []⟩
      (.config .idle :: Controller.allEvents b sinCos boot.start events)).1 := by
  have follows (c : Controller Number) (resting : c.Resting b) :
      (events.foldl (Controller.step b sinCos) c).preempted =
        (EventMachine.run (Preempted.step sinCos) c.preempted
          (c.allEvents b sinCos events)).1 := by
    induction events generalizing c with
    | nil => rfl
    | cons event rest ih =>
      have one := resting.step_refines sinCos event (keeps event (by simp))
      rw [Controller.allEvents, EventMachine.run_append_fst, ← one]
      exact ih (fun event member => keeps event (by simp [member])) _ (resting.step event)
  rw [Boot.reached, follows _ boot.start_resting, boot.start_preempted sinCos]
  rfl

/-- A board with numbers in thousandths. -/
def board : Board Int where
  pclk2 := 84000000
  conversions :=
    { dutyQ15 := fun duty => Mc3p.exact.dutyQ15 duty.toNat
      dtcCompQ15 := Mc3p.exact.dtcCompQ15
      autoReload := Mc3p.exact.autoReload }
  tickPeriodNs pwmHz := UInt32.ofNat (1000000000 / pwmHz.toNat)
  zero := 0
  one := 1000
  maxDuty := 950
  negOne := -1000
  vsScale := 60000
  toVs volts := Int32.ofInt (volts * 2147483647 / 60000)
  gainQ31 gain := Int32.ofInt (gain * 2147483647 / 1000)
  toRpxt speed := Int32.ofInt (speed * 2684 / 1000)
  toRpt speed pwmHz := Int32.ofInt (speed * 683565 / (1000 * pwmHz.toNat))
  toRpt_zero pwmHz _ := by rw [Int.zero_mul, Int.zero_ediv]; rfl

/-- The configuration of `sys.cpp`. -/
def sysBoot : Boot board where
  mechMode := .openSpeed
  pwm := ⟨25000, 1000, 0, 950⟩
  olstup := ⟨20000, [0, 1000, 3000, 5000, 7000, 9000].get,
    [3000, 5000, 7000, 9000, 10500, 13000].get, [0, 100000, 200000, 300000, 400000, 500000].get⟩
  scomm := ⟨20, 1000, 12000⟩
  setup := .zero
  tim1 := ⟨0xFFFF, 0, 0⟩
  hfiAngvRpt := 214748364
  pwm_ok := by decide
  olstup_ok := by decide
  scomm_ok := by decide

/-- The identification is entered, a slow loop begins, the PWM interrupt preempts it. -/
theorem controller_refines_entered :
    let sinCos : Int32 → Int32 × Int32 := fun _ => (0, 0x7FFFFFFF)
    let events : List (ControllerEvent Int) :=
      [.request (.configControlMode .sComm .openSpeed), .xmc, .pwm fun _ => 2000, .block]
    (sysBoot.reached sinCos events).preempted = (EventMachine.run (Preempted.step sinCos)
      ⟨Core.init (board.toVs 1000) (board.toVs 12000) 214748364, []⟩
      (.config .idle :: Controller.allEvents board sinCos sysBoot.start events)).1 :=
  controller_refines sysBoot _ _ (by simp [ControllerEvent.KeepsAmplitudes])

end Runs

end ForgeDrive.Pmsm
