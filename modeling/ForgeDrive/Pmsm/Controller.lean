/-
**The complete controller** (`PmsmControl.cpp`, `PmsmControlCore.cpp`, `PosDriver.cpp`, with the loops
of `PmsmControlCore_Foc.cpp` and `PmsmControlCore_SComm.cpp`).

The loops and the driver have models of their own: the identification (`Core`), the current loop
(`Foc.State`), the position and the speed (`Foc.Mechanics`), and the driver with its timer
(`Mc3p.Core`). Here they are one object, of which each loop reads and writes its part, under the calls
of `PmsmControl`. The PWM interrupt preempts the blocks of the slow loop, and the main thread runs
when neither interrupt does.

What is computed in floating point from the configuration is a parameter (`Board`).

* `request_effect` — what a call on the main thread does;
* `Boot.reached` — the runs, from the boot of `sys.cpp` on.
-/

import ForgeDrive.Pmsm.Position
import ForgeDrive.Pmsm.Preemption

namespace ForgeDrive.Pmsm

open Foc (Pid Mechanics MechMode)
open Mc3p (Err ConfigPwm Platform Setup)

/-! ### The object -/

/-- `OLSTUP_TABLE_SIZE`. -/
abbrev olstupTableSize : Nat := 6

/-- `ConfigOlstup`. -/
structure ConfigOlstup (Number : Type) where
  vbusInit : Number
  timeMs : Fin olstupTableSize → UInt16
  ec : Fin olstupTableSize → Number
  rpm : Fin olstupTableSize → Number

/-- `ConfigSComm`. -/
structure ConfigSComm (Number : Type) where
  hfiN : UInt8
  dcVinj : Number
  hfiVinj : Number

/-- `PmsmControlTypes::Pid`. -/
structure Gains (Number : Type) where
  kp : Number
  ki : Number
  kd : Number

/-- The numbers of the floating point, with what is computed in them. -/
structure Board (Number : Type) extends Platform Number where
  negOne : Number
  /-- `FD_MC3P_VS_SCALE`. -/
  vsScale : Number
  /-- `FD_MC3P_FLOAT_TO_VS`. -/
  toVs : Number → Int32
  /-- A gain times `INT32_MAX`, as a `q31_t`. -/
  gainQ31 : Number → Int32
  /-- `rps_to_rpxt`. -/
  toRpxt : Number → Int32
  /-- `q31_t((eAngv_RPS / pwm_freq_hz) * (INT32_MAX / M_PI))`. -/
  toRpt : Number → UInt32 → Int32
  toRpt_zero : ∀ pwmHz, Mc3p.minPwmFrequency ≤ pwmHz → toRpt zero pwmHz = 0

variable {Number : Type}

/-- `PmsmControl` with its `PmsmControlCore`, and the blocks that the slow loop still has to run in
its call. -/
structure Controller (Number : Type) where
  xTicks : UInt32
  core : Core
  /-- `mc3p_sync_meas`; nothing reads the third current. -/
  measVbus : Int32
  measCu : Int32
  measCv : Int32
  /-- `state`. -/
  vbus : Int32
  ibus : Int32
  eAngvRps : Number
  eAngvRpt : Int32
  mechTheta : Int64
  mechThetaSp : Int64
  mechAngv : Int32
  mechAngvSp : Int32
  torqueSp : Int32
  /-- `control`. -/
  mechMode : MechMode
  mptaActive : Bool
  positionPid : Pid
  speedPid : Pid
  /-- `foc`. -/
  idPid : Pid
  iqPid : Pid
  vd : Int32
  vq : Int32
  olstup : ConfigOlstup Number
  hfiN : UInt8
  fault : Err
  mc3p : Mc3p.Core Number
  pending : List Block

namespace Controller

/-- What the current loop reads and writes. -/
def current (c : Controller Number) : Foc.State where
  measVbus := c.measVbus
  measCu := c.measCu
  measCv := c.measCv
  vbus := c.vbus
  ibus := c.ibus
  eTheta := c.core.eTheta
  eAngvRpt := c.eAngvRpt
  elecMode := c.core.elecMode
  idPid := c.idPid
  iqPid := c.iqPid
  vd := c.vd
  vq := c.vq
  id := c.core.focId
  iq := c.core.focIq
  ecqSp := c.core.ecqSp
  ecdSp := c.core.ecdSp
  mc3p := c.mc3p.mc3p

/-- The object with what the current loop writes. -/
def setCurrent (c : Controller Number) (s : Foc.State) : Controller Number :=
  { c with
    vbus := s.vbus
    ibus := s.ibus
    core := { c.core with eTheta := s.eTheta, focId := s.id, focIq := s.iq }
    idPid := s.idPid
    iqPid := s.iqPid
    vd := s.vd
    vq := s.vq
    mc3p := { c.mc3p with mc3p := s.mc3p } }

/-- What `Foc_xmcLoop` reads and writes. -/
def mechanics (c : Controller Number) : Mechanics where
  mechTheta := c.mechTheta
  mechThetaSp := c.mechThetaSp
  mechAngv := c.mechAngv
  mechAngvSp := c.mechAngvSp
  torqueSp := c.torqueSp
  eAngvRpt := c.eAngvRpt
  runMode := c.core.runMode
  mechMode := c.mechMode
  mptaActive := c.mptaActive
  positionPid := c.positionPid
  speedPid := c.speedPid
  ecdSp := c.core.ecdSp
  ecqSp := c.core.ecqSp

/-- The object with what `Foc_xmcLoop` writes. -/
def setMechanics (c : Controller Number) (s : Mechanics) : Controller Number :=
  { c with
    mechTheta := s.mechTheta
    mechAngv := s.mechAngv
    mechAngvSp := s.mechAngvSp
    torqueSp := s.torqueSp
    eAngvRpt := s.eAngvRpt
    positionPid := s.positionPid
    speedPid := s.speedPid
    core := { c.core with ecdSp := s.ecdSp, ecqSp := s.ecqSp } }

/-! ### The loops -/

/-- What `fd_mc3p_read_sync` leaves in the union `mc3p_sync_meas`. -/
def filled (c : Controller Number) : Mc3p.SyncData → Int32 × Int32 × Int32
  | .svm vbus cu cv _ => (vbus, cu, cv)
  | .trap vbus vbemf cbus => (vbus, vbemf, cbus)
  | .bus vbus => (vbus, c.measCu, c.measCv)

/-- `fd_mc3p_read_sync(&mc3p, &mc3p_sync_meas)`. -/
def readSync (c : Controller Number) (analog : Nat → UInt16) : Controller Number :=
  let read := c.mc3p.mc3p.readSync analog
  let meas := c.filled read.2
  { c with
    measVbus := meas.1
    measCu := meas.2.1
    measCv := meas.2.2
    mc3p := { c.mc3p with mc3p := read.1 } }

variable (sinCos : Int32 → Int32 × Int32)

/-- `Foc_pwmLoop`. Behind a division by zero it goes on with a quotient of zero, as `Foc.State.pwmLoop`
does; `focDivisors` tells where there is none. -/
def focPwmLoop (c : Controller Number) : Controller Number :=
  c.setCurrent (c.current.pwmLoop sinCos).1

/-- `SComm_pwmLoop`. -/
def scommPwmLoop (c : Controller Number) : Controller Number :=
  { c with core := (c.core.scommPwmLoop sinCos).1 }.focPwmLoop sinCos

/-- The divisors of the divisions in `Foc_pwmLoop`. -/
def focDivisors (c : Controller Number) : List Int32 := (c.current.pwmLoop sinCos).2

/-- The divisors of the divisions in `SComm_pwmLoop`. -/
def scommDivisors (c : Controller Number) : List Int32 :=
  { c with core := (c.core.scommPwmLoop sinCos).1 }.focDivisors sinCos

/-- `pTicks = pTicks + 1`. -/
def pTick (c : Controller Number) : Controller Number :=
  { c with core := { c.core with pTicks := c.core.pTicks + 1 } }

/-- `pwmLoop`, with what the channels read. -/
def pwmLoop (c : Controller Number) (analog : Nat → UInt16) : Controller Number :=
  match c.core.mcMode with
  | .none => c
  | .foc => ((c.readSync analog).focPwmLoop sinCos).pTick
  | .sComm => ((c.readSync analog).scommPwmLoop sinCos).pTick
  | _ => (c.readSync analog).pTick

/-- The divisors of the divisions in `pwmLoop`. -/
def divisors (c : Controller Number) (analog : Nat → UInt16) : List Int32 :=
  match c.core.mcMode with
  | .foc => (c.readSync analog).focDivisors sinCos
  | .sComm => (c.readSync analog).scommDivisors sinCos
  | _ => []

variable (b : Board Number)

/-- The end of both slow loops, and `xTicks = xTicks + 1`. -/
def finish (c : Controller Number) : Controller Number :=
  { c with
    eAngvRpt := b.toRpt c.eAngvRps c.mc3p.pwmFreqHz
    xTicks := c.xTicks + 1 }

/-- `Foc_xmcLoop`: the open position driver has no angle. -/
def focXmcLoop (c : Controller Number) : Controller Number :=
  c.setMechanics (c.mechanics.xmcLoop 0 (b.toRpt c.eAngvRps c.mc3p.pwmFreqHz))

/-- The electrical speed behind a block of `SComm_xmcLoop`. -/
def blockSpeed (c : Controller Number) : Block → Number
  | .rest0 => if c.core.scomm.idsub = .eSettleStart then b.zero else c.eAngvRps
  | _ => b.zero

/-- The next block of `SComm_xmcLoop`. -/
def runPending (c : Controller Number) : Controller Number :=
  match c.pending with
  | [] => c
  | block :: rest =>
    let c' := { c with
      core := (c.core.runBlock block).1
      eAngvRps := c.blockSpeed b block
      pending := rest }
    if rest = [] then c'.finish b else c'

/-- `xmcLoop`, up to the first block of `SComm_xmcLoop`. -/
def xmcLoop (c : Controller Number) : Controller Number :=
  match c.core.mcMode with
  | .none => c
  | .foc => { c.focXmcLoop b with xTicks := c.xTicks + 1 }
  | .sComm =>
    if blocks c.core.scomm.idstage = [] then c.finish b
    else { c with pending := blocks c.core.scomm.idstage }
  | _ => { c with xTicks := c.xTicks + 1 }

end Controller

/-! ### The checks of the configurations -/

section Checks

variable [LT Number] [LE Number] [DecidableLT Number] [DecidableLE Number] (b : Board Number)

/-- The sanity checks of `configFocPid` on one controller. -/
def Gains.Bad (gains : Gains Number) : Prop :=
  (gains.kp > b.one ∨ gains.kp < b.negOne) ∨ (gains.ki > b.one ∨ gains.ki < b.negOne) ∨
    (gains.kd > b.one ∨ gains.kd < b.negOne)

instance (gains : Gains Number) : Decidable (gains.Bad b) :=
  inferInstanceAs (Decidable (_ ∨ _ ∨ _))

/-- The sanity checks of `configFocOlstup`. -/
def ConfigOlstup.check (cfg : ConfigOlstup Number) : Err :=
  if cfg.timeMs 0 ≠ 0 then .configBad
  else if ∃ i : Fin 5, cfg.timeMs i.succ < cfg.timeMs i.castSucc then .configBad
  else if ∃ i, cfg.ec i < b.zero ∨ cfg.rpm i < b.zero then .configBad
  else if cfg.vbusInit ≤ b.zero then .configBad
  else .ok

/-- The checks of `configSComm`. -/
def ConfigSComm.check (cfg : ConfigSComm Number) : Err :=
  if cfg.dcVinj ≤ b.zero ∨ cfg.dcVinj > b.vsScale then .configBad
  else if cfg.hfiVinj ≤ b.zero ∨ cfg.hfiVinj > b.vsScale then .configBad
  else .ok

/-! ### The calls -/

/-- The calls of `PmsmControl`. `configLimits` stands for `configElecLimits` and `configMechLimits`;
`given` says whether `onFault` is not null. -/
inductive Request (Number : Type)
  | setSetpoint (sp : Number) (mechMode : MechMode)
  | configControlMode (mode : MCMode) (mechMode : MechMode)
  | configLimits
  | configPwm (cfg : ConfigPwm Number)
  | configFocPid (idPid iqPid : Gains Number)
  | configFocOlstup (cfg : ConfigOlstup Number)
  | configSComm (cfg : ConfigSComm Number)
  | setOnFault (given : Bool)
  | clearFault

/-- `arm_pid_init_q31` with the flag `0`: the state of the controller stays. -/
def armPidInit (s : Pid) (kp ki kd : Int32) : Pid :=
  { s with
    a0 := Foc.qadd (Foc.qadd kp ki) kd
    a1 := -Foc.qadd (Foc.qadd kd kd) kp
    a2 := kd }

/-- A controller with these gains. -/
def Gains.apply (gains : Gains Number) (s : Pid) : Pid :=
  armPidInit s (b.gainQ31 gains.kp) (b.gainQ31 gains.ki) (b.gainQ31 gains.kd)

namespace Controller

/-- `PmsmControl::setSetpoint`. -/
def setSetpoint (c : Controller Number) (sp : Number) (mechMode : MechMode) :
    Controller Number × Err :=
  let c := if mechMode = .skip then c else { c with mechMode := mechMode }
  match c.mechMode with
  | .speed | .openSpeed => ({ c with mechAngvSp := b.toRpxt sp }, .ok)
  | _ => (c, .ok)

/-- `PmsmControl::configControlMode`; the mode switch is that of `Core`. -/
def configControlMode (c : Controller Number) (mode : MCMode) (mechMode : MechMode) :
    Controller Number × Err :=
  if mode ≠ .idle ∧ c.core.mcMode ≠ .idle then (c, .configNotAllowedMotorRunning)
  else ({ c with core := (c.core.setControlMode mode).1, mechMode := mechMode }, .ok)

/-- `PmsmControl::configElecLimits` and `PmsmControl::configMechLimits`, which store nothing. -/
def configLimits (c : Controller Number) : Controller Number × Err :=
  if c.core.mcMode ≠ .idle then (c, .configNotAllowedMotorRunning) else (c, .ok)

/-- `PmsmControl::configPwm`, in any mode. -/
def configPwm (c : Controller Number) (cfg : ConfigPwm Number) : Controller Number × Err :=
  ({ c with mc3p := (c.mc3p.configPwm b.toPlatform cfg).1 }, (c.mc3p.configPwm b.toPlatform cfg).2)

/-- `PmsmControl::configFocPid`, in any mode. -/
def configFocPid (c : Controller Number) (idPid iqPid : Gains Number) : Controller Number × Err :=
  if idPid.Bad b ∨ iqPid.Bad b then (c, .configBad)
  else ({ c with idPid := idPid.apply b c.idPid, iqPid := iqPid.apply b c.iqPid }, .ok)

/-- `PmsmControl::configFocOlstup`. -/
def configFocOlstup (c : Controller Number) (cfg : ConfigOlstup Number) :
    Controller Number × Err :=
  if c.core.mcMode ≠ .idle then (c, .configNotAllowedMotorRunning)
  else if cfg.check b = .ok then ({ c with olstup := cfg }, .ok) else (c, cfg.check b)

/-- `PmsmControl::configSComm`. The step of the injection angle stays. -/
def configSComm (c : Controller Number) (cfg : ConfigSComm Number) : Controller Number × Err :=
  if c.core.mcMode ≠ .idle then (c, .configNotAllowedMotorRunning)
  else if cfg.check b = .ok then
    ({ c with
      hfiN := cfg.hfiN
      core := { c.core with
        scomm := { c.core.scomm with
          dcVinj := b.toVs cfg.dcVinj, hfiVinj := b.toVs cfg.hfiVinj } } }, .ok)
  else (c, cfg.check b)

/-- One of the calls, with what it returns. -/
def request (c : Controller Number) : Request Number → Controller Number × Err
  | .setSetpoint sp mechMode => c.setSetpoint b sp mechMode
  | .configControlMode mode mechMode => c.configControlMode mode mechMode
  | .configLimits => c.configLimits
  | .configPwm cfg => c.configPwm b cfg
  | .configFocPid idPid iqPid => c.configFocPid b idPid iqPid
  | .configFocOlstup cfg => c.configFocOlstup b cfg
  | .configSComm cfg => c.configSComm b cfg
  -- nothing is stored
  | .setOnFault given => (c, if given then .ok else .configBad)
  | .clearFault => ({ c with fault := .ok }, .ok)

end Controller

/-- **What a call on the main thread does**: nothing, or what it is for, and then it returns `OK`. -/
inductive RequestEffect (c : Controller Number) : Request Number → Controller Number → Err → Prop
  | none (call : Request Number) (err : Err) : RequestEffect c call c err
  | setpoint (sp : Number) (mechMode mode : MechMode) (angv : Int32) :
      RequestEffect c (.setSetpoint sp mechMode) { c with mechMode := mode, mechAngvSp := angv } .ok
  | mode (mode : MCMode) (mechMode : MechMode) (allowed : mode = .idle ∨ c.core.mcMode = .idle) :
      RequestEffect c (.configControlMode mode mechMode)
        { c with core := (c.core.setControlMode mode).1, mechMode := mechMode } .ok
  | pwm (cfg : ConfigPwm Number) (passed : cfg.check b.toPlatform = .ok) :
      RequestEffect c (.configPwm cfg)
        { c with mc3p := c.mc3p.pwmConfigUpdate b.toPlatform cfg } .ok
  | gains (idPid iqPid : Gains Number) :
      RequestEffect c (.configFocPid idPid iqPid)
        { c with idPid := idPid.apply b c.idPid, iqPid := iqPid.apply b c.iqPid } .ok
  | olstup (cfg : ConfigOlstup Number) (idle : c.core.mcMode = .idle) (passed : cfg.check b = .ok) :
      RequestEffect c (.configFocOlstup cfg) { c with olstup := cfg } .ok
  | scomm (cfg : ConfigSComm Number) (idle : c.core.mcMode = .idle) (passed : cfg.check b = .ok) :
      RequestEffect c (.configSComm cfg) { c with
        hfiN := cfg.hfiN
        core := { c.core with
          scomm := { c.core.scomm with
            dcVinj := b.toVs cfg.dcVinj, hfiVinj := b.toVs cfg.hfiVinj } } } .ok
  | fault : RequestEffect c .clearFault { c with fault := .ok } .ok

theorem request_effect (c : Controller Number) (call : Request Number) :
    RequestEffect b c call (c.request b call).1 (c.request b call).2 := by
  cases call with
  | setSetpoint sp mechMode =>
    simp only [Controller.request, Controller.setSetpoint]
    split_ifs <;> split <;> exact .setpoint sp mechMode _ _
  | configControlMode mode mechMode =>
    simp only [Controller.request, Controller.configControlMode]
    split_ifs with refused
    · exact .none _ _
    · exact .mode mode mechMode (by grind)
  | configLimits =>
    simp only [Controller.request, Controller.configLimits]
    split_ifs <;> exact .none _ _
  | configPwm cfg =>
    simp only [Controller.request, Controller.configPwm, Mc3p.Core.configPwm]
    split
    · next passed => exact .pwm cfg passed
    · exact .none _ _
  | configFocPid idPid iqPid =>
    simp only [Controller.request, Controller.configFocPid]
    split_ifs
    · exact .none _ _
    · exact .gains idPid iqPid
  | configFocOlstup cfg =>
    simp only [Controller.request, Controller.configFocOlstup]
    split_ifs with running passed
    · exact .none _ _
    · exact .olstup cfg (not_not.mp running) passed
    · exact .none _ _
  | configSComm cfg =>
    simp only [Controller.request, Controller.configSComm]
    split_ifs with running passed
    · exact .none _ _
    · exact .scomm cfg (not_not.mp running) passed
    · exact .none _ _
  | setOnFault given => exact .none _ _
  | clearFault => exact .fault

/-- **A call that is refused changes nothing.** -/
theorem refused_unchanged (c : Controller Number) (call : Request Number)
    (refused : (c.request b call).2 ≠ .ok) : (c.request b call).1 = c := by
  have effect := request_effect b c call
  generalize c.request b call = result at refused effect
  obtain ⟨after, err⟩ := result
  cases effect with
  | none => rfl
  | _ => exact absurd rfl refused

/-! ### The runs -/

/-- What `Sys::init` configures, which the checks have to accept, and the state it starts from. -/
structure Boot (b : Board Number) where
  mechMode : MechMode
  pwm : ConfigPwm Number
  olstup : ConfigOlstup Number
  scomm : ConfigSComm Number
  setup : Setup
  tim1 : Mc3p.Tim1
  hfiAngvRpt : Int32
  pwm_ok : pwm.check b.toPlatform = .ok
  olstup_ok : olstup.check b = .ok
  scomm_ok : scomm.check b = .ok

/-- The static object. -/
def Boot.static (boot : Boot b) : Controller Number where
  xTicks := 0
  core := .init 0 0 boot.hfiAngvRpt
  measVbus := 0
  measCu := 0
  measCv := 0
  vbus := 0
  ibus := 0
  eAngvRps := b.zero
  eAngvRpt := 0
  mechTheta := 0
  mechThetaSp := 0
  mechAngv := 0
  mechAngvSp := 0
  torqueSp := 0
  mechMode := .skip
  mptaActive := false
  positionPid := ⟨0, 0, 0, 0, 0, 0⟩
  speedPid := ⟨0, 0, 0, 0, 0, 0⟩
  idPid := ⟨0, 0, 0, 0, 0, 0⟩
  iqPid := ⟨0, 0, 0, 0, 0, 0⟩
  vd := 0
  vq := 0
  olstup := ⟨b.zero, fun _ => 0, fun _ => b.zero, fun _ => b.zero⟩
  hfiN := 20
  fault := .ok
  mc3p := ⟨0, 100000, ⟨0, 0, b.zero, b.zero⟩, .zero .zero, boot.tim1⟩
  pending := []

/-- `PmsmControl::init`: the controller's `init`, which calibrates the offsets, and writes the
floating state. -/
def Controller.init (c : Controller Number) (setup : Setup) : Controller Number :=
  let mc3p := c.mc3p.init b.toPlatform { setup with offsetCalibration := true }
  { c with
    xTicks := 0
    core := { c.core with pTicks := 0, runMode := .override }
    mc3p := { mc3p with mc3p := mc3p.mc3p.writeFloat } }

/-- `Sys::init`, up to the first mode. -/
def Boot.start (boot : Boot b) : Controller Number :=
  let c := (boot.static.configControlMode .idle boot.mechMode).1
  let c := (c.configPwm b boot.pwm).1
  let c := (c.configFocOlstup b boot.olstup).1
  let c := (c.configSComm b boot.scomm).1
  c.init b boot.setup

/-- The PWM interrupt, the call of the slow loop, its next block, and a call on the main thread. -/
inductive ControllerEvent (Number : Type)
  | pwm (analog : Nat → UInt16)
  | xmc
  | block
  | request (call : Request Number)

variable (sinCos : Int32 → Int32 × Int32)

/-- One step. The slow loop is not called again, and the main thread does not run, while a call has
blocks to run. -/
def Controller.step (c : Controller Number) : ControllerEvent Number → Controller Number
  | .pwm analog => c.pwmLoop sinCos analog
  | .xmc => if c.pending = [] then c.xmcLoop b else c
  | .block => c.runPending b
  | .request call => if c.pending = [] then (c.request b call).1 else c

variable {b}

/-- The object after the boot and the events. -/
def Boot.reached (boot : Boot b) (events : List (ControllerEvent Number)) : Controller Number :=
  events.foldl (Controller.step b sinCos) boot.start

end Checks

end ForgeDrive.Pmsm
