/-
**The motor driver of the simulator** (`platform/host/fd_mc3p.h`, `platform/host/fd_mc3p.cpp`), and
whether it refines that of the STM32F4.

The two drivers have one interface and are written by copying. They are compared on what the control
code sees of the bridge (`Compared`): the limits, the compensation, the duties, the sector and the
mode. What both compute in floating point from the configuration is given by `Conversions`.

* `Driver.write_compared`, `SilDriver.write_compared` — a write does the same in both drivers, as a
  function of the compared fields and the polarities;
* `refines_iff` — the drivers agree after every call exactly if no reconfiguration changes the dead
  time compensation: the simulator computes it in `fd_mc3p_init` only.
-/

import Mathlib.Data.List.Induction
import ForgeDrive.Mc3p.Driver

namespace ForgeDrive.Mc3p

variable {Number : Type}

/-! ### The configuration -/

/-- `fd_mc3p_config_t`. -/
structure Config (Number : Type) where
  pwmHz : UInt32
  deadtimeNs : UInt32
  dutyMax : Number
  dutyMin : Number
  deriving DecidableEq, Repr

/-- The computations in floating point, and the reload value of the timer. -/
structure Conversions (Number : Type) where
  /-- `(uint16_t)(duty * 0x7FFF)`. -/
  dutyQ15 : Number → UInt16
  /-- `((float)deadtime_nS*pwm_Hz/1e9)*INT16_MAX + 0.5`, as it is stored in `dtc_comp_q15`. -/
  dtcCompQ15 : UInt32 → UInt32 → UInt16
  /-- `__LL_TIM_CALC_ARR`. -/
  autoReload : UInt32 → UInt32

/-- The dead time compensation of a configuration. -/
def Config.dtcComp (config : Config Number) (conversions : Conversions Number) : UInt16 :=
  conversions.dtcCompQ15 config.deadtimeNs config.pwmHz

/-- What the driver of the STM32F4 is set up with by a configuration, without calibration. -/
def Config.setup (config : Config Number) (conversions : Conversions Number) (other : Setup) :
    Setup :=
  { other with
    timerMax := conversions.autoReload config.pwmHz
    dutyMax := conversions.dutyQ15 config.dutyMax
    dutyMin := conversions.dutyQ15 config.dutyMin
    dtcComp := config.dtcComp conversions
    offsetCalibration := false }

/-- `fd_mc3p_reconfigure_pwm` of the STM32F4. -/
def Driver.reconfigurePwm (d : Driver) (conversions : Conversions Number) (config : Config Number) :
    Driver :=
  { d with
    timerMax := conversions.autoReload config.pwmHz
    dutyMax := conversions.dutyQ15 config.dutyMax
    dutyMin := conversions.dutyQ15 config.dutyMin
    dtcComp := config.dtcComp conversions }

/-! ### The driver of the simulator -/

/-- An element of `sil_input.duty`: a quotient by `INT16_MAX`, zero or one. -/
inductive SilDuty
  | ratio (q15 : Int16)
  | zero
  | one
  deriving DecidableEq, Repr

/-- `fd_mc3p_handle_t` of the simulator, with what the functions write to `sil_input`. -/
structure SilDriver where
  mode : Mode
  sectorLast : Sector
  dutyMax : UInt16
  dutyMin : UInt16
  dutyU : Int16
  dutyV : Int16
  dutyW : Int16
  phaseState : PhaseState × PhaseState × PhaseState
  dtcComp : UInt16
  dtcState : UInt8
  drive : Bool × Bool × Bool
  duty : SilDuty × SilDuty × SilDuty

/-- The zeroed handle, and a simulator that is not driven. -/
def SilDriver.zero : SilDriver where
  mode := .none
  sectorLast := .float
  dutyMax := 0
  dutyMin := 0
  dutyU := 0
  dutyV := 0
  dutyW := 0
  phaseState := (.float, .float, .float)
  dtcComp := 0
  dtcState := 0
  drive := (false, false, false)
  duty := (.zero, .zero, .zero)

/-- `fd_mc3p_init`. Nothing is written to the bridge. -/
def SilDriver.init (conversions : Conversions Number) (config : Config Number) : SilDriver :=
  { SilDriver.zero with
    dutyMax := conversions.dutyQ15 config.dutyMax
    dutyMin := conversions.dutyQ15 config.dutyMin
    dtcComp := config.dtcComp conversions }

/-- `fd_mc3p_reconfigure_pwm`. The dead time compensation is left as it is. -/
def SilDriver.reconfigurePwm (s : SilDriver) (conversions : Conversions Number)
    (config : Config Number) : SilDriver :=
  { s with
    dutyMax := conversions.dutyQ15 config.dutyMax
    dutyMin := conversions.dutyQ15 config.dutyMin }

/-- `fd_mc3p_write_phase_state`. -/
def SilDriver.writePhaseState (s : SilDriver) (u v w : PhaseState) : SilDriver :=
  { s with
    drive := (u ≠ .float, v ≠ .float, w ≠ .float)
    phaseState := (u, v, w) }

/-- The duty of a phase in this state. -/
def silDuty (phase : PhaseState) (q15 : Int16) : SilDuty :=
  match phase with
  | .lOn => .zero
  | .hOn => .one
  | _ => .ratio q15

/-- The assignment of `SATURATE` to the parameter. -/
def SilDriver.saturated (s : SilDriver) (duty : Int16) : Int16 :=
  Int16.ofInt (saturate duty.toInt s.dutyMin s.dutyMax)

/-- `fd_mc3p_write_phase_duty`. -/
def SilDriver.writePhaseDuty (s : SilDriver) (u v w : Int16) : SilDriver :=
  { s with
    duty := (silDuty s.phaseState.1 (s.saturated u), silDuty s.phaseState.2.1 (s.saturated v),
      silDuty s.phaseState.2.2 (s.saturated w)) }

/-- `fd_mc3p_write_float`. -/
def SilDriver.writeFloat (s : SilDriver) : SilDriver :=
  { (s.writePhaseState .float .float .float).writePhaseDuty 0 0 0 with sectorLast := .float }

/-- A duty with the dead time compensation of the polarity at `bit`, through `SSAT(…, 16)`. -/
def SilDriver.compensate (s : SilDriver) (duty : Int) (bit : UInt8) : Int16 :=
  ssat16 (duty + if s.dtcState &&& bit ≠ 0 then (s.dtcComp.toNat : Int) else -s.dtcComp.toNat)

/-- `fd_mc3p_write_trap`. There is no converter to set up. -/
def SilDriver.writeTrap (s : SilDriver) (sector : Sector) (duty : UInt16) : SilDriver :=
  let s := if s.sectorLast.isTrap then s else { s with mode := .trap }
  match trapTable sector with
  | none => s
  | some phases =>
    let s := if s.sectorLast ≠ sector then
        { s.writePhaseState phases.1 phases.2.1 phases.2.2 with sectorLast := sector }
      else s
    let u := s.compensate duty.toNat ((1 : UInt8) <<< 3)
    ({ s with dutyU := u, dutyV := u, dutyW := u }).writePhaseDuty u u u

/-- `fd_mc3p_write_svm`. -/
def SilDriver.writeSvm (s : SilDriver) (alpha beta : Int16) : SilDriver :=
  let s := if s.sectorLast.isSvm then s
    else { s.writePhaseState .comp .comp .comp with mode := .svm }
  let (u, v, w) := svmPhases alpha beta
  let sector := svmSector u v w
  let offset := (max (max u v) w + min (min u v) w) >>> (1 : Nat)
  let dutyU := s.compensate (u - offset + 16384) ((1 : UInt8) <<< 0)
  let dutyV := s.compensate (v - offset + 16384) ((1 : UInt8) <<< 1)
  let dutyW := s.compensate (w - offset + 16384) ((1 : UInt8) <<< 2)
  let s := ({ s with dutyU := dutyU, dutyV := dutyV, dutyW := dutyW }).writePhaseDuty
    dutyU dutyV dutyW
  { s with sectorLast := sector }

/-! ### The calls on both -/

/-- A write to the bridge. -/
inductive Write
  | svm (alpha beta : Int16)
  | trap (sector : Sector) (duty : UInt16)
  | float
  deriving DecidableEq, Repr

/-- The calls after `fd_mc3p_init`. A write finds the polarities that the last measurement left. -/
inductive BridgeCall (Number : Type)
  | reconfigure (config : Config Number)
  | write (dtcState : UInt8) (write : Write)

def Driver.write (d : Driver) : Write → Driver
  | .svm alpha beta => d.writeSvm alpha beta
  | .trap sector duty => d.writeTrap sector duty
  | .float => d.writeFloat

def SilDriver.write (s : SilDriver) : Write → SilDriver
  | .svm alpha beta => s.writeSvm alpha beta
  | .trap sector duty => s.writeTrap sector duty
  | .float => s.writeFloat

/-- One call on the STM32F4. -/
def Driver.bridge (conversions : Conversions Number) (d : Driver) : BridgeCall Number → Driver
  | .reconfigure config => d.reconfigurePwm conversions config
  | .write dtcState write => { d with dtcState := dtcState }.write write

/-- One call on the simulator. -/
def SilDriver.bridge (conversions : Conversions Number) (s : SilDriver) :
    BridgeCall Number → SilDriver
  | .reconfigure config => s.reconfigurePwm conversions config
  | .write dtcState write => { s with dtcState := dtcState }.write write

/-! ### What both do -/

/-- The fields that are compared. -/
structure Compared where
  dutyMax : UInt16
  dutyMin : UInt16
  dtcComp : UInt16
  dutyU : Int16
  dutyV : Int16
  dutyW : Int16
  sectorLast : Sector
  mode : Mode
  deriving DecidableEq, Repr

def Driver.compared (d : Driver) : Compared where
  dutyMax := d.dutyMax
  dutyMin := d.dutyMin
  dtcComp := d.dtcComp
  dutyU := d.dutyU
  dutyV := d.dutyV
  dutyW := d.dutyW
  sectorLast := d.sectorLast
  mode := d.mode

def SilDriver.compared (s : SilDriver) : Compared where
  dutyMax := s.dutyMax
  dutyMin := s.dutyMin
  dtcComp := s.dtcComp
  dutyU := s.dutyU
  dutyV := s.dutyV
  dutyW := s.dutyW
  sectorLast := s.sectorLast
  mode := s.mode

/-- A compensated duty. -/
def Compared.compensate (c : Compared) (dtcState : UInt8) (duty : Int) (bit : UInt8) : Int16 :=
  ssat16 (duty + if dtcState &&& bit ≠ 0 then (c.dtcComp.toNat : Int) else -c.dtcComp.toNat)

/-- What a write is to do. -/
def Compared.write (c : Compared) (dtcState : UInt8) : Write → Compared
  | .svm alpha beta =>
    let (u, v, w) := svmPhases alpha beta
    let offset := (max (max u v) w + min (min u v) w) >>> (1 : Nat)
    { c with
      mode := if c.sectorLast.isSvm then c.mode else .svm
      dutyU := c.compensate dtcState (u - offset + 16384) ((1 : UInt8) <<< 0)
      dutyV := c.compensate dtcState (v - offset + 16384) ((1 : UInt8) <<< 1)
      dutyW := c.compensate dtcState (w - offset + 16384) ((1 : UInt8) <<< 2)
      sectorLast := svmSector u v w }
  | .trap sector duty =>
    let c := { c with mode := if c.sectorLast.isTrap then c.mode else .trap }
    if sector.isTrap then
      let u := c.compensate dtcState duty.toNat ((1 : UInt8) <<< 3)
      { c with dutyU := u, dutyV := u, dutyW := u, sectorLast := sector }
    else c
  | .float => { c with sectorLast := .float }

/-- The six trapezoidal sectors are those of the tables. -/
theorem tables_of_isTrap {sector : Sector} (trap : sector.isTrap = true) :
    ∃ phases map, trapTable sector = some phases ∧ adcTrapTable sector = some map := by
  cases sector <;> first | exact ⟨_, _, rfl, rfl⟩ | cases trap

theorem trapTable_eq_none {sector : Sector} (other : ¬ sector.isTrap = true) :
    trapTable sector = none := by
  cases sector <;> first | rfl | exact absurd rfl other

section Stm32

variable (d : Driver)

theorem Driver.trapMode_compared (sector : Sector) :
    (d.trapMode sector).compared =
        { d.compared with mode := if d.sectorLast.isTrap then d.mode else .trap } ∧
      (d.trapMode sector).dtcState = d.dtcState := by
  rw [Driver.trapMode]
  split_ifs
  · exact ⟨rfl, rfl⟩
  · rw [Driver.adcMode]
    split_ifs <;> exact ⟨rfl, rfl⟩

theorem Driver.enterTrap_compared (sector : Sector) (phases : PhaseState × PhaseState × PhaseState)
    (map : TrapMap) :
    (d.enterTrap sector phases map).compared = { d.compared with sectorLast := sector } ∧
      (d.enterTrap sector phases map).dtcState = d.dtcState := by
  rw [Driver.enterTrap]
  split
  case isTrue => exact ⟨rfl, rfl⟩
  case isFalse same =>
    rw [← not_not.mp same]
    exact ⟨rfl, rfl⟩

/-- The three equal duties of a trapezoidal sector. -/
theorem Driver.duties_compared {c : Compared} {dtcState : UInt8} (compared : d.compared = c)
    (state : d.dtcState = dtcState) (duty : Int) (bit : UInt8) :
    (({ d with
      dutyU := d.compensate duty bit, dutyV := d.compensate duty bit
      dutyW := d.compensate duty bit }).writePhaseDuty (d.compensate duty bit)
        (d.compensate duty bit) (d.compensate duty bit)).compared =
      { c with
        dutyU := c.compensate dtcState duty bit, dutyV := c.compensate dtcState duty bit
        dutyW := c.compensate dtcState duty bit } := by
  rw [← compared, ← state]
  rfl

/-- **A write on the STM32F4.** -/
theorem Driver.write_compared (write : Write) :
    (d.write write).compared = d.compared.write d.dtcState write := by
  cases write with
  | float => rfl
  | svm alpha beta =>
    show (d.writeSvm alpha beta).compared = _
    rw [Driver.writeSvm, Compared.write, show d.compared.sectorLast = d.sectorLast from rfl]
    split_ifs <;> rfl
  | trap sector duty =>
    obtain ⟨mode, state⟩ := d.trapMode_compared sector
    show (d.writeTrap sector duty).compared = _
    rw [Driver.writeTrap, Compared.write, show d.compared.sectorLast = d.sectorLast from rfl]
    by_cases trap : sector.isTrap
    · obtain ⟨phases, map, inTable, inAdcTable⟩ := tables_of_isTrap trap
      obtain ⟨entered, stateEntered⟩ := (d.trapMode sector).enterTrap_compared sector phases map
      simp only [inTable, inAdcTable, if_pos trap]
      exact Driver.duties_compared _ (entered.trans (by rw [mode])) (stateEntered.trans state)
        duty.toNat ((1 : UInt8) <<< 3)
    · simp only [trapTable_eq_none trap, if_neg trap]
      exact mode

end Stm32

section Simulator

variable (s : SilDriver)

/-- **A write on the simulator.** -/
theorem SilDriver.write_compared (write : Write) :
    (s.write write).compared = s.compared.write s.dtcState write := by
  cases write with
  | float => rfl
  | svm alpha beta =>
    show (s.writeSvm alpha beta).compared = _
    rw [SilDriver.writeSvm, Compared.write, show s.compared.sectorLast = s.sectorLast from rfl]
    split_ifs <;> rfl
  | trap sector duty =>
    show (s.writeTrap sector duty).compared = _
    rw [SilDriver.writeTrap, Compared.write, show s.compared.sectorLast = s.sectorLast from rfl]
    by_cases trap : sector.isTrap
    · obtain ⟨phases, -, inTable, -⟩ := tables_of_isTrap trap
      simp only [inTable, if_pos trap]
      by_cases same : s.sectorLast = sector
      · obtain rfl := same
        simp only [if_pos trap, ne_eq, not_true_eq_false, if_false]
        rfl
      · by_cases before : s.sectorLast.isTrap
        · simp only [if_pos before, ne_eq, same, not_false_eq_true, if_true]
          rfl
        · simp only [if_neg before, ne_eq, same, not_false_eq_true, if_true]
          rfl
    · simp only [trapTable_eq_none trap, if_neg trap]
      split_ifs <;> rfl

end Simulator

/-! ### Refinement -/

section Refinement

variable (conversions : Conversions Number)

/-- The driver of the STM32F4 after `fd_mc3p_init` and the calls. -/
def stm32 (other : Setup) (config : Config Number) (calls : List (BridgeCall Number)) : Driver :=
  calls.foldl (Driver.bridge conversions) (Driver.init (config.setup conversions other))

/-- The driver of the simulator after `fd_mc3p_init` and the calls. -/
def simulator (config : Config Number) (calls : List (BridgeCall Number)) : SilDriver :=
  calls.foldl (SilDriver.bridge conversions) (SilDriver.init conversions config)

/-- **The drivers agree after every call.** -/
def Refines (other : Setup) (config : Config Number) (calls : List (BridgeCall Number)) : Prop :=
  ∀ before, before <+: calls →
    (stm32 conversions other config before).compared =
      (simulator conversions config before).compared

/-- The reconfiguration leaves the dead time compensation as it was at first. -/
def KeepsCompensation (config : Config Number) : BridgeCall Number → Prop
  | .reconfigure next => next.dtcComp conversions = config.dtcComp conversions
  | .write _ _ => True

variable {conversions} {other : Setup} {config : Config Number}

/-- The simulator computes the compensation once. -/
theorem simulator_dtcComp (calls : List (BridgeCall Number)) :
    (simulator conversions config calls).dtcComp = config.dtcComp conversions := by
  have kept : ∀ (s : SilDriver) (call : BridgeCall Number),
      (s.bridge conversions call).dtcComp = s.dtcComp := by
    intro s call
    cases call with
    | reconfigure next => rfl
    | write dtcState write =>
      have after := congrArg Compared.dtcComp
        (SilDriver.write_compared { s with dtcState := dtcState } write)
      refine after.trans ?_
      cases write with
      | float => rfl
      | svm alpha beta => rfl
      | trap sector duty =>
        rw [Compared.write]
        split_ifs <;> rfl
  have all : ∀ (calls : List (BridgeCall Number)) (s : SilDriver),
      (calls.foldl (SilDriver.bridge conversions) s).dtcComp = s.dtcComp := by
    intro calls
    induction calls with
    | nil => exact fun _ => rfl
    | cons call rest ih => exact fun s => (ih _).trans (kept s call)
  exact all calls _

/-- **A call that keeps the compensation** keeps the drivers in agreement. -/
theorem bridge_compared {d : Driver} {s : SilDriver} (same : d.compared = s.compared)
    (compensation : s.dtcComp = config.dtcComp conversions) {call : BridgeCall Number}
    (keeps : KeepsCompensation conversions config call) :
    (d.bridge conversions call).compared = (s.bridge conversions call).compared := by
  cases call with
  | write dtcState write =>
    have device := Driver.write_compared { d with dtcState := dtcState } write
    have host := SilDriver.write_compared { s with dtcState := dtcState } write
    refine device.trans (Eq.trans ?_ host.symm)
    exact congrArg (fun c => Compared.write c dtcState write) same
  | reconfigure next =>
    have values : next.dtcComp conversions = s.dtcComp := keeps.trans compensation.symm
    show ({ d.compared with
      dutyMax := conversions.dutyQ15 next.dutyMax
      dutyMin := conversions.dutyQ15 next.dutyMin
      dtcComp := next.dtcComp conversions } : Compared) = _
    rw [same, values]
    rfl

/-- **When the simulator refines the STM32F4**: exactly if no reconfiguration changes the dead time
compensation. -/
theorem refines_iff (conversions : Conversions Number) (other : Setup) (config : Config Number)
    (calls : List (BridgeCall Number)) :
    Refines conversions other config calls ↔
      ∀ call ∈ calls, KeepsCompensation conversions config call := by
  constructor
  · intro refines call member
    cases call with
    | write dtcState write => trivial
    | reconfigure next =>
      obtain ⟨before, after, rfl⟩ := List.append_of_mem member
      have same := refines (before ++ [.reconfigure next]) ⟨after, by simp⟩
      have value := congrArg Compared.dtcComp same
      have host : (simulator conversions config (before ++ [.reconfigure next])).compared.dtcComp =
          config.dtcComp conversions := simulator_dtcComp _
      have device :
          (stm32 conversions other config (before ++ [.reconfigure next])).compared.dtcComp =
            next.dtcComp conversions := by
        rw [stm32, List.foldl_append]
        rfl
      rw [device, host] at value
      exact value
  · intro keeps before start
    have kept : ∀ call ∈ before, KeepsCompensation conversions config call :=
      fun call member => keeps call (start.subset member)
    clear start keeps
    induction before using List.reverseRecOn with
    | nil => rfl
    | append_singleton before call ih =>
      have same := ih fun other member => kept other (List.mem_append_left _ member)
      rw [stm32, simulator, List.foldl_append, List.foldl_append]
      exact bridge_compared same (simulator_dtcComp before)
        (kept call (List.mem_append_right _ List.mem_cons_self))

end Refinement

/-! ### A reconfiguration that the simulator does not follow -/

/-- The conversions for limits in thousandths, and a timer clock of 84 MHz. -/
def exact : Conversions Nat where
  dutyQ15 thousandths := UInt16.ofNat (thousandths * 32767 / 1000)
  dtcCompQ15 deadtimeNs pwmHz :=
    UInt16.ofNat ((deadtimeNs.toNat * pwmHz.toNat * 32767 + 500000000) / 1000000000)
  autoReload pwmHz := UInt32.ofNat (84000000 / (2 * pwmHz.toNat) - 1)

/-- From 20 kHz to 40 kHz with a dead time of 500 ns: the compensation is 328 of 32767 at first and
655 on the STM32F4 afterwards, and stays 328 on the simulator. -/
theorem not_always_refines :
    ¬ ∀ (Number : Type) (conversions : Conversions Number) (other : Setup)
      (config : Config Number) (calls : List (BridgeCall Number)),
        Refines conversions other config calls := by
  intro always
  have same := always Nat exact .zero ⟨20000, 500, 950, 50⟩ [.reconfigure ⟨40000, 500, 950, 50⟩]
    _ (List.prefix_refl _)
  have compensation := congrArg Compared.dtcComp same
  exact absurd compensation (by decide)

end ForgeDrive.Mc3p
