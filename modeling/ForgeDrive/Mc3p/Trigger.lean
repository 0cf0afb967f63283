/-
**The trigger of the injected scan and the period of the PWM** (`driver/stm32f4/fd_mc3p.c`,
`PmsmControl/PmsmControl.cpp`, `PmsmControl/PmsmControlCore.cpp`).

Channel 4 of `TIM1` triggers the injected scan of the ADC, whose interrupt runs the current loop. It
fires once a period if its compare value is within the period, and in the middle of the period if it
is half of it. `mc3p_adc_init` sets it to half of the period; `fd_mc3p_reconfigure_pwm` sets the
period and what the duties are scaled with, and leaves the trigger where it was.

* `Core.Tied.step` — what every call keeps: the trigger is half of the first period, and the duties
  are scaled with the period of now;
* `centred_throughout_iff` — so the scan stays at mid-period exactly as long as every configuration
  that is accepted has the half period of the first;
* `fires_throughout_iff` — and it is triggered exactly as long as no accepted period is shorter than
  that half;
* `halfPeriod_stm32f4` — with the clock of the board the half period is `21000000 / pwm_Hz`;
* `not_always_centred` — from 8 kHz to 40 kHz the scan stops.
-/

import ForgeDrive.Mc3p.Sil
import ForgeDrive.Mc3p.SyncChannels

namespace ForgeDrive.Mc3p

variable {Number : Type}

/-! ### The timer -/

/-- `__LL_TIM_CALC_ARR`. -/
def calcArr (timClk psc freq : UInt32) : UInt32 :=
  if timClk / (psc + 1) ≥ freq then timClk / (freq * (psc + 1)) - 1 else 0

/-- `TIM_CALC_DTS` without a clock division: the sampling period of the dead time in ps. -/
def calcDts (timClk : UInt32) : UInt64 := 1000000000000 / timClk.toUInt64

/-- `__LL_TIM_CALC_DEADTIME` without a clock division. -/
def calcDeadtime (timClk dt : UInt32) : UInt8 :=
  let ps := (dt * 1000).toUInt64
  let dts := calcDts timClk
  if ps < 128 * dts then (ps / dts).toUInt8 &&& 0x7F
  else if ps < 256 * dts then (0x80 : UInt8) ||| (((ps / dts) >>> 1).toUInt8 - 64) &&& 0x3F
  else if ps < 512 * dts then
    (0xC0 : UInt8) ||| (((dt.toUInt64 * 1000 / dts) >>> 3).toUInt8 - 32) &&& 0x1F
  else if ps < 1024 * dts then
    (0xE0 : UInt8) ||| (((dt.toUInt64 * 1000 / dts) >>> 4).toUInt8 - 32) &&& 0x1F
  else 0

/-- The registers `ARR` and `CCR4` of `TIM1`, which have 16 bits, and the dead time of `BDTR`. -/
structure Tim1 where
  arr : UInt16
  ccr4 : UInt16
  deadTime : UInt8
  deriving DecidableEq, Repr

/-- `LL_TIM_SetAutoReload`. -/
def Tim1.setAutoReload (t : Tim1) (autoReload : UInt32) : Tim1 :=
  { t with arr := autoReload.toUInt16 }

/-- `LL_TIM_GetAutoReload`. -/
def Tim1.getAutoReload (t : Tim1) : UInt32 := t.arr.toUInt32

/-- `LL_TIM_OC_SetCompareCH4`. -/
def Tim1.setCompareCh4 (t : Tim1) (compareValue : UInt32) : Tim1 :=
  { t with ccr4 := compareValue.toUInt16 }

/-- `LL_TIM_OC_SetDeadTime`. -/
def Tim1.setDeadTime (t : Tim1) (deadTime : UInt8) : Tim1 := { t with deadTime := deadTime }

/-- **The scan is triggered once a period, in its middle.** -/
structure Tim1.Centred (t : Tim1) : Prop where
  middle : t.ccr4.toNat = (t.arr.toNat + 1) / 2
  fires : t.ccr4 ≤ t.arr

/-- A compare value in the middle is within the period. -/
theorem Tim1.centred_iff (t : Tim1) : t.Centred ↔ t.ccr4.toNat = (t.arr.toNat + 1) / 2 := by
  constructor
  · exact Tim1.Centred.middle
  · intro middle
    refine ⟨middle, ?_⟩
    rw [UInt16.le_iff_toNat_le]
    omega

/-! ### The configuration of the PWM -/

/-- `PmsmControlTypes::ERR`. -/
inductive Err
  | ok
  | unknownError
  | notInitialized
  | notImplemented
  | configNotAllowedMotorRunning
  | configBad
  deriving DecidableEq, Repr

/-- `PmsmControlTypes::ConfigPwm`. -/
structure ConfigPwm (Number : Type) where
  pwmFreqHz : UInt32
  deadtimeNs : UInt32
  dutyMin : Number
  dutyMax : Number
  deriving DecidableEq, Repr

/-- `MIN_PWM_FREQUENCY`, `MAX_PWM_FREQUENCY`, `MIN_DEADTIME_NS` and `MAX_DEADTIME_NS`. -/
def minPwmFrequency : UInt32 := 8000
def maxPwmFrequency : UInt32 := 40000
def minDeadtimeNs : UInt32 := 100
def maxDeadtimeNs : UInt32 := 2000

/-- The clock of the timer, and the numbers of the floating point with what is computed in them. -/
structure Platform (Number : Type) where
  /-- `HAL_RCC_GetPCLK2Freq()`. -/
  pclk2 : UInt32
  /-- The duty limits and the dead time compensation. -/
  conversions : Conversions Number
  /-- `static_cast<uint32_t>(1'000'000'000 / static_cast<float>(pwm_freq_hz))`. -/
  tickPeriodNs : UInt32 → UInt32
  zero : Number
  one : Number
  /-- `PWM_MAX_DUTY`. -/
  maxDuty : Number

/-- The register `ARR` for a frequency. -/
def Platform.reload (p : Platform Number) (pwmHz : UInt32) : UInt16 :=
  (calcArr p.pclk2 1 pwmHz).toUInt16

/-- The middle of the period of a frequency. -/
def Platform.halfPeriod (p : Platform Number) (pwmHz : UInt32) : Nat :=
  ((p.reload pwmHz).toNat + 1) / 2

/-- The computations of the driver, with the reload value that the timer has. -/
def Platform.timed (p : Platform Number) : Conversions Number :=
  { p.conversions with autoReload := fun pwmHz => (p.reload pwmHz).toUInt32 }

/-- `PmsmControlCore`, as far as the PWM goes, with the registers of the timer. -/
structure Core (Number : Type) where
  pwmFreqHz : UInt32
  pTickPeriodNs : UInt32
  config : Config Number
  mc3p : Driver
  tim1 : Tim1

/-- The registers after `mc3p_tim1_init`. -/
def Tim1.init (t : Tim1) (p : Platform Number) (config : Config Number) : Tim1 :=
  (t.setAutoReload (calcArr p.pclk2 1 config.pwmHz)).setDeadTime
    (calcDeadtime p.pclk2 config.deadtimeNs)

/-- The registers after `mc3p_adc_init`. -/
def Tim1.adcInit (t : Tim1) : Tim1 := t.setCompareCh4 ((t.getAutoReload + 1) / 2)

/-- `fd_mc3p_init`, with the scales and the offsets of `setup`. -/
def Core.init (s : Core Number) (p : Platform Number) (setup : Setup) : Core Number :=
  { s with
    tim1 := (s.tim1.init p s.config).adcInit
    mc3p := Driver.init { s.config.setup p.timed setup with
      offsetCalibration := setup.offsetCalibration } }

/-- `fd_mc3p_reconfigure_pwm`. -/
def Core.reconfigurePwm (s : Core Number) (p : Platform Number) : Core Number :=
  { s with
    tim1 := (s.tim1.setAutoReload (calcArr p.pclk2 1 s.config.pwmHz)).setDeadTime
      (calcDeadtime p.pclk2 s.config.deadtimeNs)
    mc3p := s.mc3p.reconfigurePwm p.timed s.config }

/-- `PmsmControlCore::pwmConfigUpdate`. -/
def Core.pwmConfigUpdate (s : Core Number) (p : Platform Number) (cfg : ConfigPwm Number) :
    Core Number :=
  ({ s with
    pwmFreqHz := cfg.pwmFreqHz
    pTickPeriodNs := p.tickPeriodNs cfg.pwmFreqHz
    config := ⟨cfg.pwmFreqHz, cfg.deadtimeNs, cfg.dutyMax, cfg.dutyMin⟩ }).reconfigurePwm p

section Checks

variable [LT Number] [DecidableLT Number]

/-- The checks of `PmsmControl::configPwm`. -/
def ConfigPwm.check (cfg : ConfigPwm Number) (p : Platform Number) : Err :=
  if cfg.pwmFreqHz > maxPwmFrequency ∨ cfg.pwmFreqHz < minPwmFrequency then .configBad
  else if cfg.deadtimeNs > maxDeadtimeNs ∨ cfg.deadtimeNs < minDeadtimeNs then .configBad
  else if cfg.dutyMax < p.zero ∨ cfg.dutyMax > p.maxDuty then .configBad
  else if cfg.dutyMin < p.zero ∨ cfg.dutyMin > p.one then .configBad
  else if cfg.dutyMin > cfg.dutyMax then .configBad
  else .ok

/-- `PmsmControl::configPwm`. The update is a critical section. -/
def Core.configPwm (s : Core Number) (p : Platform Number) (cfg : ConfigPwm Number) :
    Core Number × Err :=
  match cfg.check p with
  | .ok => (s.pwmConfigUpdate p cfg, .ok)
  | err => (s, err)

/-- A call on the controller or, from its loops, on the driver. -/
inductive ControlCall (Number : Type)
  | configPwm (cfg : ConfigPwm Number)
  | driver (call : Call)

def Core.step (p : Platform Number) (s : Core Number) : ControlCall Number → Core Number
  | .configPwm cfg => (s.configPwm p cfg).1
  | .driver call => { s with mc3p := s.mc3p.call call }

/-- The state after `fd_mc3p_init` and the calls. -/
def Core.run (p : Platform Number) (setup : Setup) (s : Core Number)
    (calls : List (ControlCall Number)) : Core Number :=
  calls.foldl (Core.step p) (s.init p setup)

end Checks

/-! ### What the calls keep -/

/-- **The trigger is in the middle of the first period**, the period is that of the configuration,
and the duties are scaled with it. -/
structure Core.Tied (p : Platform Number) (first : UInt32) (s : Core Number) : Prop where
  trigger : s.tim1.ccr4.toNat = p.halfPeriod first
  period : s.tim1.arr = p.reload s.config.pwmHz
  scaled : s.mc3p.timerMax = s.tim1.getAutoReload

theorem Core.tied_init (p : Platform Number) (setup : Setup) (s : Core Number) :
    (s.init p setup).Tied p s.config.pwmHz where
  trigger := by
    have bound := (p.reload s.config.pwmHz).toNat_lt
    show (((p.reload s.config.pwmHz).toUInt32 + 1) / 2).toUInt16.toNat = _
    rw [UInt32.toNat_toUInt16, UInt32.toNat_div, UInt32.toNat_add, UInt16.toNat_toUInt32,
      Platform.halfPeriod]
    show ((p.reload s.config.pwmHz).toNat + 1) % 2 ^ 32 / 2 % 2 ^ 16 = _
    omega
  period := rfl
  scaled := by
    unfold Core.init Driver.init
    dsimp only
    split <;> rfl

/-- Two drivers with the same limits of the duties and the same period. -/
def Driver.SameLimits (d d' : Driver) : Prop :=
  d'.dutyMin = d.dutyMin ∧ d'.dutyMax = d.dutyMax ∧ d'.timerMax = d.timerMax

theorem Driver.SameLimits.trans {d d' d'' : Driver} (first : d.SameLimits d')
    (second : d'.SameLimits d'') : d.SameLimits d'' :=
  ⟨second.1.trans first.1, second.2.1.trans first.2.1, second.2.2.trans first.2.2⟩

section SameLimits

variable (d : Driver)

theorem Driver.writeSvm_sameLimits (alpha beta : Int16) :
    d.SameLimits (d.writeSvm alpha beta) := by
  unfold Driver.writeSvm
  split_ifs <;> exact ⟨rfl, rfl, rfl⟩

theorem Driver.trapMode_sameLimits (sector : Sector) : d.SameLimits (d.trapMode sector) := by
  unfold Driver.trapMode Driver.adcMode
  split_ifs <;> exact ⟨rfl, rfl, rfl⟩

theorem Driver.enterTrap_sameLimits (sector : Sector)
    (phases : PhaseState × PhaseState × PhaseState) (map : TrapMap) :
    d.SameLimits (d.enterTrap sector phases map) := by
  unfold Driver.enterTrap
  split_ifs <;> exact ⟨rfl, rfl, rfl⟩

theorem Driver.writeTrap_sameLimits (sector : Sector) (duty : UInt16) :
    d.SameLimits (d.writeTrap sector duty) := by
  have mode := d.trapMode_sameLimits sector
  simp only [Driver.writeTrap]
  split
  · next phases map _ _ =>
    exact mode.trans ((d.trapMode sector).enterTrap_sameLimits sector phases map)
  · exact mode

theorem Driver.updatePolarity_sameLimits (current : Int32) (bit : UInt8) :
    d.SameLimits (d.updatePolarity current bit) := by
  unfold Driver.updatePolarity
  split_ifs <;> exact ⟨rfl, rfl, rfl⟩

theorem Driver.readSync_sameLimits (analog : Nat → UInt16) :
    d.SameLimits (d.readSync analog).1 := by
  unfold Driver.readSync
  split_ifs
  · exact ((updatePolarity_sameLimits _ _ _).trans (updatePolarity_sameLimits _ _ _)).trans
      (updatePolarity_sameLimits _ _ _)
  · exact updatePolarity_sameLimits _ _ _
  · exact ⟨rfl, rfl, rfl⟩

/-- **The calls on the driver** do not limit or scale the duties anew. -/
theorem Driver.call_sameLimits (call : Call) : d.SameLimits (d.call call) := by
  cases call with
  | svm alpha beta => exact d.writeSvm_sameLimits alpha beta
  | trap sector duty => exact d.writeTrap_sameLimits sector duty
  | float => exact ⟨rfl, rfl, rfl⟩
  | read analog => exact d.readSync_sameLimits analog

end SameLimits

section Runs

variable [LT Number] [DecidableLT Number] {p : Platform Number} {setup : Setup} {s : Core Number}

/-- **What each call keeps.** -/
theorem Core.Tied.step {first : UInt32} (tied : s.Tied p first) (call : ControlCall Number) :
    (s.step p call).Tied p first := by
  cases call with
  | driver call => exact ⟨tied.trigger, tied.period, (s.mc3p.call_sameLimits call).2.2.trans tied.scaled⟩
  | configPwm cfg =>
    unfold Core.step Core.configPwm
    dsimp only
    split
    · exact ⟨tied.trigger, rfl, rfl⟩
    · exact tied

theorem Core.tied_run (p : Platform Number) (setup : Setup) (s : Core Number)
    (calls : List (ControlCall Number)) : (s.run p setup calls).Tied p s.config.pwmHz :=
  List.foldlRecOn calls (Core.step p) (Core.tied_init p setup s) fun _ tied call _ => tied.step call

theorem Core.run_append (before : List (ControlCall Number)) (call : ControlCall Number) :
    s.run p setup (before ++ [call]) = (s.run p setup before).step p call := by
  rw [Core.run, List.foldl_append]
  rfl

/-- The frequency after a call is that of the configuration, if the call is one that is
accepted. -/
theorem Core.step_pwmHz (s : Core Number) (call : ControlCall Number) :
    (s.step p call).config.pwmHz = s.config.pwmHz ∨
      ∃ cfg, call = .configPwm cfg ∧ cfg.check p = .ok ∧
        (s.step p call).config.pwmHz = cfg.pwmFreqHz := by
  cases call with
  | driver call => exact .inl rfl
  | configPwm cfg =>
    unfold Core.step Core.configPwm
    dsimp only
    split
    · next passed => exact .inr ⟨cfg, rfl, passed, rfl⟩
    · exact .inl rfl

/-- **The frequencies of a run** are the first one and those of the configurations that are
accepted. -/
theorem Core.frequency_throughout_iff (Allowed : UInt32 → Prop) (p : Platform Number)
    (setup : Setup) (s : Core Number) (calls : List (ControlCall Number)) :
    (∀ before after, calls = before ++ after → Allowed (s.run p setup before).config.pwmHz) ↔
      Allowed s.config.pwmHz ∧
        ∀ cfg, .configPwm cfg ∈ calls → cfg.check p = .ok → Allowed cfg.pwmFreqHz := by
  constructor
  · intro throughout
    refine ⟨throughout [] calls rfl, fun cfg member passed => ?_⟩
    obtain ⟨before, after, rfl⟩ := List.append_of_mem member
    have next := throughout (before ++ [.configPwm cfg]) after (by simp)
    rw [Core.run_append, Core.step, Core.configPwm, passed] at next
    exact next
  · rintro ⟨started, configured⟩ before after rfl
    have initial : Allowed (s.init p setup).config.pwmHz := started
    refine List.foldlRecOn before (Core.step p)
      (motive := fun s => Allowed s.config.pwmHz) initial ?_
    intro s allowed call member
    rcases s.step_pwmHz call with same | ⟨cfg, rfl, passed, frequency⟩
    · exact same ▸ allowed
    · exact frequency ▸ configured cfg (List.mem_append_left _ member) passed

/-- **The scan is triggered in the middle of every period exactly if every configuration that is
accepted has the half period of the first.** -/
theorem centred_throughout_iff (p : Platform Number) (setup : Setup) (s : Core Number)
    (calls : List (ControlCall Number)) :
    (∀ before after, calls = before ++ after → (s.run p setup before).tim1.Centred) ↔
      ∀ cfg, .configPwm cfg ∈ calls → cfg.check p = .ok →
        p.halfPeriod cfg.pwmFreqHz = p.halfPeriod s.config.pwmHz := by
  have centred (before : List (ControlCall Number)) : (s.run p setup before).tim1.Centred ↔
      p.halfPeriod (s.run p setup before).config.pwmHz = p.halfPeriod s.config.pwmHz := by
    have tied := Core.tied_run p setup s before
    rw [Tim1.centred_iff, tied.trigger, tied.period]
    exact eq_comm
  simp only [centred]
  rw [Core.frequency_throughout_iff fun pwmHz => p.halfPeriod pwmHz = p.halfPeriod s.config.pwmHz]
  exact and_iff_right rfl

/-- **The scan is triggered in every period exactly if none that is accepted is shorter than half of
the first.** -/
theorem fires_throughout_iff (p : Platform Number) (setup : Setup) (s : Core Number)
    (calls : List (ControlCall Number)) :
    (∀ before after, calls = before ++ after →
      (s.run p setup before).tim1.ccr4 ≤ (s.run p setup before).tim1.arr) ↔
      ∀ cfg, .configPwm cfg ∈ calls → cfg.check p = .ok →
        p.halfPeriod s.config.pwmHz ≤ (p.reload cfg.pwmFreqHz).toNat := by
  have fires (before : List (ControlCall Number)) :
      (s.run p setup before).tim1.ccr4 ≤ (s.run p setup before).tim1.arr ↔
        p.halfPeriod s.config.pwmHz ≤
          (p.reload (s.run p setup before).config.pwmHz).toNat := by
    have tied := Core.tied_run p setup s before
    rw [UInt16.le_iff_toNat_le, tied.trigger, tied.period]
  simp only [fires]
  rw [Core.frequency_throughout_iff fun pwmHz =>
    p.halfPeriod s.config.pwmHz ≤ (p.reload pwmHz).toNat]
  refine and_iff_right ?_
  rw [Platform.halfPeriod]
  omega

end Runs

/-! ### The clock of the board -/

/-- **With 84 MHz the half period of a frequency is `21000000 / pwm_Hz`.** -/
theorem halfPeriod_stm32f4 {p : Platform Number} (clock : p.pclk2 = 84000000) {pwmHz : UInt32}
    (low : minPwmFrequency ≤ pwmHz) (high : pwmHz ≤ maxPwmFrequency) :
    p.halfPeriod pwmHz = 21000000 / pwmHz.toNat := by
  rw [UInt32.le_iff_toNat_le] at low high
  have above : 8000 ≤ pwmHz.toNat := low
  have below : pwmHz.toNat ≤ 40000 := high
  have divisor : (pwmHz * (1 + 1)).toNat = pwmHz.toNat * 2 := by
    rw [UInt32.toNat_mul]
    exact Nat.mod_eq_of_lt (by show pwmHz.toNat * 2 < 2 ^ 32; omega)
  have period : (84000000 / (pwmHz * (1 + 1))).toNat = 84000000 / (pwmHz.toNat * 2) := by
    rw [UInt32.toNat_div, divisor]
    rfl
  have least : 1 ≤ 84000000 / (pwmHz.toNat * 2) :=
    (Nat.one_le_div_iff (by omega)).mpr (by omega)
  have greatest : 84000000 / (pwmHz.toNat * 2) ≤ 5250 :=
    Nat.div_le_of_le_mul (by omega)
  have reload : (p.reload pwmHz).toNat = 84000000 / (pwmHz.toNat * 2) - 1 := by
    have enough : (84000000 : UInt32) / (1 + 1) ≥ pwmHz := by
      rw [ge_iff_le, UInt32.le_iff_toNat_le]
      exact Nat.le_trans below (by decide)
    rw [Platform.reload, calcArr, clock, if_pos enough, UInt32.toNat_toUInt16,
      UInt32.toNat_sub_of_le _ _ (by rw [UInt32.le_iff_toNat_le, period]; exact least), period]
    show (84000000 / (pwmHz.toNat * 2) - 1) % 2 ^ 16 = _
    omega
  calc p.halfPeriod pwmHz = 84000000 / (pwmHz.toNat * 2) / 2 := by
        rw [Platform.halfPeriod, reload, Nat.sub_add_cancel least]
    _ = 21000000 * 4 / (pwmHz.toNat * 4) := by rw [Nat.div_div_eq_div_mul, Nat.mul_assoc]
    _ = 21000000 / pwmHz.toNat := Nat.mul_div_mul_right _ _ (by decide)

/-- Limits in thousandths, on the board. -/
def board : Platform Nat where
  pclk2 := 84000000
  conversions := exact
  tickPeriodNs pwmHz := UInt32.ofNat (1000000000 / pwmHz.toNat)
  zero := 0
  one := 1000
  maxDuty := 950

/-- The controller set up for 8 kHz. -/
def slow : Core Nat where
  pwmFreqHz := 8000
  pTickPeriodNs := 125000
  config := ⟨8000, 1000, 950, 0⟩
  mc3p := .zero .zero
  tim1 := ⟨0xFFFF, 0, 0⟩

/-- **From 8 kHz to 40 kHz the scan stops**: the compare value stays at 2625 and the period becomes
1050. -/
theorem not_always_centred :
    ¬ ∀ (Number : Type) (_ : LT Number) (_ : DecidableLT Number) (p : Platform Number)
      (setup : Setup) (s : Core Number) (calls : List (ControlCall Number)),
      minPwmFrequency ≤ s.config.pwmHz → s.config.pwmHz ≤ maxPwmFrequency →
        (s.run p setup calls).tim1.Centred := by
  intro always
  have centred := always Nat inferInstance inferInstance board .zero slow
    [.configPwm ⟨40000, 1000, 0, 950⟩] (by decide) (by decide)
  exact absurd centred.middle (by decide)

end ForgeDrive.Mc3p
