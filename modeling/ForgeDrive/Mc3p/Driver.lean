/-
**The three phase motor driver `fd_mc3p`** (`driver/stm32f4/fd_mc3p.h`, `driver/stm32f4/fd_mc3p.c`,
with the channels of `fd_driver_conf.h`).

The driver writes the bridge by sectors and reads the injected scan of the ADC. The state is the
handle with what the functions write to the hardware: the injected sequence, the compare values and
the phase states. What the C code computes in floating point from the configuration (the duty
limits, the dead time compensation, the scales and the calibrated offsets) is given by `Setup`.

A conversion of a rank is a conversion of the channel it is programmed to: `analog` says what each
channel reads.
-/

import Mathlib.Logic.Function.Basic

namespace ForgeDrive.Mc3p

/-! ### Sectors, channels, ranks -/

/-- `fd_mc3p_sector_t`. -/
inductive Sector
  | float
  | trap1
  | trap2
  | trap3
  | trap4
  | trap5
  | trap6
  | svm1
  | svm2
  | svm3
  | svm4
  | svm5
  | svm6
  deriving DecidableEq, Repr

/-- `IS_SVM_SECTOR`. -/
def Sector.isSvm : Sector → Bool
  | .svm1 | .svm2 | .svm3 | .svm4 | .svm5 | .svm6 => true
  | _ => false

/-- `IS_TRAP_SECTOR`. -/
def Sector.isTrap : Sector → Bool
  | .trap1 | .trap2 | .trap3 | .trap4 | .trap5 | .trap6 => true
  | _ => false

/-- `fd_mc3p_mode_t`. -/
inductive Mode
  | none
  | trap
  | svm
  | calib
  deriving DecidableEq, Repr

/-- `fd_mc3p_phase_state_t`. -/
inductive PhaseState
  | float
  | hPwm
  | lPwm
  | comp
  | hOn
  | lOn
  deriving DecidableEq, Repr

/-- `fd_mc3p_sync`. -/
inductive Sync
  | vsbus
  | vsu
  | vsv
  | vsw
  | csu
  | csv
  | csw
  deriving DecidableEq, Repr

/-- The value of an `fd_mc3p_sync`, the index of its scale. -/
def Sync.index : Sync → UInt8
  | .vsbus => 0
  | .vsu => 1
  | .vsv => 2
  | .vsw => 3
  | .csu => 4
  | .csv => 5
  | .csw => 6

/-- `FD_MC3P_…_ADC_CHANNEL`: the number of the channel. -/
def Sync.channel : Sync → Nat
  | .vsbus => 0
  | .vsu => 1
  | .vsv => 2
  | .vsw => 3
  | .csu => 4
  | .csv => 5
  | .csw => 6

/-- `LL_ADC_INJ_RANK_…`. -/
inductive Rank
  | rank1
  | rank2
  | rank3
  | rank4
  deriving DecidableEq, Repr

def Rank.number : Rank → Nat
  | .rank1 => 1
  | .rank2 => 2
  | .rank3 => 3
  | .rank4 => 4

/-- The register `JSQR`: the length of the injected sequence and its four slots. -/
structure Sequencer where
  length : Nat
  slots : Nat → Nat

/-- `JSQR` after a reset. `LL_ADC_INJ_Init` leaves it so, as the converter is already enabled. -/
def Sequencer.reset : Sequencer := ⟨1, fun _ => 0⟩

/-- The slot of a rank: sequences shorter than four end at the last slot. -/
def Sequencer.slot (s : Sequencer) (rank : Rank) : Nat := rank.number + 3 - s.length

/-- `LL_ADC_INJ_SetSequencerLength(ADC1, LL_ADC_INJ_SEQ_SCAN_ENABLE_4RANKS)`. -/
def Sequencer.enable4Ranks (s : Sequencer) : Sequencer := { s with length := 4 }

/-- `LL_ADC_INJ_SetSequencerRanks`. -/
def Sequencer.setRank (s : Sequencer) (rank : Rank) (channel : Nat) : Sequencer :=
  { s with slots := fun slot => if slot = s.slot rank then channel else s.slots slot }

/-- The channel a rank is programmed to. -/
def Sequencer.channel (s : Sequencer) (rank : Rank) : Nat := s.slots (s.slot rank)

/-- The ranks of a sequence have slots of their own. -/
theorem Sequencer.slot_inj {s : Sequencer} (short : s.length ≤ 4) {rank other : Rank} :
    s.slot other = s.slot rank ↔ other = rank := by
  constructor
  · intro same
    cases rank <;> cases other <;> simp only [slot, Rank.number] at same <;> first | rfl | omega
  · rintro rfl
    rfl

/-- Programming a rank leaves the channels of the others. -/
theorem Sequencer.channel_setRank {s : Sequencer} (short : s.length ≤ 4) (rank other : Rank)
    (channel : Nat) :
    (s.setRank rank channel).channel other = if other = rank then channel else s.channel other := by
  show (if s.slot other = s.slot rank then channel else s.slots (s.slot other)) = _
  simp only [slot_inj short]
  rfl

/-! ### The state -/

/-- What the driver is set up with: the results of the computations in floating point. -/
structure Setup where
  timerMax : UInt32
  dutyMax : UInt16
  dutyMin : UInt16
  dtcComp : UInt16
  dtcThreshold : Int32
  syncScale : UInt8 → Int32 × Int32
  offsetCalibration : Bool
  offsets : UInt8 → Int32

/-- A setup with all limits and scales zero. -/
def Setup.zero : Setup where
  timerMax := 0
  dutyMax := 0
  dutyMin := 0
  dtcComp := 0
  dtcThreshold := 0
  syncScale := fun _ => (0, 0)
  offsetCalibration := false
  offsets := fun _ => 0

/-- `fd_mc3p_handle_t`, with the hardware it writes. -/
structure Driver where
  mode : Mode
  sectorLast : Sector
  timerMax : UInt32
  dutyMax : UInt16
  dutyMin : UInt16
  dutyU : Int16
  dutyV : Int16
  dutyW : Int16
  syncScale : UInt8 → Int32 × Int32
  syncRankScale : Nat → UInt8
  dtcComp : UInt16
  dtcThreshold : Int32
  dtcState : UInt8
  adc : Sequencer
  phases : PhaseState × PhaseState × PhaseState
  ccr1 : UInt32
  ccr2 : UInt32
  ccr3 : UInt32

/-! ### Writing the bridge -/

/-- `SATURATE`. Below the lower limit the value is zero. -/
def saturate (value : Int) (min max : UInt16) : Int :=
  if value > max.toNat then max.toNat else if value < min.toNat then 0 else value

/-- The compare value of a duty. -/
def Driver.compare (d : Driver) (duty : Int16) : UInt32 :=
  (UInt32.ofInt (saturate duty.toInt d.dutyMin d.dutyMax) * d.timerMax) >>> 15

/-- `fd_mc3p_write_phase_state`. -/
def Driver.writePhaseState (d : Driver) (u v w : PhaseState) : Driver :=
  { d with phases := (u, v, w) }

/-- `fd_mc3p_write_phase_duty`. -/
def Driver.writePhaseDuty (d : Driver) (u v w : Int16) : Driver :=
  { d with ccr1 := d.compare u, ccr2 := d.compare v, ccr3 := d.compare w }

/-- `fd_mc3p_write_float`. -/
def Driver.writeFloat (d : Driver) : Driver :=
  { (d.writePhaseState .float .float .float).writePhaseDuty 0 0 0 with sectorLast := .float }

/-- `__SSAT(value, 16)`. -/
def ssat16 (value : Int) : Int16 := Int16.ofInt (max (-32768) (min 32767 value))

/-- A duty with the dead time compensation of the polarity at `bit`. -/
def Driver.compensate (d : Driver) (duty : Int) (bit : UInt8) : Int16 :=
  ssat16 (duty + if d.dtcState &&& bit ≠ 0 then (d.dtcComp.toNat : Int) else -d.dtcComp.toNat)

/-- `trap_table`: the states of the three phases. -/
def trapTable : Sector → Option (PhaseState × PhaseState × PhaseState)
  | .trap1 => some (.comp, .lOn, .float)
  | .trap2 => some (.comp, .float, .lOn)
  | .trap3 => some (.float, .comp, .lOn)
  | .trap4 => some (.lOn, .comp, .float)
  | .trap5 => some (.lOn, .float, .comp)
  | .trap6 => some (.float, .lOn, .comp)
  | _ => none

/-- An entry of `adc_trap_table`: the channels of the ranks 2 and 3, and the indices of their
scales. -/
structure TrapMap where
  rank2Channel : Nat
  rank3Channel : Nat
  rank2ScaleIdx : UInt8
  rank3ScaleIdx : UInt8
  deriving DecidableEq, Repr

/-- An entry for two signals. -/
def TrapMap.of (rank2 rank3 : Sync) : TrapMap :=
  ⟨rank2.channel, rank3.channel, rank2.index, rank3.index⟩

/-- `adc_trap_table`. -/
def adcTrapTable : Sector → Option TrapMap
  | .trap1 => some (.of .vsw .csv)
  | .trap2 => some (.of .vsv .csw)
  | .trap3 => some (.of .vsu .csw)
  | .trap4 => some (.of .vsw .csu)
  | .trap5 => some (.of .vsv .csu)
  | .trap6 => some (.of .vsu .csv)
  | _ => none

/-- The four ranks of a scan, and the scan of four ranks. -/
def Sequencer.scan (s : Sequencer) (first second third fourth : Sync) : Sequencer :=
  ((((s.enable4Ranks).setRank .rank1 first.channel).setRank .rank2 second.channel).setRank .rank3
    third.channel).setRank .rank4 fourth.channel

/-- The scales of four ranks. -/
def rankScales (first second third fourth : Sync) : Nat → UInt8
  | 0 => first.index
  | 1 => second.index
  | 2 => third.index
  | 3 => fourth.index
  | _ => 0

/-- `mc3p_adc_mode`. A trapezoidal sector programs the first rank only. -/
def Driver.adcMode (d : Driver) (sector : Sector) : Driver :=
  if sector.isSvm then
    { d with
      adc := d.adc.scan .vsbus .csu .csv .csw
      syncRankScale := rankScales .vsbus .csu .csv .csw }
  else if sector.isTrap then
    { d with
      adc := d.adc.enable4Ranks.setRank .rank1 Sync.vsbus.channel
      syncRankScale := Function.update d.syncRankScale 0 Sync.vsbus.index }
  else d

/-- `mc3p_adc_trap_update`. The scales of the two ranks are not touched. -/
def Driver.adcTrapUpdate (d : Driver) (map : TrapMap) : Driver :=
  { d with adc := (d.adc.setRank .rank2 map.rank2Channel).setRank .rank3 map.rank3Channel }

/-- The new sector of `fd_mc3p_write_trap`. -/
def Driver.enterTrap (d : Driver) (sector : Sector)
    (phases : PhaseState × PhaseState × PhaseState) (map : TrapMap) : Driver :=
  if d.sectorLast ≠ sector then
    { (d.writePhaseState phases.1 phases.2.1 phases.2.2).adcTrapUpdate map with
      sectorLast := sector }
  else d

/-- The mode switch of `fd_mc3p_write_trap`: the sector may be any. -/
def Driver.trapMode (d : Driver) (sector : Sector) : Driver :=
  if d.sectorLast.isTrap then d else { d.adcMode sector with mode := .trap }

/-- `fd_mc3p_write_trap`. -/
def Driver.writeTrap (d : Driver) (sector : Sector) (duty : UInt16) : Driver :=
  let d := d.trapMode sector
  match trapTable sector, adcTrapTable sector with
  | some phases, some map =>
    let d := d.enterTrap sector phases map
    let u := d.compensate duty.toNat ((1 : UInt8) <<< 3)
    ({ d with dutyU := u, dutyV := u, dutyW := u }).writePhaseDuty u u u
  | _, _ => d

/-- The sector of the signs of the three phases. -/
def svmSector (u v w : Int) : Sector :=
  match decide (w ≥ 0), decide (v ≥ 0), decide (u ≥ 0) with
  | false, false, true => .svm1
  | false, true, true => .svm2
  | false, true, false => .svm3
  | true, true, false => .svm4
  | true, false, false => .svm5
  | true, false, true => .svm6
  | _, _, _ => .float

/-- The three phases of α and β. -/
def svmPhases (alpha beta : Int16) : Int × Int × Int :=
  (alpha.toInt,
    (-16384 * alpha.toInt + 28378 * beta.toInt) >>> (15 : Nat),
    (-16384 * alpha.toInt - 28378 * beta.toInt) >>> (15 : Nat))

/-- `fd_mc3p_write_svm`. The injected sequence is not touched. -/
def Driver.writeSvm (d : Driver) (alpha beta : Int16) : Driver :=
  let d := if d.sectorLast.isSvm then d
    else { d.writePhaseState .comp .comp .comp with mode := .svm }
  let (u, v, w) := svmPhases alpha beta
  let sector := svmSector u v w
  let offset := (max (max u v) w + min (min u v) w) >>> (1 : Nat)
  let dutyU := d.compensate (u - offset + 16384) ((1 : UInt8) <<< 0)
  let dutyV := d.compensate (v - offset + 16384) ((1 : UInt8) <<< 1)
  let dutyW := d.compensate (w - offset + 16384) ((1 : UInt8) <<< 2)
  let d := ({ d with dutyU := dutyU, dutyV := dutyV, dutyW := dutyW }).writePhaseDuty
    dutyU dutyV dutyW
  { d with sectorLast := sector }

/-! ### Setting up -/

/-- The offset of a signal, as calibrated. -/
def Driver.calibrate (d : Driver) (offsets : UInt8 → Int32) (signal : Sync) : Driver :=
  { d with
    syncScale := fun index =>
      if index = signal.index then ((d.syncScale index).1, offsets index) else d.syncScale index }

/-- `mc3p_offset_calibration`, when the samples of its two scans are in. -/
def Driver.offsetCalibration (d : Driver) (offsets : UInt8 → Int32) : Driver :=
  let d := { d with mode := .calib }
  let d := (d.writePhaseState .lOn .lOn .lOn).writePhaseDuty 0 0 0
  let d := { d with adc := d.adc.scan .vsbus .csu .csv .csw }
  let d := ((d.calibrate offsets .csu).calibrate offsets .csv).calibrate offsets .csw
  let d := { d with adc := d.adc.scan .vsbus .vsu .vsv .vsw }
  let d := ((d.calibrate offsets .vsu).calibrate offsets .vsv).calibrate offsets .vsw
  { d with mode := .none }.writeFloat

/-- The zeroed handle with the limits and scales of the setup, and the hardware after a reset. -/
def Driver.zero (setup : Setup) : Driver where
  mode := .none
  sectorLast := .float
  timerMax := setup.timerMax
  dutyMax := setup.dutyMax
  dutyMin := setup.dutyMin
  dutyU := 0
  dutyV := 0
  dutyW := 0
  syncScale := setup.syncScale
  syncRankScale := fun _ => 0
  dtcComp := setup.dtcComp
  dtcThreshold := setup.dtcThreshold
  dtcState := 0
  adc := .reset
  phases := (.float, .float, .float)
  ccr1 := 0
  ccr2 := 0
  ccr3 := 0

/-- `fd_mc3p_init`. -/
def Driver.init (setup : Setup) : Driver :=
  let d := Driver.zero setup
  let d := if setup.offsetCalibration then d.offsetCalibration setup.offsets else d
  d.writeFloat

/-! ### Reading the scan -/

/-- What a field of the measurement is computed from: a rank, and an index into
`sync_rank_scale`. -/
structure Source where
  rank : Rank
  scale : Nat
  deriving DecidableEq, Repr

/-- The sources of `vbus_q31`, `cu_q31`, `cv_q31` and `cw_q31`. -/
def svmVbus : Source := ⟨.rank1, 0⟩
def svmCu : Source := ⟨.rank1, 1⟩
def svmCv : Source := ⟨.rank2, 2⟩
def svmCw : Source := ⟨.rank3, 3⟩

/-- The sources of `vbus_q31`, `vbemf_q31` and `cbus_q31`. -/
def trapVbus : Source := ⟨.rank1, 0⟩
def trapVbemf : Source := ⟨.rank2, 1⟩
def trapCbus : Source := ⟨.rank3, 2⟩

/-- The value of a source, with what each channel converts to. -/
def Driver.measure (d : Driver) (analog : Nat → UInt16) (source : Source) : Int32 :=
  let scale := d.syncScale (d.syncRankScale source.scale)
  scale.1 * Int32.ofNat (analog (d.adc.channel source.rank)).toNat + scale.2

/-- The data `fd_mc3p_read_sync` fills in. -/
inductive SyncData
  | svm (vbus cu cv cw : Int32)
  | trap (vbus vbemf cbus : Int32)
  | bus (vbus : Int32)
  deriving DecidableEq, Repr

/-- `DTC_UPDATE_POLARITY`. -/
def Driver.updatePolarity (d : Driver) (current : Int32) (bit : UInt8) : Driver :=
  if current > d.dtcThreshold then { d with dtcState := d.dtcState ||| bit }
  else if current < -d.dtcThreshold then { d with dtcState := d.dtcState &&& ~~~bit }
  else d

/-- `fd_mc3p_read_sync`. -/
def Driver.readSync (d : Driver) (analog : Nat → UInt16) : Driver × SyncData :=
  if d.sectorLast.isSvm then
    let cu := d.measure analog svmCu
    let cv := d.measure analog svmCv
    let cw := d.measure analog svmCw
    let updated := ((d.updatePolarity cu ((1 : UInt8) <<< 0)).updatePolarity cv
      ((1 : UInt8) <<< 1)).updatePolarity cw ((1 : UInt8) <<< 2)
    (updated, .svm (d.measure analog svmVbus) cu cv cw)
  else if d.sectorLast.isTrap then
    let cbus := d.measure analog trapCbus
    (d.updatePolarity cbus ((1 : UInt8) <<< 3),
      .trap (d.measure analog trapVbus) (d.measure analog trapVbemf) cbus)
  else (d, .bus (d.measure analog svmVbus))

end ForgeDrive.Mc3p
