/-
**Which channels the synchronous measurements come from.**

`fd_mc3p_read_sync` computes each field from a rank and a scale, and the field is named after a
signal. No function keeps the two together: `fd_mc3p_write_svm` does not program the scan,
`mc3p_adc_trap_update` does not set the scales of the ranks it programs, and `cu`, `cv` and `cw`
are read one rank too low.

* `programmed_reached` — what the calls do keep: rank 1 and its scale are those of the bus voltage,
  and a trapezoidal sector has its two channels at the ranks 2 and 3;
* `named_throughout_iff` — the measurements come from the channels they are named after as long as
  no call leaves the floating state;
* `not_named` — the first call of `fd_mc3p_write_svm` has the bus voltage for the current of U.
-/

import Mathlib.Data.List.Basic
import ForgeDrive.Mc3p.Driver

namespace ForgeDrive.Mc3p

/-! ### The calls and what is to hold -/

/-- The calls on a driver that is set up. -/
inductive Call
  | svm (alpha beta : Int16)
  | trap (sector : Sector) (duty : UInt16)
  | float
  | read (analog : Nat → UInt16)

def Driver.call (d : Driver) : Call → Driver
  | .svm alpha beta => d.writeSvm alpha beta
  | .trap sector duty => d.writeTrap sector duty
  | .float => d.writeFloat
  | .read analog => (d.readSync analog).1

/-- The driver after `fd_mc3p_init` and the calls. -/
def reached (setup : Setup) (calls : List Call) : Driver :=
  calls.foldl Driver.call (Driver.init setup)

/-- The source is a rank of this channel, and the scale of the signal of this index. -/
def Driver.Converts (d : Driver) (source : Source) (channel : Nat) (index : UInt8) : Prop :=
  d.adc.channel source.rank = channel ∧ d.syncRankScale source.scale = index

/-- The source is a rank programmed to the signal, with its scale. -/
def Driver.Measures (d : Driver) (source : Source) (signal : Sync) : Prop :=
  d.Converts source signal.channel signal.index

/-- **Every measurement comes from the channel it is named after**: in an SVM sector those of the
bus voltage and of the three currents, in a trapezoidal sector those of the entry of the sector. -/
structure Driver.Named (d : Driver) : Prop where
  svm : d.sectorLast.isSvm → d.Measures svmVbus .vsbus ∧ d.Measures svmCu .csu ∧
    d.Measures svmCv .csv ∧ d.Measures svmCw .csw
  trap : ∀ map, adcTrapTable d.sectorLast = some map →
    d.Converts trapVbemf map.rank2Channel map.rank2ScaleIdx ∧
      d.Converts trapCbus map.rank3Channel map.rank3ScaleIdx

/-- The call does not leave the floating state: all three phases have one sign, or the sector is not
a trapezoidal one. -/
def Call.Floats : Call → Prop
  | .svm alpha beta =>
    svmSector (svmPhases alpha beta).1 (svmPhases alpha beta).2.1 (svmPhases alpha beta).2.2 =
      .float
  | .trap sector _ => sector.isTrap = false
  | .float | .read _ => True

/-! ### What the calls keep -/

/-- What holds of the programmed sequence in every state. -/
structure Driver.Programmed (d : Driver) : Prop where
  short : d.adc.length ≤ 4
  bus : d.Measures svmVbus .vsbus
  scale : d.syncRankScale 1 = Sync.vsbus.index ∨ d.syncRankScale 1 = Sync.csu.index
  trap : ∀ map, adcTrapTable d.sectorLast = some map →
    d.adc.channel .rank2 = map.rank2Channel ∧ d.adc.channel .rank3 = map.rank3Channel

theorem adcTrapTable_eq_none {sector : Sector} :
    adcTrapTable sector = none ↔ sector.isTrap = false := by
  cases sector <;> decide

/-- The sector of the signs is none of the trapezoidal ones. -/
theorem isTrap_svmSector (u v w : Int) : (svmSector u v w).isTrap = false := by
  unfold svmSector
  split <;> rfl

/-- A call that leaves the sequence and its scales, and enters no trapezoidal sector. -/
theorem Driver.Programmed.keep {d after : Driver} (programmed : d.Programmed)
    (adc : after.adc = d.adc) (scales : after.syncRankScale = d.syncRankScale)
    (sector : after.sectorLast = d.sectorLast ∨ after.sectorLast.isTrap = false) :
    after.Programmed := by
  obtain ⟨short, bus, scale, trap⟩ := programmed
  refine ⟨by rwa [adc], ?_, by rwa [scales], fun map entry => ?_⟩
  · rw [Driver.Measures, Driver.Converts, adc, scales]
    exact bus
  · rcases sector with same | outside
    · rw [adc]
      exact trap map (same ▸ entry)
    · rw [adcTrapTable_eq_none.mpr outside] at entry
      contradiction

/-- Writing the bridge by space vectors leaves the sequence. -/
theorem Driver.writeSvm_frame (d : Driver) (alpha beta : Int16) :
    (d.writeSvm alpha beta).adc = d.adc ∧
      (d.writeSvm alpha beta).syncRankScale = d.syncRankScale ∧
      (d.writeSvm alpha beta).sectorLast = svmSector (svmPhases alpha beta).1
        (svmPhases alpha beta).2.1 (svmPhases alpha beta).2.2 := by
  unfold Driver.writeSvm
  split_ifs <;> exact ⟨rfl, rfl, rfl⟩

theorem Driver.updatePolarity_frame (d : Driver) (current : Int32) (bit : UInt8) :
    (d.updatePolarity current bit).adc = d.adc ∧
      (d.updatePolarity current bit).syncRankScale = d.syncRankScale ∧
      (d.updatePolarity current bit).sectorLast = d.sectorLast := by
  unfold Driver.updatePolarity
  split_ifs <;> exact ⟨rfl, rfl, rfl⟩

/-- Reading leaves the sequence and the sector. -/
theorem Driver.readSync_frame (d : Driver) (analog : Nat → UInt16) :
    (d.readSync analog).1.adc = d.adc ∧ (d.readSync analog).1.syncRankScale = d.syncRankScale ∧
      (d.readSync analog).1.sectorLast = d.sectorLast := by
  unfold Driver.readSync
  split_ifs <;> simp only [updatePolarity_frame, and_self]

theorem Driver.Programmed.adcMode {d : Driver} (programmed : d.Programmed)
    (outside : d.sectorLast.isTrap = false) (sector : Sector) : (d.adcMode sector).Programmed := by
  have vacuous : ∀ map, adcTrapTable d.sectorLast ≠ some map := by
    simp [adcTrapTable_eq_none.mpr outside]
  unfold Driver.adcMode
  split_ifs
  · exact ⟨Nat.le_refl 4, ⟨rfl, rfl⟩, Or.inr rfl, fun map entry => absurd entry (vacuous map)⟩
  · exact ⟨Nat.le_refl 4, ⟨rfl, rfl⟩, programmed.scale, fun map entry => absurd entry (vacuous map)⟩
  · exact programmed

/-- Entering a trapezoidal sector programs its two channels. -/
theorem Driver.Programmed.enterTrap {d : Driver} (programmed : d.Programmed) {sector : Sector}
    {map : TrapMap} (entry : adcTrapTable sector = some map)
    (phases : PhaseState × PhaseState × PhaseState) :
    (d.enterTrap sector phases map).Programmed := by
  unfold Driver.enterTrap
  split_ifs
  · obtain ⟨short, ⟨rank1, scale0⟩, scale, -⟩ := programmed
    have channel (rank : Rank) :
        ((d.adc.setRank .rank2 map.rank2Channel).setRank .rank3 map.rank3Channel).channel rank =
          if rank = .rank3 then map.rank3Channel
          else if rank = .rank2 then map.rank2Channel else d.adc.channel rank := by
      rw [Sequencer.channel_setRank (s := d.adc.setRank .rank2 map.rank2Channel) short,
        Sequencer.channel_setRank short]
    refine ⟨short, ⟨(channel .rank1).trans rank1, scale0⟩, scale, fun other same => ?_⟩
    obtain rfl : map = other := Option.some.inj (entry.symm.trans same)
    exact ⟨channel .rank2, channel .rank3⟩
  · exact programmed

theorem Driver.Programmed.trapMode {d : Driver} (programmed : d.Programmed) (sector : Sector) :
    (d.trapMode sector).Programmed := by
  unfold Driver.trapMode
  split_ifs with inside
  · exact programmed
  · exact (programmed.adcMode (Bool.eq_false_iff.mpr inside) sector).keep rfl rfl (Or.inl rfl)

theorem Driver.Programmed.writeTrap {d : Driver} (programmed : d.Programmed) (sector : Sector)
    (duty : UInt16) : (d.writeTrap sector duty).Programmed := by
  have moded := programmed.trapMode sector
  simp only [Driver.writeTrap]
  split
  · rename_i phases map _ entry
    exact (moded.enterTrap entry phases).keep rfl rfl (Or.inl rfl)
  · exact moded

/-- A trapezoidal sector that is written is entered. -/
theorem Driver.writeTrap_float_iff (d : Driver) (floating : d.sectorLast = .float) (sector : Sector)
    (duty : UInt16) : (d.writeTrap sector duty).sectorLast = .float ↔ sector.isTrap = false := by
  have moded : (d.trapMode sector).sectorLast = .float := by
    unfold Driver.trapMode Driver.adcMode
    split_ifs <;> exact floating
  simp only [Driver.writeTrap]
  split
  · rename_i phases map _ entry
    have entered : ((d.trapMode sector).enterTrap sector phases map).sectorLast = sector := by
      unfold Driver.enterTrap
      split_ifs with same
      · rfl
      · exact not_not.mp same
    show ((d.trapMode sector).enterTrap sector phases map).sectorLast = .float ↔ _
    rw [entered]
    constructor
    · rintro rfl
      rfl
    · intro outside
      rw [adcTrapTable_eq_none.mpr outside] at entry
      contradiction
  · rename_i outside
    refine iff_of_true moded ?_
    cases sector <;> first | rfl | exact (outside _ _ rfl rfl).elim

/-- **What each call keeps.** -/
theorem Driver.Programmed.call {d : Driver} (programmed : d.Programmed) (call : Call) :
    (d.call call).Programmed := by
  cases call with
  | svm alpha beta =>
    obtain ⟨adc, scales, sector⟩ := d.writeSvm_frame alpha beta
    exact programmed.keep adc scales (Or.inr (sector ▸ isTrap_svmSector _ _ _))
  | trap sector duty => exact programmed.writeTrap sector duty
  | float => exact programmed.keep rfl rfl (Or.inr rfl)
  | read analog =>
    obtain ⟨adc, scales, sector⟩ := d.readSync_frame analog
    exact programmed.keep adc scales (Or.inl sector)

theorem programmed_init (setup : Setup) : (Driver.init setup).Programmed := by
  unfold Driver.init
  split_ifs
  · exact ⟨Nat.le_refl 4, ⟨rfl, rfl⟩, Or.inl rfl, nofun⟩
  · exact ⟨Nat.le_of_ble_eq_true rfl, ⟨rfl, rfl⟩, Or.inl rfl, nofun⟩

/-- **In every state reached rank 1 is the bus voltage, and a trapezoidal sector has its two
channels.** -/
theorem programmed_reached (setup : Setup) (calls : List Call) :
    (reached setup calls).Programmed :=
  List.foldlRecOn calls Driver.call (programmed_init setup)
    fun _ programmed call _ => programmed.call call

/-! ### What the calls miss -/

/-- Neither a space vector sector nor a trapezoidal one. -/
theorem Sector.float_of {sector : Sector} (svm : sector.isSvm = false)
    (trap : sector.isTrap = false) : sector = .float := by
  cases sector <;> first | rfl | contradiction

/-- The scale of `vbemf` is that of a phase voltage, which no call sets. -/
theorem adcTrapTable_scale {sector : Sector} {map : TrapMap}
    (entry : adcTrapTable sector = some map) :
    map.rank2ScaleIdx ≠ Sync.vsbus.index ∧ map.rank2ScaleIdx ≠ Sync.csu.index := by
  cases sector <;> simp only [adcTrapTable, Option.some.injEq, reduceCtorEq] at entry <;>
    subst entry <;> decide

/-- **The measurements are as they are named in the floating state only.** In an SVM sector the
current of U is read from the rank of the bus voltage. -/
theorem Driver.Programmed.named_iff {d : Driver} (programmed : d.Programmed) :
    d.Named ↔ d.sectorLast = .float := by
  constructor
  · intro named
    apply Sector.float_of
    · rw [Bool.eq_false_iff]
      intro svm
      obtain ⟨-, ⟨current, -⟩, -⟩ := named.svm svm
      exact absurd (programmed.bus.1.symm.trans current) (by decide)
    · rw [← adcTrapTable_eq_none, Option.eq_none_iff_forall_ne_some]
      intro map entry
      obtain ⟨-, scale⟩ := (named.trap map entry).1
      obtain ⟨notBus, notCurrent⟩ := adcTrapTable_scale entry
      rcases programmed.scale with bus | current
      · exact notBus (scale.symm.trans bus)
      · exact notCurrent (scale.symm.trans current)
  · intro floating
    constructor <;> rw [floating] <;> nofun

/-- The state after a call on the floating bridge. -/
theorem Driver.call_float_iff {d : Driver} (floating : d.sectorLast = .float) (call : Call) :
    (d.call call).sectorLast = .float ↔ call.Floats := by
  cases call with
  | svm alpha beta => rw [Driver.call, (d.writeSvm_frame alpha beta).2.2, Call.Floats]
  | trap sector duty => exact d.writeTrap_float_iff floating sector duty
  | float => exact iff_of_true rfl trivial
  | read analog => exact iff_of_true ((d.readSync_frame analog).2.2.trans floating) trivial

/-- **The measurements come from the channels they are named after throughout exactly the runs that
never leave the floating state.** -/
theorem named_throughout_iff (setup : Setup) (calls : List Call) :
    (∀ before after, calls = before ++ after → (reached setup before).Named) ↔
      ∀ call ∈ calls, call.Floats := by
  simp only [(programmed_reached setup _).named_iff]
  constructor
  · intro floating call member
    obtain ⟨before, after, rfl⟩ := List.append_of_mem member
    have next := floating (before ++ [call]) after (by simp)
    rw [reached, List.foldl_append] at next
    exact (Driver.call_float_iff (floating before (call :: after) rfl) call).mp next
  · rintro floats before after rfl
    have started : (Driver.init setup).sectorLast = .float := rfl
    refine List.foldlRecOn before Driver.call (motive := fun d => d.sectorLast = .float) started ?_
    intro d floating call member
    exact (Driver.call_float_iff floating call).mpr (floats call (List.mem_append_left _ member))

/-- **After the first space vector the current of U is the bus voltage.** -/
theorem not_named : ¬ ∀ setup calls, (reached setup calls).Named := by
  intro named
  obtain ⟨-, ⟨current, -⟩, -⟩ := (named .zero [.svm 16384 0]).svm (by decide)
  exact absurd current (by decide)

end ForgeDrive.Mc3p
