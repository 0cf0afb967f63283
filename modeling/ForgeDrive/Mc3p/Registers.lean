/-
**The phase states in the registers of TIM1** (`driver/stm32f4/fd_mc3p.c`, with the bits of
`stm32f401xc.h`).

`fd_mc3p_write_phase_state` changes three registers that hold more than the states of the phases: in
`CCER` the polarities and the channel that triggers the ADC, in `CCMR1` and `CCMR2` the preload bits
and the mode of that channel. `mc3p_tim1_init` enables the preload of the channels
(`LL_TIM_CC_EnablePreload`), so what is written is used from the next commutation event on, which
the function generates at its end.

* `shadows_phases` — what is written means the states that were asked for;
* `shadows_beside` — and leaves all other bits;
* `registers_refine` — in every run of the driver, at every single write to a register, the bridge
  is in the phase states before the call or in those after it.
-/

import Mathlib.Data.Bool.Basic
import ForgeDrive.Mc3p.SyncChannels

namespace ForgeDrive.Mc3p

/-! ### The registers -/

/-- The positions of `CCxE`, `CCxNE` and `OCxM` of a channel. -/
structure Channel where
  ccePos : Nat
  ccnePos : Nat
  ocmPos : Nat

/-- `CC1E_MASK`, `CC1NE_MASK`, and the bits `OC1M_…` in `CCMR1`. -/
def channel1 : Channel := ⟨0, 2, 4⟩

/-- `CC2E_MASK`, `CC2NE_MASK`, and the bits `OC2M_…` in `CCMR1`. -/
def channel2 : Channel := ⟨4, 6, 12⟩

/-- `CC3E_MASK`, `CC3NE_MASK`, and the bits `OC3M_…` in `CCMR2`. -/
def channel3 : Channel := ⟨8, 10, 4⟩

/-- `CCxE_MASK`. -/
def Channel.ccE (c : Channel) : BitVec 32 := 1#32 <<< c.ccePos

/-- `CCxNE_MASK`. -/
def Channel.ccNE (c : Channel) : BitVec 32 := 1#32 <<< c.ccnePos

/-- The bits of a mode at the place of `OCxM`. -/
def Channel.ocm (c : Channel) (mode : BitVec 3) : BitVec 32 := mode.setWidth 32 <<< c.ocmPos

/-- `OCxM_MASK`. -/
def Channel.ocmMask (c : Channel) : BitVec 32 := c.ocm 0b111#3

/-- `OCxM_PWM`. -/
def Channel.ocmPwm (c : Channel) : BitVec 32 := c.ocm 0b110#3

/-- `OCxM_ACTIVE`. -/
def Channel.ocmActive (c : Channel) : BitVec 32 := c.ocm 0b101#3

/-- `OCxM_INACTIVE`. -/
def Channel.ocmInactive (c : Channel) : BitVec 32 := c.ocm 0b100#3

/-- `CCER`, `CCMR1` and `CCMR2`. -/
structure Registers where
  ccer : BitVec 32
  ccmr1 : BitVec 32
  ccmr2 : BitVec 32

/-- The registers as they are written and read, and as the last commutation event took them over. -/
structure Timer where
  preload : Registers
  active : Registers

/-- The writes to the registers; `comg` is that of `TIM_EGR_COMG` to `EGR`. -/
inductive RegisterWrite
  | ccer (value : BitVec 32)
  | ccmr1 (value : BitVec 32)
  | ccmr2 (value : BitVec 32)
  | comg

def Timer.apply (t : Timer) : RegisterWrite → Timer
  | .ccer value => { t with preload.ccer := value }
  | .ccmr1 value => { t with preload.ccmr1 := value }
  | .ccmr2 value => { t with preload.ccmr2 := value }
  | .comg => { t with active := t.preload }

/-- The bits of the phases in `CCER`, `CCMR1` and `CCMR2`. -/
def phaseBits : Registers where
  ccer := channel1.ccE ||| channel2.ccE ||| channel3.ccE ||| channel1.ccNE ||| channel2.ccNE |||
    channel3.ccNE
  ccmr1 := channel1.ocmMask ||| channel2.ocmMask
  ccmr2 := channel3.ocmMask

/-- The other bits: the polarities, the preload bits, and the channel that triggers the ADC. -/
def Registers.beside (r : Registers) : Registers where
  ccer := r.ccer &&& ~~~phaseBits.ccer
  ccmr1 := r.ccmr1 &&& ~~~phaseBits.ccmr1
  ccmr2 := r.ccmr2 &&& ~~~phaseBits.ccmr2

/-! ### Writing the phase states -/

/-- The `switch` on the state of a phase, with the shadows of its mode register and of `CCER`. -/
def Channel.switch (c : Channel) (state : PhaseState) (ccmr ccer : BitVec 32) :
    BitVec 32 × BitVec 32 :=
  match state with
  | .float => (ccmr ||| c.ocmInactive, ccer &&& ~~~c.ccE)
  | .lOn => (ccmr ||| c.ocmInactive, ccer)
  | .hOn => (ccmr ||| c.ocmActive, ccer)
  | .comp => (ccmr ||| c.ocmPwm, ccer)
  | .lPwm => (ccmr ||| c.ocmPwm, ccer &&& ~~~c.ccE)
  | .hPwm => (ccmr ||| c.ocmPwm, ccer &&& ~~~c.ccNE)

/-- `fd_mc3p_write_phase_state`: the shadows after the three switches. -/
def Registers.shadows (r : Registers) (u v w : PhaseState) : Registers :=
  let ccer := r.ccer ||| (channel1.ccE ||| channel2.ccE ||| channel3.ccE ||| channel1.ccNE |||
    channel2.ccNE ||| channel3.ccNE)
  let ccmr1 := r.ccmr1 &&& ~~~(channel1.ocmMask ||| channel2.ocmMask)
  let ccmr2 := r.ccmr2 &&& ~~~channel3.ocmMask
  let (ccmr1, ccer) := channel1.switch u ccmr1 ccer
  let (ccmr1, ccer) := channel2.switch v ccmr1 ccer
  let (ccmr2, ccer) := channel3.switch w ccmr2 ccer
  ⟨ccer, ccmr1, ccmr2⟩

/-- `fd_mc3p_write_phase_state`: the writes at its end. -/
def Timer.phaseWrites (t : Timer) (u v w : PhaseState) : List RegisterWrite :=
  let shadows := t.preload.shadows u v w
  [.ccer shadows.ccer, .ccmr1 shadows.ccmr1, .ccmr2 shadows.ccmr2, .comg]

/-! ### What the registers mean -/

/-- The mode of a state. -/
def PhaseState.mode : PhaseState → BitVec 3
  | .float | .lOn => 0b100#3
  | .hOn => 0b101#3
  | .comp | .lPwm | .hPwm => 0b110#3

/-- Whether the output of the high side is enabled. -/
def PhaseState.high : PhaseState → Bool
  | .float | .lPwm => false
  | .lOn | .hOn | .comp | .hPwm => true

/-- Whether the output of the low side is enabled. -/
def PhaseState.low : PhaseState → Bool
  | .hPwm => false
  | .float | .lOn | .hOn | .comp | .lPwm => true

/-- The state with these bits. -/
def phaseState (high low : Bool) (mode : BitVec 3) : Option PhaseState :=
  [PhaseState.float, .hPwm, .lPwm, .comp, .hOn, .lOn].find? fun state =>
    state.high = high ∧ state.low = low ∧ state.mode = mode

/-- The state of the phase of a channel. -/
def Channel.state (c : Channel) (ccmr ccer : BitVec 32) : Option PhaseState :=
  phaseState (ccer.getLsbD c.ccePos) (ccer.getLsbD c.ccnePos) (ccmr.extractLsb' c.ocmPos 3)

/-- The states of the three phases. -/
def Registers.phases (r : Registers) : Option (PhaseState × PhaseState × PhaseState) :=
  (channel1.state r.ccmr1 r.ccer).bind fun u => (channel2.state r.ccmr1 r.ccer).bind fun v =>
    (channel3.state r.ccmr2 r.ccer).map fun w => (u, v, w)

/-- **The bits of a state are of no other.** -/
theorem phaseState_bits (state : PhaseState) :
    phaseState state.high state.low state.mode = some state := by
  cases state <;> decide

/-! ### The bits that are written -/

/-- The mode register of a switch. -/
theorem switch_fst (c : Channel) (state : PhaseState) (ccmr ccer : BitVec 32) :
    (c.switch state ccmr ccer).1 = ccmr ||| c.ocm state.mode := by
  cases state <;> rfl

/-- Clearing a bit leaves the others. -/
theorem getLsbD_clear (value : BitVec 32) (pos i : Nat) :
    (value &&& ~~~(1#32 <<< pos)).getLsbD i = (value.getLsbD i && !(i == pos)) := by
  rw [← BitVec.twoPow_eq, BitVec.getLsbD_and, BitVec.getLsbD_not, BitVec.getLsbD_twoPow]
  by_cases inside : i < 32
  · grind
  · simp [BitVec.getLsbD_of_ge value i (Nat.le_of_not_lt inside)]

/-- A bit of `CCER` after a switch: it clears the enable bits the state has not. -/
theorem getLsbD_switch_snd (c : Channel) (state : PhaseState) (ccmr ccer : BitVec 32) (i : Nat) :
    (c.switch state ccmr ccer).2.getLsbD i = (ccer.getLsbD i &&
      !(i == c.ccePos && !state.high) && !(i == c.ccnePos && !state.low)) := by
  cases state <;> simp [Channel.switch, PhaseState.high, PhaseState.low, Channel.ccE,
    Channel.ccNE, getLsbD_clear, -BitVec.getLsbD_and, -BitVec.getLsbD_not, -BitVec.getLsbD_shiftLeft]

/-- **The bits of `CCER` that are written**: the two enable bits of each phase, and no others. -/
theorem getLsbD_shadows_ccer (r : Registers) (u v w : PhaseState) (i : Nat) :
    (r.shadows u v w).ccer.getLsbD i =
      if i = 0 then u.high else if i = 2 then u.low else if i = 4 then v.high
      else if i = 6 then v.low else if i = 8 then w.high else if i = 10 then w.low
      else r.ccer.getLsbD i := by
  simp only [Registers.shadows, getLsbD_switch_snd]
  simp only [Channel.ccE, Channel.ccNE, channel1, channel2, channel3, BitVec.getLsbD_or,
    ← BitVec.twoPow_eq, BitVec.getLsbD_twoPow]
  grind

/-- A bit of a mode at its place. -/
theorem getLsbD_ocm (c : Channel) (mode : BitVec 3) {i : Nat} (inside : i < 32) :
    (c.ocm mode).getLsbD i = (decide (c.ocmPos ≤ i) && mode.getLsbD (i - c.ocmPos)) := by
  have within : i - c.ocmPos < 32 := by omega
  simp only [Channel.ocm, BitVec.getLsbD_shiftLeft, BitVec.getLsbD_setWidth, inside, within,
    decide_true, Bool.true_and]
  grind

/-- A bit of the mask of the mode. -/
theorem getLsbD_ocmMask (c : Channel) {i : Nat} (inside : i < 32) :
    c.ocmMask.getLsbD i = decide (c.ocmPos ≤ i ∧ i < c.ocmPos + 3) := by
  rw [Channel.ocmMask, getLsbD_ocm c _ inside, show 0b111#3 = BitVec.allOnes 3 from rfl,
    BitVec.getLsbD_allOnes]
  grind

/-- **The bits of `CCMR1` that are written**: the modes of U and V, and no others. -/
theorem getLsbD_shadows_ccmr1 (r : Registers) (u v w : PhaseState) (i : Nat) :
    (r.shadows u v w).ccmr1.getLsbD i =
      if 4 ≤ i ∧ i < 7 then u.mode.getLsbD (i - 4)
      else if 12 ≤ i ∧ i < 15 then v.mode.getLsbD (i - 12) else r.ccmr1.getLsbD i := by
  simp only [Registers.shadows, switch_fst]
  by_cases inside : i < 32
  · simp only [BitVec.getLsbD_or, BitVec.getLsbD_and, BitVec.getLsbD_not, getLsbD_ocm _ _ inside,
      getLsbD_ocmMask _ inside]
    have high (mode : BitVec 3) (j : Nat) (beyond : 3 ≤ j) : mode.getLsbD j = false :=
      BitVec.getLsbD_of_ge mode j beyond
    grind [channel1, channel2]
  · grind

/-- **The bits of `CCMR2` that are written**: the mode of W, and no others. -/
theorem getLsbD_shadows_ccmr2 (r : Registers) (u v w : PhaseState) (i : Nat) :
    (r.shadows u v w).ccmr2.getLsbD i =
      if 4 ≤ i ∧ i < 7 then w.mode.getLsbD (i - 4) else r.ccmr2.getLsbD i := by
  simp only [Registers.shadows, switch_fst]
  by_cases inside : i < 32
  · simp only [BitVec.getLsbD_or, BitVec.getLsbD_and, BitVec.getLsbD_not, getLsbD_ocm _ _ inside,
      getLsbD_ocmMask _ inside]
    have high (mode : BitVec 3) (j : Nat) (beyond : 3 ≤ j) : mode.getLsbD j = false :=
      BitVec.getLsbD_of_ge mode j beyond
    grind [channel3]
  · grind

/-- A mode is read from the bits it is written to. -/
theorem extractLsb_eq {value : BitVec 32} {pos : Nat} {mode : BitVec 3}
    (written : ∀ i < 3, value.getLsbD (pos + i) = mode.getLsbD i) :
    value.extractLsb' pos 3 = mode := by
  apply BitVec.eq_of_getLsbD_eq
  intro i inside
  rw [BitVec.getLsbD_extractLsb', written i inside, decide_eq_true inside, Bool.true_and]

/-- **What is written means the states that were asked for.** -/
theorem shadows_phases (r : Registers) (u v w : PhaseState) :
    (r.shadows u v w).phases = some (u, v, w) := by
  have modeU : (r.shadows u v w).ccmr1.extractLsb' 4 3 = u.mode := by
    apply extractLsb_eq
    intro i inside
    rw [getLsbD_shadows_ccmr1, if_pos (by omega), Nat.add_sub_cancel_left]
  have modeV : (r.shadows u v w).ccmr1.extractLsb' 12 3 = v.mode := by
    apply extractLsb_eq
    intro i inside
    rw [getLsbD_shadows_ccmr1, if_neg (by omega), if_pos (by omega), Nat.add_sub_cancel_left]
  have modeW : (r.shadows u v w).ccmr2.extractLsb' 4 3 = w.mode := by
    apply extractLsb_eq
    intro i inside
    rw [getLsbD_shadows_ccmr2, if_pos (by omega), Nat.add_sub_cancel_left]
  simp only [Registers.phases, Channel.state, channel1, channel2, channel3, modeU, modeV, modeW,
    getLsbD_shadows_ccer]
  simp [phaseState_bits]

/-- **All other bits are left as they are.** -/
theorem shadows_beside (r : Registers) (u v w : PhaseState) :
    (r.shadows u v w).beside = r.beside := by
  simp only [Registers.beside, Registers.mk.injEq]
  refine ⟨?_, ?_, ?_⟩
  · apply BitVec.eq_of_getLsbD_eq
    intro i inside
    simp only [BitVec.getLsbD_and, BitVec.getLsbD_not, getLsbD_shadows_ccer, phaseBits,
      BitVec.getLsbD_or, Channel.ccE, Channel.ccNE, channel1, channel2, channel3,
      ← BitVec.twoPow_eq, BitVec.getLsbD_twoPow]
    grind
  · apply BitVec.eq_of_getLsbD_eq
    intro i inside
    simp only [BitVec.getLsbD_and, BitVec.getLsbD_not, getLsbD_shadows_ccmr1, phaseBits,
      BitVec.getLsbD_or, getLsbD_ocmMask _ inside]
    grind [channel1, channel2]
  · apply BitVec.eq_of_getLsbD_eq
    intro i inside
    simp only [BitVec.getLsbD_and, BitVec.getLsbD_not, getLsbD_shadows_ccmr2, phaseBits,
      getLsbD_ocmMask _ inside]
    grind [channel3]

/-! ### The runs of the driver -/

/-- The states of U, V and W. -/
abbrev ThreePhases := PhaseState × PhaseState × PhaseState

/-- The phase states `fd_mc3p_init` writes: those of `mc3p_offset_calibration`, and the last. -/
def initStates (setup : Setup) : List ThreePhases :=
  (if setup.offsetCalibration then [(.lOn, .lOn, .lOn), (.float, .float, .float)] else []) ++
    [(.float, .float, .float)]

/-- The phase states a call writes. -/
def Driver.phaseStates (d : Driver) : Call → List ThreePhases
  | .svm _ _ => if d.sectorLast.isSvm then [] else [(.comp, .comp, .comp)]
  | .trap sector _ => if d.sectorLast ≠ sector then (trapTable sector).toList else []
  | .float => [(.float, .float, .float)]
  | .read _ => []

/-- The writes to the registers for a list of phase states. -/
def Timer.writes (t : Timer) : List ThreePhases → List RegisterWrite
  | [] => []
  | (u, v, w) :: rest =>
    t.phaseWrites u v w ++ ((t.phaseWrites u v w).foldl Timer.apply t).writes rest

/-- The timer after the writes for a list of phase states. -/
def Timer.written (t : Timer) (states : List ThreePhases) : Timer :=
  (t.writes states).foldl Timer.apply t

/-- The driver and the timer after a call. -/
def callTimed (now : Driver × Timer) (call : Call) : Driver × Timer :=
  (now.1.call call, now.2.written (now.1.phaseStates call))

/-- The driver and the timer after `fd_mc3p_init` and the calls, from the timer as
`mc3p_tim1_init` leaves it. -/
def reachedTimed (setup : Setup) (start : Timer) (calls : List Call) : Driver × Timer :=
  calls.foldl callTimed (Driver.init setup, start.written (initStates setup))

/-- The driver is that of the run without a timer. -/
theorem reachedTimed_fst (setup : Setup) (start : Timer) (calls : List Call) :
    (reachedTimed setup start calls).1 = reached setup calls := by
  unfold reachedTimed reached
  generalize Driver.init setup = d
  generalize start.written (initStates setup) = t
  induction calls generalizing d t with
  | nil => rfl
  | cons call rest ih => exact ih (d.call call) (t.written (d.phaseStates call))

theorem Driver.trapMode_frame (d : Driver) (sector : Sector) :
    (d.trapMode sector).sectorLast = d.sectorLast ∧ (d.trapMode sector).phases = d.phases := by
  unfold Driver.trapMode Driver.adcMode
  split_ifs <;> exact ⟨rfl, rfl⟩

theorem Driver.updatePolarity_phases (d : Driver) (current : Int32) (bit : UInt8) :
    (d.updatePolarity current bit).phases = d.phases := by
  unfold Driver.updatePolarity
  split_ifs <;> rfl

/-- **The phase states after a call are the last that it wrote.** -/
theorem Driver.call_phases (d : Driver) (call : Call) :
    (d.call call).phases = (d.phaseStates call).getLastD d.phases := by
  cases call with
  | svm alpha beta =>
    by_cases svm : d.sectorLast.isSvm = true <;>
      simp [Driver.call, Driver.writeSvm, Driver.phaseStates, svm, Driver.writePhaseDuty,
        Driver.writePhaseState]
  | trap sector duty =>
    obtain ⟨last, phases⟩ := d.trapMode_frame sector
    simp only [Driver.call, Driver.writeTrap, Driver.phaseStates]
    split
    · rename_i entry _
      by_cases same : d.sectorLast = sector <;>
        simp [Driver.enterTrap, last, phases, same, entry, Driver.writePhaseDuty,
          Driver.writePhaseState, Driver.adcTrapUpdate]
    · rename_i outside
      have none : trapTable sector = none := by
        cases sector <;> first | rfl | exact (outside _ _ rfl rfl).elim
      simp [none, phases]
  | float => rfl
  | read analog =>
    simp only [Driver.call, Driver.readSync, Driver.phaseStates]
    split_ifs <;> simp only [updatePolarity_phases, List.getLastD_nil]

/-- A call writes phase states at most once. -/
theorem Driver.phaseStates_short (d : Driver) (call : Call) :
    d.phaseStates call = [] ∨ ∃ states, d.phaseStates call = [states] := by
  cases call with
  | svm alpha beta =>
    simp only [Driver.phaseStates]
    split_ifs
    · exact Or.inl rfl
    · exact Or.inr ⟨_, rfl⟩
  | trap sector duty =>
    simp only [Driver.phaseStates]
    split_ifs
    · cases trapTable sector with
      | none => exact Or.inl rfl
      | some states => exact Or.inr ⟨states, rfl⟩
    · exact Or.inl rfl
  | float => exact Or.inr ⟨_, rfl⟩
  | read analog => exact Or.inl rfl

/-- **The bridge is in these phase states**, and no bit beside theirs was changed. -/
structure Timer.Shows (start t : Timer) (phases : ThreePhases) : Prop where
  active : t.active.phases = some phases
  activeBeside : t.active.beside = start.preload.beside
  preloadBeside : t.preload.beside = start.preload.beside

/-- The three registers that are written, beside the bits of the phases. -/
theorem beside_shadows (r : Registers) (u v w : PhaseState) :
    (r.shadows u v w).ccer &&& ~~~phaseBits.ccer = r.ccer &&& ~~~phaseBits.ccer ∧
      (r.shadows u v w).ccmr1 &&& ~~~phaseBits.ccmr1 = r.ccmr1 &&& ~~~phaseBits.ccmr1 ∧
      (r.shadows u v w).ccmr2 &&& ~~~phaseBits.ccmr2 = r.ccmr2 &&& ~~~phaseBits.ccmr2 := by
  have same := shadows_beside r u v w
  simp only [Registers.beside, Registers.mk.injEq] at same
  exact same

/-- The commutation event at the end puts all that was written in effect at once. -/
theorem shows_phaseWrites {start t : Timer} (beside : t.preload.beside = start.preload.beside)
    (u v w : PhaseState) :
    Timer.Shows start ((t.phaseWrites u v w).foldl Timer.apply t) (u, v, w) where
  active := shadows_phases t.preload u v w
  activeBeside := (shadows_beside t.preload u v w).trans beside
  preloadBeside := (shadows_beside t.preload u v w).trans beside

/-- **Until the commutation event the bridge stays in the states before.** -/
theorem Timer.Shows.during {start t : Timer} {phases : ThreePhases} (shows : Timer.Shows start t phases)
    (u v w : PhaseState) {writes : List RegisterWrite}
    (isPrefix : writes <+: t.phaseWrites u v w) :
    Timer.Shows start (writes.foldl Timer.apply t) phases ∨
      Timer.Shows start (writes.foldl Timer.apply t) (u, v, w) := by
  obtain ⟨active, activeBeside, preloadBeside⟩ := shows
  obtain ⟨ccer, ccmr1, ccmr2⟩ := beside_shadows t.preload u v w
  simp only [Timer.phaseWrites, List.prefix_cons_iff, List.prefix_nil] at isPrefix
  obtain rfl | ⟨_, rfl, rfl | ⟨_, rfl, rfl | ⟨_, rfl, rfl | ⟨_, rfl, rfl⟩⟩⟩⟩ := isPrefix
  · exact Or.inl ⟨active, activeBeside, preloadBeside⟩
  · refine Or.inl ⟨active, activeBeside, preloadBeside ▸ ?_⟩
    simp only [List.foldl, Timer.apply, Registers.beside, ccer]
  · refine Or.inl ⟨active, activeBeside, preloadBeside ▸ ?_⟩
    simp only [List.foldl, Timer.apply, Registers.beside, ccer, ccmr1]
  · refine Or.inl ⟨active, activeBeside, preloadBeside ▸ ?_⟩
    simp only [List.foldl, Timer.apply, Registers.beside, ccer, ccmr1, ccmr2]
  · exact Or.inr (shows_phaseWrites preloadBeside u v w)

/-- A last write of phase states is in effect. -/
theorem shows_written {start t : Timer} (beside : t.preload.beside = start.preload.beside)
    (states : List ThreePhases) (last : ThreePhases) :
    Timer.Shows start (t.written (states ++ [last])) last := by
  induction states generalizing t with
  | nil =>
    simp only [Timer.written, Timer.writes, List.nil_append, List.append_nil]
    exact shows_phaseWrites beside last.1 last.2.1 last.2.2
  | cons state rest ih =>
    have first := shows_phaseWrites beside state.1 state.2.1 state.2.2
    simp only [Timer.written, Timer.writes, List.cons_append, List.foldl_append]
    exact ih first.preloadBeside

/-- **What a call keeps.** -/
theorem Timer.Shows.call {start t : Timer} {d : Driver} (shows : Timer.Shows start t d.phases)
    (call : Call) : Timer.Shows start (t.written (d.phaseStates call)) (d.call call).phases := by
  rw [d.call_phases call]
  obtain none | ⟨states, one⟩ := d.phaseStates_short call
  · rw [none]
    exact shows
  · rw [one]
    exact shows_written shows.preloadBeside [] states

/-- After `fd_mc3p_init` and after each call the bridge is in the phase states of the driver. -/
theorem shows_reached (setup : Setup) (start : Timer) (calls : List Call) :
    Timer.Shows start (reachedTimed setup start calls).2
      (reachedTimed setup start calls).1.phases := by
  refine List.foldlRecOn calls callTimed
    (motive := fun now => Timer.Shows start now.2 now.1.phases) ?_ ?_
  · have floating : (Driver.init setup).phases = (.float, .float, .float) := rfl
    rw [floating]
    exact shows_written rfl _ _
  · intro now shows call _
    exact shows.call call

/-- **In every run of the driver, after every single write to a register of the next call, the
bridge is in the phase states before the call or in those after it**, and the polarities, the
preload bits and the channel that triggers the ADC are as they were set up. -/
theorem registers_refine (setup : Setup) (start : Timer) (calls : List Call) (call : Call)
    (writes : List RegisterWrite)
    (isPrefix : writes <+: (reachedTimed setup start calls).2.writes
      ((reached setup calls).phaseStates call)) :
    Timer.Shows start (writes.foldl Timer.apply (reachedTimed setup start calls).2)
        (reached setup calls).phases ∨
      Timer.Shows start (writes.foldl Timer.apply (reachedTimed setup start calls).2)
        ((reached setup calls).call call).phases := by
  have shows := shows_reached setup start calls
  rw [reachedTimed_fst] at shows
  rw [Driver.call_phases]
  obtain none | ⟨states, one⟩ := (reached setup calls).phaseStates_short call
  · rw [none, Timer.writes, List.prefix_nil] at isPrefix
    rw [isPrefix]
    exact Or.inl shows
  · rw [one, Timer.writes, Timer.writes, List.append_nil] at isPrefix
    rw [one]
    exact shows.during states.1 states.2.1 states.2.2 isPrefix

/-- Halfway through the writes of a trapezoidal sector after a space vector. -/
theorem registers_refine_halfway :
    let start : Timer := ⟨⟨0x1000, 0x0808, 0x6808⟩, ⟨0, 0, 0⟩⟩
    let now := reachedTimed .zero start [.svm 16384 0]
    let d := reached .zero [.svm 16384 0]
    let during := ((now.2.writes (d.phaseStates (.trap .trap3 8192))).take 2).foldl Timer.apply now.2
    Timer.Shows start during d.phases ∨
      Timer.Shows start during (d.call (.trap .trap3 8192)).phases :=
  registers_refine .zero _ [.svm 16384 0] (.trap .trap3 8192) _ (List.take_prefix 2 _)

end ForgeDrive.Mc3p
