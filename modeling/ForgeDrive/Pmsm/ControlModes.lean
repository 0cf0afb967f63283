/-
**What the modes keep and what they release.**

`configControlMode` lets a mode be entered from `Idle` only, and most configurations are refused
outside `Idle`. The hooks that leave a mode are empty: `Idle` stops the loops from writing the bridge,
but nothing writes the floating state that `init` left behind.

* `undriven_outputs` — without a PWM interrupt in `Foc` or `SComm` the bridge stays as it is, whatever
  is called;
* `bridge_of_run` — so it floats until the first such interrupt, and never again;
* `fixed_between_idle` — between two visits of `Idle` the mode is one, and what the identification and
  the start-up are configured with is what it was.
-/

import ForgeDrive.Mc3p.SyncChannels
import ForgeDrive.Pmsm.OpenLoop

namespace ForgeDrive.Pmsm

open Mc3p (Driver PhaseState)

variable {Number : Type}

/-! ### The bridge -/

/-- What the driver puts out: the phase states and the compare values. -/
structure Outputs where
  phases : PhaseState × PhaseState × PhaseState
  ccr1 : UInt32
  ccr2 : UInt32
  ccr3 : UInt32
  deriving DecidableEq, Repr

def outputs (d : Driver) : Outputs := ⟨d.phases, d.ccr1, d.ccr2, d.ccr3⟩

/-- Reading the scan leaves the bridge and the sector. -/
theorem outputs_readSync (d : Driver) (analog : Nat → UInt16) :
    outputs (d.readSync analog).1 = outputs d := by
  have polarity (d : Driver) (current : Int32) (bit : UInt8) :
      outputs (d.updatePolarity current bit) = outputs d := by
    unfold Driver.updatePolarity
    split_ifs <;> rfl
  unfold Driver.readSync
  split_ifs
  · exact (polarity _ _ _).trans ((polarity _ _ _).trans (polarity _ _ _))
  · exact polarity _ _ _
  · rfl

/-- The states of three driven phases. -/
abbrev driven : PhaseState × PhaseState × PhaseState := (.comp, .comp, .comp)

/-- The states of the floating bridge. -/
abbrev floating : PhaseState × PhaseState × PhaseState := (.float, .float, .float)

/-- In a sector of the space vectors the phases are driven. -/
def Sectored (d : Driver) : Prop := d.sectorLast.isSvm = true → d.phases = driven

/-- **A space vector drives the phases.** -/
theorem phases_writeSvm {d : Driver} (sectored : Sectored d) (alpha beta : Int16) :
    (d.writeSvm alpha beta).phases = driven := by
  unfold Driver.writeSvm
  split_ifs with svm
  · exact sectored svm
  · rfl

section Steps

variable {b : Board Number} {sinCos : Int32 → Int32 × Int32} {c : Controller Number}

/-- What the controller puts out. -/
def Controller.outputs (c : Controller Number) : Outputs := Pmsm.outputs c.mc3p.mc3p

/-- A PWM interrupt that drives the motor. -/
def Controller.DrivenBy (c : Controller Number) : ControllerEvent Number → Prop
  | .pwm _ => c.core.mcMode.Drives
  | _ => False

/-- A PWM interrupt in a mode that does not drive the motor. -/
theorem Controller.pwmLoop_outputs (undriven : ¬ c.core.mcMode.Drives) (analog : Nat → UInt16) :
    (c.pwmLoop sinCos analog).outputs = c.outputs ∧
      (c.pwmLoop sinCos analog).mc3p.mc3p.sectorLast = c.mc3p.mc3p.sectorLast := by
  unfold Controller.pwmLoop
  split
  · exact ⟨rfl, rfl⟩
  · next mode => exact absurd (Or.inl mode) undriven
  · next mode => exact absurd (Or.inr mode) undriven
  · exact ⟨outputs_readSync c.mc3p.mc3p analog, (c.mc3p.mc3p.readSync_frame analog).2.2⟩

/-- A PWM interrupt in a mode that drives the motor. -/
theorem Controller.pwmLoop_phases (open_ : c.OpenLoop) (resting : c.Resting b)
    (sectored : Sectored c.mc3p.mc3p) (drives : c.core.mcMode.Drives) (analog : Nat → UInt16) :
    (c.pwmLoop sinCos analog).mc3p.mc3p.phases = driven := by
  have passes := (open_.pwmLoop sinCos resting.eAngvRpt analog).2 drives
  have read : Sectored (c.mc3p.mc3p.readSync analog).1 := by
    intro svm
    have phases := congrArg Outputs.phases (outputs_readSync c.mc3p.mc3p analog)
    exact phases.trans (sectored ((c.mc3p.mc3p.readSync_frame analog).2.2 ▸ svm))
  rw [passes.written]
  exact phases_writeSvm read _ _

/-- The slow loop leaves the driver. -/
theorem Controller.xmcLoop_mc3p : (c.xmcLoop b).mc3p = c.mc3p := by
  unfold Controller.xmcLoop
  split
  · rfl
  · rfl
  · split_ifs <;> rfl
  · rfl

theorem Controller.runPending_mc3p : (c.runPending b).mc3p = c.mc3p := by
  unfold Controller.runPending
  split
  · rfl
  · dsimp only
    split_ifs <;> rfl

variable [LT Number] [LE Number] [DecidableLT Number] [DecidableLE Number]

/-- No call on the main thread writes the bridge. -/
theorem Controller.request_outputs (call : Request Number) :
    (c.request b call).1.outputs = c.outputs ∧
      (c.request b call).1.mc3p.mc3p.sectorLast = c.mc3p.mc3p.sectorLast := by
  have effect := request_effect b c call
  generalize c.request b call = result at effect
  obtain ⟨after, err⟩ := result
  cases effect <;> exact ⟨rfl, rfl⟩

variable (b sinCos) in
/-- **A step that does not drive the motor leaves the bridge.** -/
theorem Controller.step_outputs {event : ControllerEvent Number} (undriven : ¬ c.DrivenBy event) :
    (c.step b sinCos event).outputs = c.outputs ∧
      (c.step b sinCos event).mc3p.mc3p.sectorLast = c.mc3p.mc3p.sectorLast := by
  cases event with
  | pwm analog => exact c.pwmLoop_outputs undriven analog
  | xmc =>
    rw [Controller.step]
    split_ifs
    · rw [Controller.outputs, c.xmcLoop_mc3p]
      exact ⟨rfl, rfl⟩
    · exact ⟨rfl, rfl⟩
  | block =>
    rw [Controller.step, Controller.outputs, c.runPending_mc3p]
    exact ⟨rfl, rfl⟩
  | request call =>
    rw [Controller.step]
    split_ifs
    · exact c.request_outputs call
    · exact ⟨rfl, rfl⟩

/-- No event of the run drives the motor. -/
def Controller.Undriven (b : Board Number) (sinCos : Int32 → Int32 × Int32) :
    Controller Number → List (ControllerEvent Number) → Prop
  | _, [] => True
  | c, event :: rest => ¬ c.DrivenBy event ∧ Undriven b sinCos (c.step b sinCos event) rest

end Steps

/-! ### The bridge in a run -/

section Bridge

variable [LT Number] [LE Number] [DecidableLT Number] [DecidableLE Number] {b : Board Number}
  {sinCos : Int32 → Int32 × Int32} {c : Controller Number}

/-- What holds along a run: no controller acts, and the phases are those of their sector. -/
structure Controller.Steady (b : Board Number) (c : Controller Number) : Prop where
  openLoop : c.OpenLoop
  resting : c.Resting b
  sectored : Sectored c.mc3p.mc3p

/-- A step that drives the motor drives the phases. -/
theorem Controller.Steady.step_phases (steady : c.Steady b) {event : ControllerEvent Number}
    (drives : c.DrivenBy event) : (c.step b sinCos event).mc3p.mc3p.phases = driven := by
  cases event with
  | pwm analog =>
    exact Controller.pwmLoop_phases steady.openLoop steady.resting steady.sectored drives analog
  | xmc | block | request => exact drives.elim

theorem Controller.Steady.step (steady : c.Steady b) (event : ControllerEvent Number) :
    (c.step b sinCos event).Steady b := by
  refine ⟨steady.openLoop.step steady.resting event, steady.resting.step event, ?_⟩
  intro svm
  by_cases drives : c.DrivenBy event
  · exact steady.step_phases drives
  · obtain ⟨same, sector⟩ := c.step_outputs b sinCos drives
    exact (congrArg Outputs.phases same).trans (steady.sectored (sector ▸ svm))

/-- Driven phases stay driven. -/
theorem Controller.Steady.run_driven (steady : c.Steady b)
    (before : c.mc3p.mc3p.phases = driven) (events : List (ControllerEvent Number)) :
    (events.foldl (Controller.step b sinCos) c).mc3p.mc3p.phases = driven := by
  induction events generalizing c with
  | nil => exact before
  | cons event rest ih =>
    refine ih (steady.step event) ?_
    by_cases drives : c.DrivenBy event
    · exact steady.step_phases drives
    · exact (congrArg Outputs.phases
        (c.step_outputs b sinCos drives).1).trans before

/-- The first interrupt that drives the motor drives the phases for good. -/
theorem Controller.Steady.run_phases (steady : c.Steady b) {events : List (ControllerEvent Number)}
    (drives : ¬ c.Undriven b sinCos events) :
    (events.foldl (Controller.step b sinCos) c).mc3p.mc3p.phases = driven := by
  induction events generalizing c with
  | nil => exact absurd trivial drives
  | cons event rest ih =>
    by_cases first : c.DrivenBy event
    · exact (steady.step event).run_driven (steady.step_phases first) rest
    · exact ih (steady.step event) fun later => drives ⟨first, later⟩

/-- **Without an interrupt that drives the motor the bridge stays as it is**, whatever is called. -/
theorem undriven_outputs {during : List (ControllerEvent Number)}
    (undriven : c.Undriven b sinCos during) :
    (during.foldl (Controller.step b sinCos) c).outputs = c.outputs := by
  induction during generalizing c with
  | nil => rfl
  | cons event rest ih => exact (ih undriven.2).trans (c.step_outputs b sinCos undriven.1).1

variable (boot : Boot b) (sinCos)

theorem Boot.start_steady : boot.start.Steady b := by
  refine ⟨boot.start_openLoop, boot.start_resting, ?_⟩
  rw [boot.start_eq]
  intro svm
  cases svm

/-- **The bridge floats exactly until the first interrupt that drives the motor**, and is driven from
then on in every state, `Idle` and `Fault` included; and it holds its compare values between two such
interrupts, however long that is. -/
theorem bridge_of_run (events : List (ControllerEvent Number)) :
    ((boot.reached sinCos events).mc3p.mc3p.phases = floating ↔
        boot.start.Undriven b sinCos events) ∧
      ((boot.reached sinCos events).mc3p.mc3p.phases = driven ↔
        ¬ boot.start.Undriven b sinCos events) ∧
      ∀ during, (boot.reached sinCos events).Undriven b sinCos during →
        (boot.reached sinCos (events ++ during)).outputs = (boot.reached sinCos events).outputs := by
  have started : boot.start.mc3p.mc3p.phases = floating := by
    rw [boot.start_eq]
    rfl
  have floats (undriven : boot.start.Undriven b sinCos events) :
      (boot.reached sinCos events).mc3p.mc3p.phases = floating :=
    (congrArg Outputs.phases (undriven_outputs undriven)).trans started
  have drives (not : ¬ boot.start.Undriven b sinCos events) :
      (boot.reached sinCos events).mc3p.mc3p.phases = driven :=
    boot.start_steady.run_phases not
  have apart : floating ≠ driven := by decide
  refine ⟨⟨fun is => ?_, floats⟩, ⟨fun is undriven => ?_, drives⟩, ?_⟩
  · by_contra not
    exact apart (is.symm.trans (drives not))
  · exact apart ((floats undriven).symm.trans is)
  · intro during undriven
    rw [Boot.reached, List.foldl_append]
    exact undriven_outputs undriven

end Bridge

/-! ### The modes -/

section Modes

variable {b : Board Number} {sinCos : Int32 → Int32 × Int32} {c : Controller Number}

/-- A mode switch that is made leads to the mode. -/
theorem setControlMode_mcMode (c : Core) (mode : MCMode) :
    (c.setControlMode mode).1.mcMode = mode := by
  unfold Core.setControlMode
  split_ifs with same
  · exact same
  · rfl
  · rfl

/-- **What is fixed while a mode runs**: the mode, the start-up table, and what the identification is
configured with; in `Foc` the set points too. -/
structure Controller.Fixes (c after : Controller Number) : Prop where
  mcMode : after.core.mcMode = c.core.mcMode
  olstup : after.olstup = c.olstup
  hfiN : after.hfiN = c.hfiN
  dcVinj : after.core.scomm.dcVinj = c.core.scomm.dcVinj
  hfiVinj : after.core.scomm.hfiVinj = c.core.scomm.hfiVinj
  hfiAngvRpt : after.core.scomm.hfiAngvRpt = c.core.scomm.hfiAngvRpt
  setpoints : c.core.mcMode = .foc →
    after.core.ecdSp = c.core.ecdSp ∧ after.core.ecqSp = c.core.ecqSp

theorem Controller.Fixes.refl (c : Controller Number) : c.Fixes c :=
  ⟨rfl, rfl, rfl, rfl, rfl, rfl, fun _ => ⟨rfl, rfl⟩⟩

theorem Controller.Fixes.trans {c middle after : Controller Number} (first : c.Fixes middle)
    (second : middle.Fixes after) : c.Fixes after where
  mcMode := second.mcMode.trans first.mcMode
  olstup := second.olstup.trans first.olstup
  hfiN := second.hfiN.trans first.hfiN
  dcVinj := second.dcVinj.trans first.dcVinj
  hfiVinj := second.hfiVinj.trans first.hfiVinj
  hfiAngvRpt := second.hfiAngvRpt.trans first.hfiAngvRpt
  setpoints := fun foc => by
    obtain ⟨d, q⟩ := first.setpoints foc
    obtain ⟨d', q'⟩ := second.setpoints (first.mcMode.trans foc)
    exact ⟨d'.trans d, q'.trans q⟩

/-- Blocks remain only while the identification runs. -/
def Controller.Pends (c : Controller Number) : Prop := c.core.mcMode ≠ .sComm → c.pending = []

/-- The PWM loop leaves what is injected, and in `Foc` the set points. -/
theorem pwmLoop_injection (sinCos : Int32 → Int32 × Int32) (c : Core) (focId focIq : Int32) :
    (c.pwmLoop sinCos focId focIq).1.scomm.dcVinj = c.scomm.dcVinj ∧
      (c.pwmLoop sinCos focId focIq).1.scomm.hfiVinj = c.scomm.hfiVinj ∧
      (c.pwmLoop sinCos focId focIq).1.scomm.hfiAngvRpt = c.scomm.hfiAngvRpt ∧
      (c.mcMode = .foc → (c.pwmLoop sinCos focId focIq).1.ecdSp = c.ecdSp ∧
        (c.pwmLoop sinCos focId focIq).1.ecqSp = c.ecqSp) := by
  have effect := pwm_effect sinCos c focId focIq
  generalize step : c.pwmLoop sinCos focId focIq = after at effect
  obtain ⟨after, out⟩ := after
  have points : c.mcMode = .foc → after.ecdSp = c.ecdSp ∧ after.ecqSp = c.ecqSp := by
    intro foc
    simp only [Core.pwmLoop, foc, Prod.mk.injEq] at step
    rw [← step.1]
    exact ⟨rfl, rfl⟩
  refine ⟨?_, ?_, ?_, points⟩ <;> cases effect with
  | off mode same => rw [same]
  | tick angle scomm => rw [scomm]
  | sample angle first second more active scomm => rw [scomm]

/-- The slow loop leaves what is injected. -/
theorem block_injection (s : SComm) (pTicks : UInt32) (block : Block) :
    (s.block pTicks block).1.dcVinj = s.dcVinj ∧ (s.block pTicks block).1.hfiVinj = s.hfiVinj ∧
      (s.block pTicks block).1.hfiAngvRpt = s.hfiAngvRpt := by
  cases block <;>
    simp only [SComm.block, SComm.rsBlock, SComm.ldBlock, SComm.rest0Block, SComm.lqBlock] <;>
    split <;> try split_ifs
  all_goals exact ⟨rfl, rfl, rfl⟩

/-- The PWM interrupt. -/
theorem Controller.Fixes.pwmLoop (resting : c.Resting b) (analog : Nat → UInt16) :
    c.Fixes (c.pwmLoop sinCos analog) := by
  have core := c.pwmLoop_core sinCos resting.eAngvRpt analog
  obtain ⟨-, -, mode, -⟩ := pwmLoop_modes sinCos c.core
    (c.pwmLoop sinCos analog).core.focId (c.pwmLoop sinCos analog).core.focIq
  obtain ⟨dc, hfi, angv, points⟩ := pwmLoop_injection sinCos c.core
    (c.pwmLoop sinCos analog).core.focId (c.pwmLoop sinCos analog).core.focIq
  rw [← core] at mode dc hfi angv points
  have kept : (c.pwmLoop sinCos analog).olstup = c.olstup ∧
      (c.pwmLoop sinCos analog).hfiN = c.hfiN := by
    unfold Controller.pwmLoop
    split <;> exact ⟨rfl, rfl⟩
  exact ⟨mode, kept.1, kept.2, dc, hfi, angv, points⟩

/-- The call of the slow loop. -/
theorem Controller.Fixes.xmcLoop (resting : c.Resting b) (idle : c.pending = []) :
    c.Fixes (c.xmcLoop b) := by
  have core : (c.xmcLoop b).core = c.core :=
    congrArg Preempted.core (resting.xmcLoop_preempted idle)
  have kept : (c.xmcLoop b).olstup = c.olstup ∧ (c.xmcLoop b).hfiN = c.hfiN := by
    unfold Controller.xmcLoop
    split
    · exact ⟨rfl, rfl⟩
    · exact ⟨rfl, rfl⟩
    · split_ifs <;> exact ⟨rfl, rfl⟩
    · exact ⟨rfl, rfl⟩
  refine ⟨?_, kept.1, kept.2, ?_, ?_, ?_, fun _ => ?_⟩ <;> rw [core]
  exact ⟨rfl, rfl⟩

/-- The next block of the slow loop. -/
theorem Controller.Fixes.runPending (pends : c.Pends) : c.Fixes (c.runPending b) := by
  unfold Controller.runPending
  split
  · exact .refl c
  · next block rest some =>
    obtain ⟨-, -, mode, -⟩ := runBlock_modes c.core block
    obtain ⟨scomm, -⟩ := runBlock_eq c.core block
    obtain ⟨dc, hfi, angv⟩ := block_injection c.core.scomm c.core.pTicks block
    rw [← scomm] at dc hfi angv
    have notFoc : c.core.mcMode ≠ .foc := by
      intro foc
      have none := pends (by rw [foc]; decide)
      rw [none] at some
      contradiction
    dsimp only
    split_ifs <;> exact ⟨mode, rfl, rfl, dc, hfi, angv, fun foc => absurd foc notFoc⟩

variable [LT Number] [LE Number] [DecidableLT Number] [DecidableLE Number]

/-- A call on the main thread, while a mode runs: it is refused, or leads to `Idle`, or sets none of
what is fixed. -/
theorem Controller.Fixes.request (running : c.core.mcMode ≠ .idle) (call : Request Number) :
    c.Fixes (c.request b call).1 ∨ (c.request b call).1.core.mcMode = .idle := by
  have effect := request_effect b c call
  generalize c.request b call = result at effect
  obtain ⟨after, err⟩ := result
  cases effect with
  | mode mode mechMode allowed =>
    have toIdle : mode = .idle := allowed.resolve_right running
    exact Or.inr ((setControlMode_mcMode c.core mode).trans toIdle)
  | olstup cfg idle passed => exact absurd idle running
  | scomm cfg idle passed => exact absurd idle running
  | _ => exact Or.inl ⟨rfl, rfl, rfl, rfl, rfl, rfl, fun _ => ⟨rfl, rfl⟩⟩

/-- **While a mode runs a step leaves what is fixed, or leads to `Idle`.** -/
theorem Controller.Fixes.step (running : c.core.mcMode ≠ .idle) (resting : c.Resting b)
    (pends : c.Pends) (event : ControllerEvent Number) :
    c.Fixes (c.step b sinCos event) ∨ (c.step b sinCos event).core.mcMode = .idle := by
  cases event with
  | pwm analog => exact Or.inl (.pwmLoop resting analog)
  | xmc =>
    rw [Controller.step]
    split_ifs with idle
    · exact Or.inl (.xmcLoop resting idle)
    · exact Or.inl (.refl c)
  | block => exact Or.inl (.runPending pends)
  | request call =>
    rw [Controller.step]
    split_ifs
    · exact Controller.Fixes.request running call
    · exact Or.inl (.refl c)

/-- Blocks remain only while the identification runs, after every step. -/
theorem Controller.Pends.step (pends : c.Pends) (resting : c.Resting b)
    (event : ControllerEvent Number) : (c.step b sinCos event).Pends := by
  cases event with
  | pwm analog =>
    intro other
    rw [Controller.step, c.pwmLoop_pending sinCos]
    exact pends ((Controller.Fixes.pwmLoop resting analog).mcMode ▸ other)
  | xmc =>
    rw [Controller.step]
    split_ifs with idle
    · intro other
      have call := resting.xmcLoop_preempted idle
      have core : (c.xmcLoop b).core = c.core := congrArg Preempted.core call
      have pending := congrArg Preempted.pending call
      rw [core] at other
      exact pending.trans (if_neg other)
    · exact pends
  | block =>
    intro other
    have none := pends ((Controller.Fixes.runPending (b := b) pends).mcMode ▸ other)
    simp only [Controller.step, Controller.runPending, none]
  | request call =>
    rw [Controller.step]
    split_ifs with idle
    · intro _
      have effect := request_effect b c call
      generalize c.request b call = result at effect
      obtain ⟨after, err⟩ := result
      cases effect <;> exact idle
    · exact pends

/-- No state of the run is in `Idle`. -/
def Controller.Running (b : Board Number) (sinCos : Int32 → Int32 × Int32) :
    Controller Number → List (ControllerEvent Number) → Prop
  | c, [] => c.core.mcMode ≠ .idle
  | c, event :: rest => c.core.mcMode ≠ .idle ∧ Running b sinCos (c.step b sinCos event) rest

theorem Controller.Running.start {events : List (ControllerEvent Number)}
    (running : c.Running b sinCos events) : c.core.mcMode ≠ .idle := by
  cases events with
  | nil => exact running
  | cons event rest => exact running.1

/-- What one step leaves, a run without `Idle` does. -/
theorem Controller.Fixes.run (resting : c.Resting b) (pends : c.Pends)
    {events : List (ControllerEvent Number)} (running : c.Running b sinCos events) :
    c.Fixes (events.foldl (Controller.step b sinCos) c) := by
  induction events generalizing c with
  | nil => exact .refl c
  | cons event rest ih =>
    have later := ih (resting.step event) (pends.step resting event) running.2
    rcases Controller.Fixes.step running.1 resting pends event with fixed | toIdle
    · exact fixed.trans later
    · exact absurd toIdle running.2.start

end Modes

section Runs

variable [LT Number] [LE Number] [DecidableLT Number] [DecidableLE Number] {b : Board Number}
  (boot : Boot b) (sinCos : Int32 → Int32 × Int32)

/-- Blocks remain only while the identification runs. -/
theorem Boot.reached_pends (events : List (ControllerEvent Number)) :
    (boot.reached sinCos events).Pends := by
  have both : (boot.reached sinCos events).Pends ∧ (boot.reached sinCos events).Resting b :=
    List.foldlRecOn events (Controller.step b sinCos)
      (motive := fun c => c.Pends ∧ c.Resting b)
      ⟨fun _ => by rw [boot.start_eq]; rfl, boot.start_resting⟩
      fun _ kept event _ => ⟨kept.1.step kept.2 event, kept.2.step event⟩
  exact both.1

/-- **Between two visits of `Idle` the mode is one**, the start-up table and the configuration of the
identification are what they were, and in `Foc` the set points are those of the identification
before. -/
theorem fixed_between_idle (events during : List (ControllerEvent Number))
    (running : (boot.reached sinCos events).Running b sinCos during) :
    (boot.reached sinCos events).Fixes (boot.reached sinCos (events ++ during)) := by
  rw [Boot.reached, Boot.reached, List.foldl_append]
  exact .run (boot.reached_resting sinCos events) (boot.reached_pends sinCos events) running

/-- A configuration of the identification while the motor runs, between two interrupts. -/
theorem fixed_between_idle_running :
    let sinCos : Int32 → Int32 × Int32 := fun _ => (0, 0x7FFFFFFF)
    let foc : List (ControllerEvent Int) := [.request (.configControlMode .foc .openSpeed)]
    let during : List (ControllerEvent Int) :=
      [.pwm fun _ => 2000, .request (.configSComm ⟨30, 2000, 6000⟩), .pwm fun _ => 2000]
    (sysBoot.reached sinCos foc).Fixes (sysBoot.reached sinCos (foc ++ during)) :=
  fixed_between_idle sysBoot _ _ _ ⟨by decide, by decide, by decide,
    show MCMode.foc ≠ .idle by decide⟩

end Runs

end ForgeDrive.Pmsm
