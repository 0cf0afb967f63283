/-
**The slow loop preempted by the PWM interrupt.**

A call of `SComm_xmcLoop` is the blocks of its stage, one after the other, and the PWM loop may run
any number of times between two of them. The next block tests `samples_counter` and `pTicks` again,
while `idstage` may still be that of the block before: a tick between the two tests makes them
disagree.

* `safeStep_iff` — of one step: it goes wrong exactly when a block that was fallen into finds the
  settling time over, or no samples left, in a stage that is not its own;
* `preempted_safe_iff` — so a run is safe if and only if no tick makes two tests of a call disagree;
* `not_safe` — one tick does.
-/

import ForgeDrive.Pmsm.SComm

namespace ForgeDrive.Pmsm

open EventMachine (run Along)

variable (sinCos : Int32 → Int32 × Int32)

/-! ### The system -/

/-- The object, and the blocks the slow loop still has to run in its call. -/
structure Preempted where
  core : Core
  pending : List Block
  deriving DecidableEq, Repr

/-- The PWM interrupt, the call of the slow loop, its next block, and a mode switch. -/
inductive Event
  | pwm (focId focIq : Int32)
  | call
  | block
  | config (mode : MCMode)
  deriving DecidableEq, Repr

/-- One step. The slow loop is not called again, and the main thread does not run, while a call has
blocks to run. -/
def Preempted.step (s : Preempted) : Event → Preempted × List Output
  | .pwm focId focIq =>
    ({ s with core := (s.core.pwmLoop sinCos focId focIq).1 },
      (s.core.pwmLoop sinCos focId focIq).2)
  | .call =>
    if s.pending = [] ∧ s.core.mcMode = .sComm then
      ({ s with pending := blocks s.core.scomm.idstage }, [])
    else (s, [])
  | .block =>
    match s.pending with
    | [] => (s, [])
    | block :: rest => (⟨(s.core.runBlock block).1, rest⟩, (s.core.runBlock block).2)
  | .config mode =>
    if s.pending = [] then
      ({ s with core := (s.core.configControlMode mode).1 }, (s.core.configControlMode mode).2)
    else (s, [])

/-! ### What is safe -/

/-- The stage that comes next. -/
def IDStage.next : IDStage → Option IDStage
  | .idle => none
  | .rsId => some .ldId
  | .ldId => some .rest0
  | .rest0 => some .lqId
  | .lqId => some .rsId

/-- The stage stays, or moves on by one. -/
def Moves (stage after : IDStage) : Prop := after = stage ∨ stage.next = some after

/-- **What may come of a step in this stage**: `Lq` is computed in `LQ_ID` only, the stage moves on
by one, and no stage rests while it samples. -/
structure SafeResult (stage : IDStage) (result : SComm × List Output) : Prop where
  lq : ∀ stage accumulate0 accumulate1,
    .compute .lq stage accumulate0 accumulate1 ∈ result.2 → stage = .lqId
  moves : Moves stage result.1.idstage
  apart : ¬ (result.1.idstage = .rest0 ∧ result.1.idsub = .activeSampling)

/-- The identification after a step, and what happened to it. -/
def Preempted.result (s : Preempted) (event : Event) : SComm × List Output :=
  ((s.step sinCos event).1.core.scomm, (s.step sinCos event).2)

/-- **The step is safe.** A mode switch starts the stages anew. -/
def SafeStep (s : Preempted) : Event → Prop
  | .config mode => SafeResult (s.result sinCos (.config mode)).1.idstage
      (s.result sinCos (.config mode))
  | event => SafeResult s.core.scomm.idstage (s.result sinCos event)

/-- **The run is safe**, from the static object on. -/
def Safe (dcVinj hfiVinj hfiAngvRpt : Int32) (events : List Event) : Prop :=
  Along (Preempted.step sinCos) (SafeStep sinCos) ⟨Core.init dcVinj hfiVinj hfiAngvRpt, []⟩ events

/-- The settling time is over, for a block that waits for it. -/
def SComm.Over (s : SComm) (pTicks : UInt32) : Prop := s.idsub = .eSettleWait ∧ s.settled pTicks

/-- No samples are left, for a block that samples. -/
def SComm.Done (s : SComm) : Prop := s.idsub = .activeSampling ∧ s.samplesCounter = 0

/-- The block does not find in a stage before its own what that stage's block has just not found. -/
def SComm.Agrees (s : SComm) (pTicks : UInt32) : Block → Prop
  | .rest0 => s.idstage = .ldId → ¬ s.Over pTicks
  | .lq => (s.idstage = .rest0 → ¬ s.Over pTicks) ∧ (s.idstage = .ldId → ¬ s.Done)
  | _ => True

/-- **No tick made two tests of one call disagree.** -/
def Undisturbed (s : Preempted) : Event → Prop
  | .block => ∀ block ∈ s.pending.head?, s.core.scomm.Agrees s.core.pTicks block
  | _ => True

/-! ### One block -/

/-- The block can be reached in this stage: it is that of the stage, or one fallen into. -/
def Reaches (stage : IDStage) : Block → Prop
  | .rs => stage = .rsId
  | .ld => stage = .ldId
  | .rest0 => stage = .ldId ∨ stage = .rest0
  | .lq => stage = .ldId ∨ stage = .rest0 ∨ stage = .lqId

section Results

variable {s : SComm} {pTicks : UInt32}

/-- Nothing happens. -/
theorem safe_stay (apart : s.idstage = .rest0 → s.idsub ≠ .activeSampling) :
    SafeResult s.idstage (s, []) where
  lq := fun _ _ _ => nofun
  moves := .inl rfl
  apart := fun rests => apart rests.1 rests.2

/-- The accumulators are cleared. -/
theorem safe_settleStart (second : Bool) : SafeResult s.idstage (s.settleStart pTicks second) where
  lq := by
    intro stage accumulate0 accumulate1 member
    cases List.mem_singleton.mp member
  moves := .inl rfl
  apart := fun rests => by cases rests.2

/-- Sampling begins. -/
theorem safe_sampling (start : UInt32) :
    SafeResult s.idstage ({ s with eSettleStartTick := start, idsub := .activeSampling }, []) ↔
      s.idstage ≠ .rest0 := by
  constructor
  · intro safe rests
    exact safe.apart ⟨rests, rfl⟩
  · intro other
    exact ⟨fun _ _ _ => nofun, .inl rfl, fun rests => other rests.1⟩

/-- A stage ends without a computation. -/
theorem safe_advance {next : IDStage} :
    SafeResult s.idstage ({ s with idsub := .eSettleStart, idstage := next }, []) ↔
      Moves s.idstage next := by
  constructor
  · exact SafeResult.moves
  · intro moves
    exact ⟨fun _ _ _ => nofun, moves, fun rests => by cases rests.2⟩

/-- A parameter is computed. -/
theorem safe_compute {parameter : Parameter} {next : IDStage} :
    SafeResult s.idstage (s.compute parameter next) ↔
      (parameter = .lq → s.idstage = .lqId) ∧ Moves s.idstage next := by
  constructor
  · intro safe
    refine ⟨?_, safe.moves⟩
    rintro rfl
    exact safe.lq _ _ _ (List.mem_singleton_self _)
  · rintro ⟨own, moves⟩
    refine ⟨?_, moves, fun rests => by cases rests.2⟩
    intro stage accumulate0 accumulate1 member
    obtain ⟨rfl, rfl, -⟩ := Output.compute.inj (List.mem_singleton.mp member)
    exact own rfl

/-- A block that waits for the settling time. -/
theorem safe_wait {after : SComm × List Output}
    (apart : s.idstage = .rest0 → s.idsub ≠ .activeSampling) :
    SafeResult s.idstage (if s.settled pTicks then after else (s, [])) ↔
      (s.settled pTicks → SafeResult s.idstage after) := by
  split
  · next elapsed => exact (imp_iff_right elapsed).symm
  · next waits => exact iff_of_true (safe_stay apart) fun elapsed => absurd elapsed waits

/-- A block that waits for the last sample. -/
theorem safe_samples {after : SComm × List Output}
    (apart : s.idstage = .rest0 → s.idsub ≠ .activeSampling) :
    SafeResult s.idstage (if s.samplesCounter = 0 then after else (s, [])) ↔
      (s.samplesCounter = 0 → SafeResult s.idstage after) := by
  split
  · next done => exact (imp_iff_right done).symm
  · next more => exact iff_of_true (safe_stay apart) fun done => absurd done more

/-- **A block is safe if and only if its tests agree with those before it.** -/
theorem safeBlock_iff {block : Block} (reaches : Reaches s.idstage block)
    (apart : s.idstage = .rest0 → s.idsub ≠ .activeSampling) :
    SafeResult s.idstage (s.block pTicks block) ↔ s.Agrees pTicks block := by
  cases block with
  | rs =>
    refine iff_of_true ?_ trivial
    have own : s.idstage = .rsId := reaches
    simp only [SComm.block, SComm.rsBlock]
    split
    · exact safe_settleStart false
    · exact (safe_wait apart).mpr fun _ => (safe_sampling _).mpr (by rw [own]; decide)
    · refine (safe_samples apart).mpr fun _ => safe_compute.mpr ⟨?_, .inr (by rw [own]; rfl)⟩
      exact fun other => Parameter.noConfusion other
  | ld =>
    refine iff_of_true ?_ trivial
    have own : s.idstage = .ldId := reaches
    simp only [SComm.block, SComm.ldBlock]
    split
    · exact safe_settleStart true
    · exact (safe_wait apart).mpr fun _ => (safe_sampling _).mpr (by rw [own]; decide)
    · refine (safe_samples apart).mpr fun _ => safe_compute.mpr ⟨?_, .inr (by rw [own]; rfl)⟩
      exact fun other => Parameter.noConfusion other
  | rest0 =>
    simp only [SComm.block, SComm.rest0Block, SComm.Agrees, SComm.Over]
    split
    · next sub => simp [sub, safe_settleStart]
    · next sub =>
      rw [safe_wait apart, safe_advance]
      rcases reaches with own | own
      all_goals simp [sub, own, Moves, IDStage.next]
    · next sub => simp [sub, safe_stay apart]
  | lq =>
    simp only [SComm.block, SComm.lqBlock, SComm.Agrees, SComm.Over, SComm.Done]
    split
    · next sub => simp [sub, safe_settleStart]
    · next sub =>
      rw [safe_wait apart, safe_sampling]
      rcases reaches with own | own | own
      all_goals simp [sub, own]
    · next sub =>
      rw [safe_samples apart, safe_compute]
      rcases reaches with own | own | own
      · simp [sub, own]
      · exact absurd sub (apart own)
      · simp [sub, own, Moves, IDStage.next]

end Results

/-! ### The steps -/

section Steps

variable {sinCos} {s : Preempted} {event : Event}

/-- The blocks still to run can be reached in the stage. -/
inductive Fits (stage : IDStage) : List Block → Prop
  | none : Fits stage []
  | rs (reaches : Reaches stage .rs) : Fits stage [.rs]
  | ld (reaches : Reaches stage .ld) : Fits stage [.ld, .rest0, .lq]
  | rest0 (reaches : Reaches stage .rest0) : Fits stage [.rest0, .lq]
  | lq (reaches : Reaches stage .lq) : Fits stage [.lq]

/-- What holds between the steps of a safe run. -/
structure Shape (s : Preempted) : Prop where
  apart : s.core.scomm.idstage = .rest0 → s.core.scomm.idsub ≠ .activeSampling
  fits : Fits s.core.scomm.idstage s.pending

theorem Fits.head {stage : IDStage} {block : Block} {rest : List Block}
    (fits : Fits stage (block :: rest)) : Reaches stage block := by
  cases fits with
  | rs reaches | ld reaches | rest0 reaches | lq reaches => exact reaches

/-- A block that moves on by one leaves a stage in which the next block can be reached. -/
theorem Fits.tail {stage after : IDStage} {block : Block} {rest : List Block}
    (fits : Fits stage (block :: rest)) (moves : Moves stage after) : Fits after rest := by
  cases fits with
  | rs | lq => exact .none
  | ld reaches =>
    obtain rfl : stage = .ldId := reaches
    rcases moves with rfl | moved
    · exact .rest0 (.inl rfl)
    · obtain rfl := Option.some.inj moved
      exact .rest0 (.inr rfl)
  | rest0 reaches =>
    rcases reaches with rfl | rfl
    · rcases moves with rfl | moved
      · exact .lq (.inl rfl)
      · obtain rfl := Option.some.inj moved
        exact .lq (.inr (.inl rfl))
    · rcases moves with rfl | moved
      · exact .lq (.inr (.inl rfl))
      · obtain rfl := Option.some.inj moved
        exact .lq (.inr (.inr rfl))

theorem fits_blocks (stage : IDStage) : Fits stage (blocks stage) := by
  cases stage with
  | idle => exact .none
  | rsId => exact .rs rfl
  | ldId => exact .ld rfl
  | rest0 => exact .rest0 (.inr rfl)
  | lqId => exact .lq (.inr (.inr rfl))

/-- The PWM loop leaves the stage and the sub-stage. -/
theorem PwmEffect.stage {c after : Core} {outputs : List Output}
    (effect : PwmEffect c after outputs) :
    after.scomm.idstage = c.scomm.idstage ∧ after.scomm.idsub = c.scomm.idsub := by
  cases effect with
  | off mode same => exact same ▸ ⟨rfl, rfl⟩
  | tick angle scomm => exact scomm ▸ ⟨rfl, rfl⟩
  | sample angle first second more active scomm => exact scomm ▸ ⟨rfl, rfl⟩

/-- The PWM loop computes no parameter. -/
theorem PwmEffect.not_compute {c after : Core} {outputs : List Output}
    (effect : PwmEffect c after outputs) (parameter : Parameter) (stage : IDStage)
    (accumulate0 accumulate1 : Int64) :
    .compute parameter stage accumulate0 accumulate1 ∉ outputs := by
  cases effect <;> simp

theorem safe_pwm (apart : s.core.scomm.idstage = .rest0 → s.core.scomm.idsub ≠ .activeSampling)
    (focId focIq : Int32) : SafeStep sinCos s (.pwm focId focIq) := by
  have effect := pwm_effect sinCos s.core focId focIq
  obtain ⟨stage, sub⟩ := effect.stage
  refine ⟨?_, .inl stage, fun rests => ?_⟩
  · intro _ _ _ member
    exact absurd member (effect.not_compute _ _ _ _)
  · exact apart (stage ▸ rests.1) (sub ▸ rests.2)

theorem safe_config (apart : s.core.scomm.idstage = .rest0 → s.core.scomm.idsub ≠ .activeSampling)
    (mode : MCMode) : SafeStep sinCos s (.config mode) := by
  show SafeResult _ (s.result sinCos (.config mode))
  simp only [Preempted.result, Preempted.step]
  split
  · obtain ⟨effect, -⟩ := config_effect s.core mode
    generalize s.core.configControlMode mode = result at effect
    obtain ⟨after, outputs⟩ := result
    cases effect with
    | same scomm =>
      rw [scomm]
      exact safe_stay apart
    | enter entered left scomm =>
      rw [scomm]
      refine ⟨fun _ _ _ member => ?_, .inl rfl, fun rests => by cases rests.1⟩
      cases List.mem_singleton.mp member
  · exact safe_stay apart

/-- **One step is safe if and only if no tick made two tests of the call disagree.** -/
theorem safeStep_iff (shape : Shape s) : SafeStep sinCos s event ↔ Undisturbed s event := by
  cases event with
  | pwm focId focIq => exact iff_of_true (safe_pwm shape.apart focId focIq) trivial
  | call =>
    refine iff_of_true ?_ trivial
    simp only [SafeStep, Preempted.result, Preempted.step]
    split <;> exact safe_stay shape.apart
  | block =>
    simp only [SafeStep, Preempted.result, Preempted.step, Undisturbed]
    cases pending : s.pending with
    | nil => exact iff_of_true (safe_stay shape.apart) nofun
    | cons block rest =>
      obtain ⟨scomm, -, -, outputs⟩ := runBlock_eq s.core block
      have fits := shape.fits
      rw [pending] at fits
      simp only [scomm, outputs, List.head?_cons, Option.mem_def, Option.some.injEq, forall_eq']
      exact safeBlock_iff fits.head shape.apart
  | config mode => exact iff_of_true (safe_config shape.apart mode) trivial

theorem Shape.step (shape : Shape s) (safe : SafeStep sinCos s event) :
    Shape (s.step sinCos event).1 := by
  cases event with
  | pwm focId focIq =>
    refine ⟨fun rests active => safe.apart ⟨rests, active⟩, ?_⟩
    show Fits (s.core.pwmLoop sinCos focId focIq).1.scomm.idstage s.pending
    rw [(pwm_effect sinCos s.core focId focIq).stage.1]
    exact shape.fits
  | call =>
    simp only [Preempted.step]
    split
    · exact ⟨shape.apart, fits_blocks _⟩
    · exact shape
  | block =>
    simp only [SafeStep, Preempted.result, Preempted.step] at safe ⊢
    cases pending : s.pending with
    | nil => exact shape
    | cons block rest =>
      have fits := shape.fits
      rw [pending] at fits safe
      exact ⟨fun rests active => safe.apart ⟨rests, active⟩, fits.tail safe.moves⟩
  | config mode =>
    refine ⟨fun rests active => safe.apart ⟨rests, active⟩, ?_⟩
    simp only [Preempted.step]
    split
    · next none_ =>
      rw [none_]
      exact .none
    · exact shape.fits

end Steps

theorem Shape.init (dcVinj hfiVinj hfiAngvRpt : Int32) :
    Shape ⟨Core.init dcVinj hfiVinj hfiAngvRpt, []⟩ := ⟨nofun, .none⟩

/-- **The run is safe if and only if no tick makes two tests of one call disagree.** -/
theorem preempted_safe_iff (dcVinj hfiVinj hfiAngvRpt : Int32) (events : List Event) :
    Safe sinCos dcVinj hfiVinj hfiAngvRpt events ↔
      Along (Preempted.step sinCos) Undisturbed ⟨Core.init dcVinj hfiVinj hfiAngvRpt, []⟩ events :=
  EventMachine.along_congr _ Shape (fun _ _ => safeStep_iff) (fun _ _ => Shape.step)
    (Shape.init dcVinj hfiVinj hfiAngvRpt) events

/-! ### One tick -/

theorem run_pwm (s : Preempted) (times : Nat) :
    (run (Preempted.step sinCos) s (List.replicate times (.pwm 0 0))).1 =
      { s with core := s.core.pwmTimes sinCos times } := by
  induction times generalizing s with
  | zero => rfl
  | succ times ih =>
    rw [List.replicate_succ, EventMachine.run_cons, ih]
    rfl

/-- A call of the slow loop in `RS_ID` is one block. -/
theorem run_rs {core : Core} {sub : IDSubStage} {elapsed left : Nat}
    (at_ : core.At .rsId sub elapsed left) :
    (run (Preempted.step sinCos) ⟨core, []⟩ [.call, .block]).1 = ⟨(core.runBlock .rs).1, []⟩ := by
  simp only [EventMachine.run_cons, EventMachine.run_nil, Preempted.step, at_.mode, at_.stage,
    and_self, if_true, blocks]

/-- A call of the slow loop in `LD_ID` begins with the block of `LD_ID`. -/
theorem run_ld {core : Core} {sub : IDSubStage} {elapsed left : Nat}
    (at_ : core.At .ldId sub elapsed left) :
    (run (Preempted.step sinCos) ⟨core, []⟩ [.call, .block]).1 =
      ⟨(core.runBlock .ld).1, [.rest0, .lq]⟩ := by
  simp only [EventMachine.run_cons, EventMachine.run_nil, Preempted.step, at_.mode, at_.stage,
    and_self, if_true, blocks]

/-- The resistance is identified: the mode is entered, and the slow loop runs at its entry, after
the settling time and after the samples. -/
def resistance (settling samples : Nat) : List Event :=
  [Event.config .idle, Event.config .sComm] ++ [Event.call, Event.block] ++
    List.replicate settling (Event.pwm 0 0) ++ [Event.call, Event.block] ++
    List.replicate samples (Event.pwm 0 0) ++ [Event.call, Event.block]

theorem at_resistance {settling samples : Nat} (late : eSettleMinTicks < UInt32.ofNat settling)
    (all : samples = 32768) : ∃ core elapsed,
    (run (Preempted.step sinCos) ⟨Core.init 0 0 0, []⟩ (resistance settling samples)).1 =
      ⟨core, []⟩ ∧ core.At .ldId .eSettleStart elapsed 0 := by
  have waited := at_entered.waited .rs sinCos settling
  have sampled := waited.sampled late sinCos all
  refine ⟨_, _, ?_, sampled.computed⟩
  have first : (run (Preempted.step sinCos) ⟨Core.init 0 0 0, []⟩
      [.config .idle, .config .sComm]).1 = ⟨Core.entered, []⟩ := rfl
  simp only [resistance, EventMachine.run_append_fst]
  rw [first, run_rs _ at_entered, run_pwm _ _ settling, run_rs _ waited, run_pwm _ _ samples,
    run_rs _ sampled]

/-- A call of the slow loop in `LD_ID` that nothing interrupts. -/
theorem run_ld_through {core : Core} {sub : IDSubStage} {elapsed left : Nat}
    (at_ : core.At .ldId sub elapsed left) :
    (run (Preempted.step sinCos) ⟨core, []⟩ [.call, .block, .block, .block]).1 =
      ⟨(((core.runBlock .ld).1.runBlock .rest0).1.runBlock .lq).1, []⟩ := by
  rw [show [Event.call, .block, .block, .block] = [.call, .block] ++ [.block, .block] from rfl,
    EventMachine.run_append_fst, run_ld sinCos at_]
  rfl

/-- Settling for `LD_ID` begins, and the slow loop runs again after so many ticks: one more tick
falls between its first block and its second. -/
def lateTick (ticks : Nat) : List Event :=
  [Event.call, Event.block, Event.block, Event.block] ++ List.replicate ticks (Event.pwm 0 0) ++
    [Event.call, Event.block] ++ [Event.pwm 0 0]

theorem at_lateTick {core : Core} {elapsed left ticks : Nat}
    (at_ : core.At .ldId .eSettleStart elapsed left) (early : UInt32.ofNat ticks ≤ eSettleMinTicks) :
    ∃ after, (run (Preempted.step sinCos) ⟨core, []⟩ (lateTick ticks)).1 = ⟨after, [.rest0, .lq]⟩ ∧
      after.At .ldId .eSettleWait (ticks + 1) 32768 := by
  have settling := ((at_.start .ld).wait (by decide) .rest0).wait (by decide) .lq
  have almost := settling.ticks nofun sinCos ticks
  rw [Nat.zero_add] at almost
  refine ⟨_, ?_, (almost.wait early .ld).tick nofun sinCos⟩
  simp only [lateTick, EventMachine.run_append_fst]
  rw [run_ld_through _ at_, run_pwm, run_ld _ almost]
  rfl

/-- **One tick between two blocks takes the stage from `LD_ID` to `LQ_ID`**, without an inductance
having been identified. -/
theorem not_safe :
    ¬ Safe (fun _ => (0, 0)) 0 0 0 (resistance 20001 32768 ++ lateTick 20000 ++ [.block]) := by
  obtain ⟨core, elapsed, identified, at_⟩ := at_resistance (fun _ => (0, 0))
    (show eSettleMinTicks < UInt32.ofNat 20001 by decide) (Eq.refl 32768)
  obtain ⟨after, late, at_⟩ := at_lateTick (fun _ => (0, 0)) at_
    (show UInt32.ofNat 20000 ≤ eSettleMinTicks by decide)
  intro safe
  have last := ((EventMachine.along_append _ _ _ _ _).mp safe).2.1
  rw [EventMachine.run_append_fst, identified, late] at last
  have moves := last.moves
  simp only [Preempted.result, Preempted.step, (runBlock_eq _ _).1, SComm.block, SComm.rest0Block,
    at_.sub, if_pos (at_.settled_iff.mpr (by decide)), at_.stage] at moves
  rcases moves with same | next
  · cases same
  · cases next

end ForgeDrive.Pmsm
