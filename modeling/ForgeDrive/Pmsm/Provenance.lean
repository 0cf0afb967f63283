/-
**Where the samples behind a motor parameter come from.**

A parameter is computed from the accumulators. They are to be the sum of `oversample` samples, all
of them taken by the stage of the parameter since the mode was entered, and cleared so long before
the first of them that the currents have settled. `SComm_onEnter` sets the stage and leaves the
sub-stage: an identification that was aborted while it sampled is resumed in `RS_ID`, with the
samples of the other run.

* `xmc_effect` — what a call of the slow loop that is not interrupted does to the identification;
* `fromOneStage_of_clean` — in every run that never enters the mode in the middle of the sampling of
  a run before, every parameter comes from one stage of one run;
* `not_fromOneStage` — a run that was aborted after its last sample gives the next run its
  resistance.
-/

import ForgeDrive.Library.History
import ForgeDrive.Pmsm.SComm

namespace ForgeDrive.Pmsm

open EventMachine (run Along)
open History (Each)

variable (sinCos : Int32 → Int32 × Int32)

/-! ### The runs and what is to hold -/

/-- The calls of the two loops, each without interruption, and the mode switches. -/
inductive Turn
  | pwm (focId focIq : Int32)
  | xmc
  | config (mode : MCMode)
  deriving DecidableEq, Repr

def Core.turn (c : Core) : Turn → Core × List Output
  | .pwm focId focIq => c.pwmLoop sinCos focId focIq
  | .xmc => c.xmcLoop
  | .config mode => c.configControlMode mode

/-- The stage that identifies a parameter. -/
def Parameter.stage : Parameter → IDStage
  | .r => .rsId
  | .ld => .ldId
  | .lq => .lqId

/-- The samples among the outputs, with what they add to the two accumulators. -/
def samples (outputs : List Output) : List (Int64 × Int64) :=
  outputs.filterMap fun output => match output with
    | .sample _ _ first second => some (first, second)
    | _ => none

/-- The sum of what samples add to the first accumulator. -/
def total0 (taken : List (Int64 × Int64)) : Int64 := taken.foldl (fun sum s => sum + s.1) 0

/-- The sum of what samples add to the second accumulator. -/
def total1 (taken : List (Int64 × Int64)) : Int64 := taken.foldl (fun sum s => sum + s.2) 0

/-- Nothing but samples of the stage while it samples, and ticks. -/
def Samples (stage : IDStage) (outputs : List Output) : Prop :=
  ∀ output ∈ outputs, output = .tick ∨
    ∃ first second, output = .sample stage .activeSampling first second

/-- **A parameter comes from one stage of one run**: before it there is a clearing of the accumulators
it uses; then more than `ESETTLE_MIN_TICKS` ticks without a sample; and then nothing but ticks and
samples of the stage of the parameter while that samples, `oversample` of them, of which the
accumulators are the sums. The resistance uses the first accumulator only. -/
def FromOneStage (before : List Output) : Output → Prop
  | .compute parameter stage accumulate0 accumulate1 =>
    stage = parameter.stage ∧ ∃ earlier second settling sampling,
      before = earlier ++ .clear second :: (settling ++ sampling) ∧
      samples settling = [] ∧ eSettleMinTicks.toNat < settling.count .tick ∧
      Samples stage sampling ∧ (samples sampling).length = oversample.toNat ∧
      accumulate0 = total0 (samples sampling) ∧
      (parameter ≠ .r → second = true ∧ accumulate1 = total1 (samples sampling))
  | _ => True

/-- The mode is not entered while samples of a run before are in the accumulators. -/
def Clean (c : Core) : Turn → Prop
  | .config .sComm => c.mcMode = .idle → c.scomm.idsub = .activeSampling →
      c.scomm.samplesCounter = oversample
  | _ => True

/-! ### The slow loop without interruption -/

/-- **What a call of the slow loop does to the identification.** -/
inductive XmcEffect (s : SComm) (pTicks : UInt32) : SComm → List Output → Prop
  | stay : XmcEffect s pTicks s []
  | start (second : Bool) (both : s.idstage ≠ .rsId → second = true)
      (sub : s.idsub = .eSettleStart) :
      XmcEffect s pTicks (s.settleStart pTicks second).1 [.clear second]
  | sampling (start : UInt32) (stage : s.idstage ≠ .rest0) (sub : s.idsub = .eSettleWait)
      (settled : s.settled pTicks) :
      XmcEffect s pTicks { s with eSettleStartTick := start, idsub := .activeSampling } []
  | rested (stage : s.idstage = .rest0) (sub : s.idsub = .eSettleWait) :
      XmcEffect s pTicks
        (SComm.settleStart { s with idsub := .eSettleStart, idstage := .lqId } pTicks true).1
        [.clear true]
  | compute (parameter : Parameter) (next : IDStage) (stage : s.idstage = parameter.stage)
      (moved : next ≠ .rest0) (sub : s.idsub = .activeSampling) (done : s.samplesCounter = 0) :
      XmcEffect s pTicks (s.compute parameter next).1 (s.compute parameter next).2
  | rest (stage : s.idstage = .ldId) (sub : s.idsub = .activeSampling)
      (done : s.samplesCounter = 0) :
      XmcEffect s pTicks ((s.compute .ld .rest0).1.settleStart pTicks true).1
        ((s.compute .ld .rest0).2 ++ [.clear true])

/-- The blocks of a call, as they act on the identification. -/
theorem runBlocks_eq (c : Core) (rest : List Block) :
    (run Core.runBlock c rest).1.scomm =
        (run (fun s block => s.block c.pTicks block) c.scomm rest).1 ∧
      (run Core.runBlock c rest).1.pTicks = c.pTicks ∧
      (run Core.runBlock c rest).1.mcMode = c.mcMode ∧
      (run Core.runBlock c rest).2 =
        (run (fun s block => s.block c.pTicks block) c.scomm rest).2 := by
  induction rest generalizing c with
  | nil => exact ⟨rfl, rfl, rfl, rfl⟩
  | cons block rest ih =>
    obtain ⟨scomm, pTicks, mode, outputs⟩ := runBlock_eq c block
    obtain ⟨restScomm, restPTicks, restMode, restOutputs⟩ := ih (c.runBlock block).1
    rw [scomm, pTicks] at restScomm restOutputs
    simp only [EventMachine.run_cons, outputs]
    exact ⟨restScomm, restPTicks.trans pTicks, restMode.trans mode, by rw [restOutputs]⟩

/-- The settling time that has just begun is not over. -/
theorem not_settled_start (s : SComm) (pTicks : UInt32) (second : Bool) :
    ¬ (s.settleStart pTicks second).1.settled pTicks := by
  show ¬ pTicks - pTicks > eSettleMinTicks
  rw [UInt32.sub_self]
  decide

/-- Nothing is due: the settling time is not over, or samples remain. -/
def SComm.Passes (s : SComm) (pTicks : UInt32) : Prop :=
  (s.idsub = .eSettleWait ∧ ¬ s.settled pTicks) ∨
    (s.idsub = .activeSampling ∧ s.samplesCounter ≠ 0)

/-- The blocks fallen into do nothing where nothing is due. -/
theorem run_passes {s : SComm} {pTicks : UInt32} (passes : s.Passes pTicks) :
    run (fun s block => s.block pTicks block) s [.rest0, .lq] = (s, []) ∧
      run (fun s block => s.block pTicks block) s [.lq] = (s, []) := by
  have rest0 : s.rest0Block pTicks = (s, []) := by
    rcases passes with ⟨sub, waits⟩ | ⟨sub, -⟩
    · simp only [SComm.rest0Block, sub, if_neg waits]
    · simp only [SComm.rest0Block, sub]
  have lq : s.lqBlock pTicks = (s, []) := by
    rcases passes with ⟨sub, waits⟩ | ⟨sub, more⟩
    · simp only [SComm.lqBlock, sub, if_neg waits]
    · simp only [SComm.lqBlock, sub, if_neg more]
  constructor <;> simp [SComm.block, rest0, lq]

theorem passes_start (s : SComm) (pTicks : UInt32) (second : Bool) :
    (s.settleStart pTicks second).1.Passes pTicks :=
  .inl ⟨rfl, not_settled_start s pTicks second⟩

section Effect

variable {s : SComm} {pTicks : UInt32}

/-- `RS_ID` is one block. -/
theorem rs_effect (stage : s.idstage = .rsId) :
    XmcEffect s pTicks (s.rsBlock pTicks).1 (s.rsBlock pTicks).2 := by
  unfold SComm.rsBlock
  split
  · next sub => exact .start false (fun other => absurd stage other) sub
  · next sub =>
    split
    · next settled => exact .sampling _ (by rw [stage]; decide) sub settled
    · exact .stay
  · next sub =>
    split
    · next done => exact .compute .r .ldId stage (by decide) sub done
    · exact .stay

/-- `LQ_ID` is one block. -/
theorem lq_effect (stage : s.idstage = .lqId) :
    XmcEffect s pTicks (s.lqBlock pTicks).1 (s.lqBlock pTicks).2 := by
  unfold SComm.lqBlock
  split
  · next sub => exact .start true (fun _ => rfl) sub
  · next sub =>
    split
    · next settled => exact .sampling pTicks (by rw [stage]; decide) sub settled
    · exact .stay
  · next sub =>
    split
    · next done => exact .compute .lq .rsId stage (by decide) sub done
    · exact .stay

/-- `REST0` goes on to `LQ_ID`. -/
theorem rest0_effect (stage : s.idstage = .rest0) (apart : s.idsub ≠ .activeSampling) :
    XmcEffect s pTicks (run (fun s block => s.block pTicks block) s [.rest0, .lq]).1
      (run (fun s block => s.block pTicks block) s [.rest0, .lq]).2 := by
  rw [EventMachine.run_cons]
  cases sub : s.idsub with
  | eSettleStart =>
    have block : s.block pTicks .rest0 = s.settleStart pTicks true := by
      simp only [SComm.block, SComm.rest0Block, sub]
    rw [block, (run_passes (passes_start s pTicks true)).2]
    exact .start true (fun _ => rfl) sub
  | eSettleWait =>
    by_cases settled : s.settled pTicks
    · have block : s.block pTicks .rest0 =
          ({ s with idsub := .eSettleStart, idstage := .lqId }, []) := by
        simp only [SComm.block, SComm.rest0Block, sub, if_pos settled]
      rw [block]
      exact .rested stage sub
    · have passes := run_passes (s := s) (.inl ⟨sub, settled⟩)
      rw [EventMachine.run_cons] at passes
      rw [passes.1]
      exact .stay
  | activeSampling => exact absurd sub apart

/-- `LD_ID` goes on to `REST0` and `LQ_ID`. -/
theorem ld_effect (stage : s.idstage = .ldId)
    (fresh : s.idsub = .eSettleWait → s.samplesCounter ≠ 0) :
    XmcEffect s pTicks (run (fun s block => s.block pTicks block) s [.ld, .rest0, .lq]).1
      (run (fun s block => s.block pTicks block) s [.ld, .rest0, .lq]).2 := by
  rw [EventMachine.run_cons]
  cases sub : s.idsub with
  | eSettleStart =>
    have block : s.block pTicks .ld = s.settleStart pTicks true := by
      simp only [SComm.block, SComm.ldBlock, sub]
    rw [block, (run_passes (passes_start s pTicks true)).1]
    exact .start true (fun _ => rfl) sub
  | eSettleWait =>
    by_cases settled : s.settled pTicks
    · have block : s.block pTicks .ld = ({ s with idsub := .activeSampling }, []) := by
        simp only [SComm.block, SComm.ldBlock, sub, if_pos settled]
      have passes : SComm.Passes { s with idsub := .activeSampling } pTicks :=
        .inr ⟨rfl, fresh sub⟩
      rw [block, (run_passes passes).1]
      exact .sampling _ (by rw [stage]; decide) sub settled
    · have block : s.block pTicks .ld = (s, []) := by
        simp only [SComm.block, SComm.ldBlock, sub, if_neg settled]
      rw [block, (run_passes (.inl ⟨sub, settled⟩)).1]
      exact .stay
  | activeSampling =>
    by_cases done : s.samplesCounter = 0
    · have block : s.block pTicks .ld = s.compute .ld .rest0 := by
        simp only [SComm.block, SComm.ldBlock, sub, if_pos done]
      have next : (s.compute .ld .rest0).1.block pTicks .rest0 =
          (s.compute .ld .rest0).1.settleStart pTicks true := rfl
      rw [block, EventMachine.run_cons, next, (run_passes (passes_start _ pTicks true)).2]
      exact .rest stage sub done
    · have block : s.block pTicks .ld = (s, []) := by
        simp only [SComm.block, SComm.ldBlock, sub, if_neg done]
      rw [block, (run_passes (.inr ⟨sub, done⟩)).1]
      exact .stay

theorem blocks_effect (apart : s.idstage = .rest0 → s.idsub ≠ .activeSampling)
    (fresh : s.idsub = .eSettleWait → s.samplesCounter ≠ 0) :
    XmcEffect s pTicks (run (fun s block => s.block pTicks block) s (blocks s.idstage)).1
      (run (fun s block => s.block pTicks block) s (blocks s.idstage)).2 := by
  cases stage : s.idstage with
  | idle => exact .stay
  | rsId =>
    simp only [blocks, EventMachine.run_cons, EventMachine.run_nil, List.append_nil]
    exact rs_effect stage
  | ldId => exact ld_effect stage fresh
  | rest0 => exact rest0_effect stage (apart stage)
  | lqId =>
    simp only [blocks, EventMachine.run_cons, EventMachine.run_nil, List.append_nil]
    exact lq_effect stage

end Effect

/-- **The slow loop**: in another mode it does nothing to the identification. -/
theorem xmc_effect (c : Core)
    (apart : c.scomm.idstage = .rest0 → c.scomm.idsub ≠ .activeSampling)
    (fresh : c.scomm.idsub = .eSettleWait → c.scomm.samplesCounter ≠ 0) :
    XmcEffect c.scomm c.pTicks c.xmcLoop.1.scomm c.xmcLoop.2 ∧
      c.xmcLoop.1.pTicks = c.pTicks := by
  unfold Core.xmcLoop
  split
  · obtain ⟨scomm, pTicks, -, outputs⟩ := runBlocks_eq c (blocks c.scomm.idstage)
    rw [Core.scommXmcLoop, scomm, outputs]
    exact ⟨blocks_effect apart fresh, pTicks⟩
  · exact ⟨.stay, rfl⟩

/-! ### The invariant -/

@[simp] theorem samples_append (first second : List Output) :
    samples (first ++ second) = samples first ++ samples second := List.filterMap_append

/-- **Settling**: the accumulators were cleared, no sample was taken since, and `pTicks` counts the
ticks since, unless it has wrapped. -/
def Settling (c : Core) (past : List Output) : Prop :=
  ∃ earlier second settling, past = earlier ++ .clear second :: settling ∧
    samples settling = [] ∧
    (c.pTicks - c.scomm.eSettleStartTick).toNat ≤ settling.count .tick ∧
    c.scomm.accumulate0 = 0 ∧ (second = true → c.scomm.accumulate1 = 0) ∧
    c.scomm.samplesCounter = oversample ∧ (c.scomm.idstage ≠ .rsId → second = true)

/-- The accumulators hold these samples, and the rest is still to be taken. -/
structure Held (s : SComm) (second : Bool) (taken : List (Int64 × Int64)) : Prop where
  count : taken.length + s.samplesCounter.toNat = oversample.toNat
  first : s.accumulate0 = total0 taken
  both : second = true → s.accumulate1 = total1 taken
  cleared : s.idstage ≠ .rsId → second = true
  stage : s.idstage ≠ .rest0

/-- **Sampling**: the accumulators hold the samples of the stage since they were cleared and the
settling time passed. -/
def Sampling (c : Core) (past : List Output) : Prop :=
  ∃ earlier second settling sampling, past = earlier ++ .clear second :: (settling ++ sampling) ∧
    samples settling = [] ∧ eSettleMinTicks.toNat < settling.count .tick ∧
    Samples c.scomm.idstage sampling ∧ (samples sampling = [] → sampling = []) ∧
    Held c.scomm second (samples sampling)

/-- **What the outputs say about the state**, and that every parameter so far comes from one stage
of one run. -/
structure Traced (c : Core) (past : List Output) : Prop where
  each : Each FromOneStage past
  settling : c.scomm.idsub = .eSettleWait → Settling c past
  sampling : c.scomm.idsub = .activeSampling → Sampling c past

section Invariant

variable {sinCos} {c after : Core} {past outputs : List Output}

theorem Traced.init (dcVinj hfiVinj hfiAngvRpt : Int32) :
    Traced (Core.init dcVinj hfiVinj hfiAngvRpt) [] := ⟨History.each_nil, nofun, nofun⟩

/-- The accumulators were cleared just now. -/
theorem settling_now {s : SComm} {second : Bool} (scomm : after.scomm =
    (s.settleStart after.pTicks second).1) (both : s.idstage ≠ .rsId → second = true) :
    Settling after (past ++ [.clear second]) := by
  refine ⟨past, second, [], rfl, rfl, ?_, ?_, ?_, ?_, ?_⟩
  · rw [scomm]
    show (after.pTicks - after.pTicks).toNat ≤ 0
    rw [UInt32.sub_self]
    exact Nat.le_refl 0
  · rw [scomm]
    rfl
  · rintro rfl
    rw [scomm]
    rfl
  · rw [scomm]
    rfl
  · rw [scomm]
    exact both

/-- One more tick. -/
theorem toNat_succ_sub_le (pTicks start : UInt32) :
    (pTicks + 1 - start).toNat ≤ (pTicks - start).toNat + 1 := by
  rw [show pTicks + 1 - start = (pTicks - start) + 1 by grind, UInt32.toNat_add]
  exact Nat.mod_le _ _

/-- What is no sample belongs to the settling time. -/
theorem settling_concat {settling : List Output} {output : Output} (none_ : samples settling = [])
    (free : samples [output] = []) : samples (settling ++ [output]) = [] := by
  rw [samples_append, none_, free]
  rfl

/-- Sampling, before the first sample. -/
theorem sampling_concat {earlier settling : List Output} {second : Bool} {output : Output}
    (none_ : samples settling = []) (free : samples [output] = [])
    (counted : eSettleMinTicks.toNat < settling.count .tick) (held : Held after.scomm second []) :
    Sampling after (earlier ++ .clear second :: (settling ++ []) ++ [output]) := by
  refine ⟨earlier, second, settling ++ [output], [], ?_, settling_concat none_ free, ?_, nofun,
    fun _ => rfl, held⟩
  · rw [List.append_assoc, List.cons_append, List.append_nil, List.append_nil]
  · rw [List.count_append]
    exact Nat.lt_add_right _ counted

/-- A tick that takes no sample. -/
theorem Traced.tick (traced : Traced c past) {angle : Int32}
    (scomm : after.scomm = { c.scomm with hfiAngle := angle })
    (pTicks : after.pTicks = c.pTicks + 1) : Traced after (past ++ [.tick]) where
  each := History.each_concat traced.each trivial
  settling := by
    intro sub
    obtain ⟨earlier, second, settling, rfl, none_, counted, rest⟩ :=
      traced.settling (by rwa [scomm] at sub)
    refine ⟨earlier, second, settling ++ [.tick], ?_, settling_concat none_ rfl, ?_, ?_⟩
    · rw [List.append_assoc, List.cons_append]
    · rw [scomm, pTicks, List.count_append]
      exact Nat.le_trans (toNat_succ_sub_le _ _) (Nat.succ_le_succ counted)
    · rw [scomm]
      exact rest
  sampling := by
    intro sub
    obtain ⟨earlier, second, settling, sampling, rfl, none_, counted, only, empty, held⟩ :=
      traced.sampling (by rwa [scomm] at sub)
    have held : Held after.scomm second (samples sampling) := by
      rw [scomm]
      exact ⟨held.count, held.first, held.both, held.cleared, held.stage⟩
    have stage : after.scomm.idstage = c.scomm.idstage := by rw [scomm]
    rw [← stage] at only
    cases taken : samples sampling with
    | nil =>
      -- no sample yet: the tick still belongs to the settling time
      obtain rfl := empty taken
      exact sampling_concat none_ rfl counted held
    | cons sample others =>
      have same : samples (sampling ++ [.tick]) = samples sampling := by
        rw [samples_append]
        exact List.append_nil _
      refine ⟨earlier, second, settling, sampling ++ [.tick], ?_, none_, counted, ?_, ?_, ?_⟩
      · rw [List.append_assoc, List.cons_append, List.append_assoc]
      · intro output member
        rcases List.mem_append.mp member with old | new
        · exact only output old
        · exact .inl (List.mem_singleton.mp new)
      · intro none_
        rw [same, taken] at none_
        cases none_
      · rwa [same]

/-- A sample is added to the accumulators, and counted. -/
theorem Held.sample {s : SComm} {both : Bool} {taken : List (Int64 × Int64)}
    (held : Held s both taken) (more : s.samplesCounter ≠ 0) (angle : Int32)
    (first second : Int64) :
    Held { s with
      hfiAngle := angle
      accumulate0 := s.accumulate0 + first
      accumulate1 := s.accumulate1 + second
      samplesCounter := s.samplesCounter - 1 } both (taken ++ [(first, second)]) where
  count := by
    have positive : 1 ≤ s.samplesCounter.toNat :=
      Nat.one_le_iff_ne_zero.mpr fun zero => more (UInt16.toNat_inj.mp zero)
    have less : (s.samplesCounter - 1).toNat = s.samplesCounter.toNat - 1 :=
      UInt16.toNat_sub_of_le _ _ (UInt16.le_iff_toNat_le.mpr positive)
    have count := held.count
    rw [List.length_append, List.length_singleton, less]
    omega
  first := by
    rw [total0, List.foldl_append]
    exact congrArg (· + first) held.first
  both := by
    intro both
    rw [total1, List.foldl_append]
    exact congrArg (· + second) (held.both both)
  cleared := held.cleared
  stage := held.stage

/-- A sample, and the tick behind it. -/
theorem Traced.sample (traced : Traced c past) {angle : Int32} {first second : Int64}
    (more : c.scomm.samplesCounter ≠ 0) (active : c.scomm.idsub = .activeSampling)
    (scomm : after.scomm = { c.scomm with
      hfiAngle := angle
      accumulate0 := c.scomm.accumulate0 + first
      accumulate1 := c.scomm.accumulate1 + second
      samplesCounter := c.scomm.samplesCounter - 1 }) :
    Traced after (past ++ [.sample c.scomm.idstage c.scomm.idsub first second, .tick]) where
  each := traced.each.append_of_free fun output member before => by
    rcases List.mem_pair.mp member with rfl | rfl <;> trivial
  settling := by
    intro sub
    rw [scomm] at sub
    cases active.symm.trans sub
  sampling := by
    intro sub
    obtain ⟨earlier, clear, settling, sampling, rfl, none_, counted, only, -, held⟩ :=
      traced.sampling active
    have same : samples (sampling ++ [.sample c.scomm.idstage c.scomm.idsub first second, .tick]) =
        samples sampling ++ [(first, second)] := by
      rw [samples_append]
      rfl
    refine ⟨earlier, clear, settling,
      sampling ++ [.sample c.scomm.idstage c.scomm.idsub first second, .tick],
      ?_, none_, counted, ?_, ?_, ?_⟩
    · rw [List.append_assoc, List.cons_append, List.append_assoc]
    · intro output member
      rw [scomm]
      rcases List.mem_append.mp member with old | new
      · exact only output old
      · rcases List.mem_pair.mp new with rfl | rfl
        · exact .inr ⟨first, second, by rw [active]⟩
        · exact .inl rfl
    · intro empty
      rw [same] at empty
      cases List.append_ne_nil_of_right_ne_nil _ (List.cons_ne_nil _ _) empty
    · rw [same, scomm]
      exact held.sample more angle first second

/-- The settling time is over: sampling begins with cleared accumulators. -/
theorem Settling.sampling (settling : Settling c past) (settled : c.scomm.settled c.pTicks)
    (stage : c.scomm.idstage ≠ .rest0) {start : UInt32}
    (scomm : after.scomm =
      { c.scomm with eSettleStartTick := start, idsub := .activeSampling }) :
    Sampling after past := by
  obtain ⟨earlier, second, settling, rfl, none_, counted, first, both, left, cleared⟩ := settling
  refine ⟨earlier, second, settling, [], by rw [List.append_nil], none_, ?_, nofun, fun _ => rfl, ?_⟩
  · exact Nat.lt_of_lt_of_le (UInt32.lt_iff_toNat_lt.mp settled) counted
  · rw [scomm]
    refine ⟨?_, first, both, cleared, stage⟩
    show 0 + c.scomm.samplesCounter.toNat = oversample.toNat
    rw [left, Nat.zero_add]

/-- **What is computed after the last sample comes from one stage of one run.** -/
theorem Sampling.fromOneStage (sampling : Sampling c past) {parameter : Parameter}
    (stage : c.scomm.idstage = parameter.stage) (done : c.scomm.samplesCounter = 0) :
    FromOneStage past
      (.compute parameter c.scomm.idstage c.scomm.accumulate0 c.scomm.accumulate1) := by
  obtain ⟨earlier, second, settling, sampling, rfl, none_, counted, only, -, held⟩ := sampling
  refine ⟨stage, earlier, second, settling, sampling, rfl, none_, counted, only, ?_, held.first, ?_⟩
  · have count := held.count
    rw [done] at count
    exact count
  · intro other
    have both : second = true := by
      apply held.cleared
      rw [stage]
      cases parameter with
      | r => exact absurd rfl other
      | ld | lq => decide
    exact ⟨both, held.both both⟩

/-- A call of the slow loop. -/
theorem Traced.xmc (traced : Traced c past) {scomm : SComm}
    (effect : XmcEffect c.scomm c.pTicks scomm outputs) (same : after.scomm = scomm)
    (pTicks : after.pTicks = c.pTicks) : Traced after (past ++ outputs) := by
  cases effect with
  | stay =>
    rw [List.append_nil]
    have settling : Settling c past → Settling after past := by
      unfold Settling
      rw [same, pTicks]
      exact id
    have sampling : Sampling c past → Sampling after past := by
      unfold Sampling
      rw [same]
      exact id
    exact ⟨traced.each, fun sub => settling (traced.settling (same ▸ sub)),
      fun sub => sampling (traced.sampling (same ▸ sub))⟩
  | start second both sub =>
    refine ⟨History.each_concat traced.each trivial, fun _ => ?_, fun sub => ?_⟩
    · exact settling_now (pTicks ▸ same) both
    · rw [same] at sub
      cases sub
  | sampling start stage sub settled =>
    rw [List.append_nil]
    refine ⟨traced.each, fun sub => ?_, fun _ => (traced.settling sub).sampling settled stage same⟩
    rw [same] at sub
    cases sub
  | rested stage sub =>
    refine ⟨History.each_concat traced.each trivial, fun _ => ?_, fun sub => ?_⟩
    · exact settling_now (pTicks ▸ same) fun _ => rfl
    · rw [same] at sub
      cases sub
  | compute parameter next stage moved sub done =>
    refine ⟨History.each_concat traced.each ((traced.sampling sub).fromOneStage stage done),
      fun sub => ?_, fun sub => ?_⟩
    all_goals
      rw [same] at sub
      cases sub
  | rest stage sub done =>
    rw [← List.append_assoc]
    have computed : FromOneStage past
        (.compute .ld c.scomm.idstage c.scomm.accumulate0 c.scomm.accumulate1) :=
      (traced.sampling sub).fromOneStage stage done
    refine ⟨History.each_concat (History.each_concat traced.each computed) trivial, fun _ => ?_,
      fun sub => ?_⟩
    · exact settling_now (pTicks ▸ same) fun _ => rfl
    · rw [same] at sub
      cases sub

/-- The entry of the mode, with no sample in the accumulators. -/
theorem Traced.enter (traced : Traced c past)
    (clean : c.scomm.idsub = .activeSampling → c.scomm.samplesCounter = oversample)
    (scomm : after.scomm = { c.scomm with idstage := .rsId }) (pTicks : after.pTicks = c.pTicks) :
    Traced after (past ++ [.enter]) where
  each := History.each_concat traced.each trivial
  settling := by
    intro sub
    obtain ⟨earlier, second, settling, rfl, none_, counted, first, both, left, -⟩ :=
      traced.settling (by rwa [scomm] at sub)
    refine ⟨earlier, second, settling ++ [.enter], ?_, settling_concat none_ rfl, ?_, ?_⟩
    · rw [List.append_assoc, List.cons_append]
    · rw [scomm, pTicks, List.count_append]
      exact Nat.le_add_right_of_le counted
    · rw [scomm]
      exact ⟨first, both, left, fun other => absurd rfl other⟩
  sampling := by
    intro sub
    have active : c.scomm.idsub = .activeSampling := by rwa [scomm] at sub
    obtain ⟨earlier, second, settling, sampling, rfl, none_, counted, -, empty, held⟩ :=
      traced.sampling active
    -- every sample is still to be taken, so none was
    have nothing : samples sampling = [] := by
      have count := held.count
      rw [clean active] at count
      exact List.length_eq_zero_iff.mp (by omega)
    obtain rfl := empty nothing
    refine sampling_concat none_ rfl counted ?_
    rw [scomm]
    exact ⟨held.count, held.first, held.both, fun other => absurd rfl other, nofun⟩

/-- **The step lemma.** -/
theorem Traced.turn (traced : Traced c past) {turn : Turn} (clean : Clean c turn) :
    Traced (c.turn sinCos turn).1 (past ++ (c.turn sinCos turn).2) := by
  cases turn with
  | pwm focId focIq =>
    have effect := pwm_effect sinCos c focId focIq
    rw [Core.turn]
    generalize c.pwmLoop sinCos focId focIq = result at effect
    obtain ⟨after, outputs⟩ := result
    cases effect with
    | off mode same => exact same ▸ (List.append_nil past).symm ▸ traced
    | tick angle scomm mode pTicks => exact traced.tick scomm pTicks
    | sample angle first second more active scomm => exact traced.sample more active scomm
  | xmc =>
    have apart : c.scomm.idstage = .rest0 → c.scomm.idsub ≠ .activeSampling := by
      intro stage sub
      obtain ⟨_, _, _, _, -, -, -, -, -, held⟩ := traced.sampling sub
      exact held.stage stage
    have fresh : c.scomm.idsub = .eSettleWait → c.scomm.samplesCounter ≠ 0 := by
      intro sub
      obtain ⟨_, _, _, -, -, -, -, -, left, -⟩ := traced.settling sub
      rw [left]
      decide
    obtain ⟨effect, pTicks⟩ := xmc_effect c apart fresh
    exact traced.xmc effect rfl pTicks
  | config mode =>
    obtain ⟨effect, pTicks⟩ := config_effect c mode
    rw [Core.turn]
    generalize c.configControlMode mode = result at effect pTicks
    obtain ⟨after, outputs⟩ := result
    cases effect with
    | same scomm => exact traced.xmc .stay scomm pTicks
    | enter entered left scomm =>
      rw [entered] at clean
      exact traced.enter (clean left) scomm pTicks

end Invariant

/-! ### A run that computes the resistance -/

theorem run_pwm_turns (c : Core) (times : Nat) :
    (run (Core.turn sinCos) c (List.replicate times (.pwm 0 0))).1 = c.pwmTimes sinCos times := by
  induction times generalizing c with
  | zero => rfl
  | succ times ih =>
    rw [List.replicate_succ, EventMachine.run_cons, ih]
    rfl

/-- In `RS_ID` a call of the slow loop is one block. -/
theorem xmc_rs {c : Core} {sub : IDSubStage} {elapsed left : Nat}
    (at_ : c.At .rsId sub elapsed left) :
    c.xmcLoop.1 = (c.runBlock .rs).1 ∧ c.xmcLoop.2 = (c.runBlock .rs).2 := by
  rw [Core.xmcLoop, if_pos at_.mode, Core.scommXmcLoop, at_.stage]
  exact ⟨rfl, List.append_nil _⟩

/-- The mode is entered, the settling time passes, and the samples of `RS_ID` are taken. -/
def sampled (settling taken : Nat) : List Turn :=
  [Turn.config .idle, Turn.config .sComm] ++ [Turn.xmc] ++ List.replicate settling (Turn.pwm 0 0) ++
    [Turn.xmc] ++ List.replicate taken (Turn.pwm 0 0)

theorem at_sampled {settling taken : Nat} (late : eSettleMinTicks < UInt32.ofNat settling)
    (all : taken = 32768) : ∃ elapsed,
    (run (Core.turn sinCos) (Core.init 0 0 0) (sampled settling taken)).1.At .rsId
      .activeSampling elapsed 0 := by
  have waited := at_entered.waited .rs sinCos settling
  have reached := waited.sampled late sinCos all
  refine ⟨settling + taken, ?_⟩
  have first : (run (Core.turn sinCos) (Core.init 0 0 0) [.config .idle, .config .sComm]).1 =
      Core.entered := rfl
  have xmc (c : Core) : (run (Core.turn sinCos) c [.xmc]).1 = c.xmcLoop.1 := rfl
  simp only [sampled, EventMachine.run_append_fst]
  rw [first, xmc Core.entered, (xmc_rs at_entered).1, run_pwm_turns _ _ settling, xmc,
    (xmc_rs waited).1, run_pwm_turns]
  exact reached

/-- The slow loop computes the resistance when `RS_ID` has no sample to take. -/
theorem xmc_computes {c : Core} {elapsed : Nat} (at_ : c.At .rsId .activeSampling elapsed 0) :
    c.xmcLoop.2 =
      [.compute .r c.scomm.idstage c.scomm.accumulate0 c.scomm.accumulate1] := by
  have done : c.scomm.samplesCounter = 0 := at_.left
  rw [(xmc_rs at_).2, (runBlock_eq c .rs).2.2.2]
  simp only [SComm.block, SComm.rsBlock, at_.sub, if_pos done, SComm.compute]

/-- Without entering the mode a run is clean. -/
theorem clean_of_notMem {turns : List Turn} (apart : .config .sComm ∉ turns) (c : Core) :
    Along (Core.turn sinCos) Clean c turns := by
  refine (EventMachine.along_iff_every _ _ _ _).mpr fun before turn after split => ?_
  have other : turn ≠ .config .sComm := by
    rintro rfl
    exact apart (split ▸ List.mem_append_right _ (List.mem_cons_self ..))
  cases turn with
  | pwm focId focIq => trivial
  | xmc => trivial
  | config mode =>
    cases mode with
    | sComm => exact absurd rfl other
    | _ => trivial

/-- Such a run enters the mode once, before it samples. -/
theorem clean_sampled (settling taken : Nat) :
    Along (Core.turn sinCos) Clean (Core.init 0 0 0) (sampled settling taken ++ [.xmc]) := by
  have entered : Along (Core.turn sinCos) Clean (Core.init 0 0 0)
      [.config .idle, .config .sComm] := ⟨trivial, fun _ => nofun, trivial⟩
  rw [sampled]
  simp only [List.append_assoc]
  refine (EventMachine.along_append _ _ _ _ _).mpr ⟨entered, clean_of_notMem sinCos ?_ _⟩
  simp [List.mem_replicate]

/-! ### Every run -/

/-- **Every parameter comes from one stage of one run**, in every run that never enters the mode
while samples of a run before are in the accumulators. -/
theorem fromOneStage_of_clean (dcVinj hfiVinj hfiAngvRpt : Int32) (turns : List Turn)
    (clean : Along (Core.turn sinCos) Clean (Core.init dcVinj hfiVinj hfiAngvRpt) turns) :
    Each FromOneStage (run (Core.turn sinCos) (Core.init dcVinj hfiVinj hfiAngvRpt) turns).2 := by
  have traced := EventMachine.run_history _ Traced
    (fun _ _ _ clean traced => traced.turn clean) (Traced.init dcVinj hfiVinj hfiAngvRpt) clean
  exact traced.each

/-- A run that computes the resistance, from the samples it has taken. -/
theorem fromOneStage_of_clean_sampled :
    (∃ accumulate0 accumulate1, .compute .r .rsId accumulate0 accumulate1 ∈
      (run (Core.turn fun _ => (0, 0)) (Core.init 0 0 0) (sampled 20001 32768 ++ [.xmc])).2) ∧
      Each FromOneStage (run (Core.turn fun _ => (0, 0)) (Core.init 0 0 0)
        (sampled 20001 32768 ++ [.xmc])).2 := by
  refine ⟨?_, fromOneStage_of_clean (fun _ => (0, 0)) 0 0 0 _ (clean_sampled _ 20001 32768)⟩
  obtain ⟨elapsed, at_⟩ := at_sampled (fun _ => (0, 0))
    (show eSettleMinTicks < UInt32.ofNat 20001 by decide) (Eq.refl 32768)
  have computes := xmc_computes at_
  rw [at_.stage] at computes
  rw [EventMachine.run_append_snd, EventMachine.run_singleton, Core.turn, computes]
  exact ⟨_, _, List.mem_append_right _ (List.mem_singleton_self _)⟩

/-! ### A resistance from the run before -/

/-- A parameter is not computed from one stage of one run right after the mode was entered. -/
theorem not_fromOneStage_enter (past : List Output) (parameter : Parameter) (stage : IDStage)
    (accumulate0 accumulate1 : Int64) :
    ¬ FromOneStage (past ++ [.enter]) (.compute parameter stage accumulate0 accumulate1) := by
  rintro ⟨-, earlier, second, settling, sampling, split, -, -, only, all, -⟩
  rcases List.eq_nil_or_concat sampling with rfl | ⟨front, last, rfl⟩
  · cases all
  · rw [List.concat_eq_append, ← List.append_assoc, ← List.cons_append, ← List.append_assoc] at split
    obtain ⟨-, same⟩ := List.append_inj' split rfl
    obtain rfl := (List.cons.inj same).1
    rcases only .enter (by simp) with tick | ⟨first, second, sample⟩
    · cases tick
    · cases sample

/-- The mode is left and entered again: only the stage is set. -/
theorem reentered {c : Core} {stage : IDStage} {sub : IDSubStage} {elapsed left : Nat}
    (at_ : c.At stage sub elapsed left) :
    (run (Core.turn sinCos) c [.config .idle, .config .sComm]).2 = [.enter] ∧
      (run (Core.turn sinCos) c [.config .idle, .config .sComm]).1.At .rsId sub elapsed left := by
  have idle : c.configControlMode .idle = ({ c with mcMode := .idle }, []) := by
    simp only [Core.configControlMode, Core.setControlMode, at_.mode]
    rfl
  have again : (run (Core.turn sinCos) c [.config .idle, .config .sComm]) =
      ({ c with
          scomm := { c.scomm with idstage := .rsId }, runMode := .override, elecMode := .voltage
          mcMode := .sComm }, [.enter]) := by
    simp only [EventMachine.run_cons, EventMachine.run_nil, Core.turn, idle]
    rfl
  rw [again]
  exact ⟨rfl, rfl, rfl, at_.sub, at_.elapsed, at_.left⟩

/-- **The resistance of the second run comes from the samples of the first**: that was aborted after
its last sample, and the first call of the slow loop in the second run computes. -/
theorem not_fromOneStage :
    ¬ Each FromOneStage (run (Core.turn fun _ => (0, 0)) (Core.init 0 0 0)
      (sampled 20001 32768 ++ [.config .idle, .config .sComm] ++ [.xmc])).2 := by
  obtain ⟨elapsed, at_⟩ := at_sampled (fun _ => (0, 0))
    (show eSettleMinTicks < UInt32.ofNat 20001 by decide) (Eq.refl 32768)
  obtain ⟨enters, again⟩ := reentered (fun _ => (0, 0)) at_
  have xmc (c : Core) : (run (Core.turn fun _ => (0, 0)) c [.xmc]).2 = c.xmcLoop.2 :=
    List.append_nil _
  intro each
  rw [EventMachine.run_append_snd, EventMachine.run_append_fst, EventMachine.run_append_snd, enters,
    xmc, xmc_computes again] at each
  exact not_fromOneStage_enter _ _ _ _ _ (each _ _ [] rfl)

end ForgeDrive.Pmsm
