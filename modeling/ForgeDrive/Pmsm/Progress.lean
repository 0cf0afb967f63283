/-
**Self-commissioning goes on and on** (`SComm_pwmLoop`, `SComm_xmcLoop`).

No stage waits for ever. Between two calls of the slow loop the PWM loop runs, at least once and not so
often that `pTicks` laps the settling time. Then every call brings the identification closer to the
parameter that is due, or computes it: a settling time takes at most 20001 calls, the samples of a
stage at most 32768, and `LQ_ID` is preceded by the rest of `REST0`.

* `slow_start`, `slow_passes`, `slow_settled`, `slow_rested`, `slow_done` — what a call of the slow
  loop does, by sub-stage;
* `Ticked` — what the PWM loop does between two calls;
* `recurs` — one call of the slow loop with the PWM loop before it;
* `identifies_in_turn` — from every entry of the mode, whatever the identification was left with, the
  resistance and the two inductances are computed in turn, all three within 178310 calls.
-/

import Mathlib.Algebra.Order.Ring.Nat
import ForgeDrive.Library.Recurrence
import ForgeDrive.Pmsm.Provenance

namespace ForgeDrive.Pmsm

open EventMachine (run)
open Recurrence

/-! ### What is due -/

/-- The parameter that is computed after another. -/
def Parameter.next : Parameter → Parameter
  | .r => .ld
  | .ld => .lq
  | .lq => .r

/-- The parameter that is computed next in a stage. -/
def IDStage.due : IDStage → Parameter
  | .idle | .rsId => .r
  | .ldId => .ld
  | .rest0 | .lqId => .lq

/-- The parameters among the outputs. -/
def computed (outputs : List Output) : List Parameter :=
  outputs.filterMap fun output => match output with
    | .compute parameter _ _ _ => some parameter
    | _ => none

@[simp] theorem computed_append (first second : List Output) :
    computed (first ++ second) = computed first ++ computed second := List.filterMap_append

/-- The ticks since the settling began. -/
def SComm.elapsed (s : SComm) (pTicks : UInt32) : Nat := (pTicks - s.eSettleStartTick).toNat

/-- **The calls of the slow loop that are left** until a parameter is computed, at most: 20001 for a
settling time, of which the ticks that have passed are gone, and 32768 for the samples. -/
def SComm.callsLeft (s : SComm) (pTicks : UInt32) : Nat :=
  match s.idsub with
  | .eSettleStart => 52770
  | .eSettleWait =>
    (if s.elapsed pTicks ≤ 20000 then 20001 - s.elapsed pTicks else 20002) +
      (if s.idstage = .rest0 then 20001 else 0) + 32768
  | .activeSampling => max 1 s.samplesCounter.toNat

/-- The calls that a parameter takes after the one before it, at most. -/
def allowance : Parameter → Nat
  | .r | .ld => 52770
  | .lq => 72770

/-- **Identifying**: what holds between two calls of the slow loop. Only in `RS_ID` the sub-stage may
be one that was left behind, with a settling time of any age. -/
structure SComm.Identifying (s : SComm) (pTicks : UInt32) : Prop where
  stage : s.idstage ≠ .idle
  left : s.samplesCounter.toNat ≤ 32768
  rests : s.idstage = .rest0 → s.idsub = .eSettleWait
  fresh : s.idstage ≠ .rsId → s.idsub = .eSettleWait →
    s.samplesCounter = oversample ∧ s.elapsed pTicks ≤ 20000

/-! ### A call of the slow loop -/

/-- `SComm_xmcLoop` as it acts on the identification. -/
def SComm.slow (s : SComm) (pTicks : UInt32) : SComm × List Output :=
  run (fun s block => s.block pTicks block) s (blocks s.idstage)

theorem xmcLoop_slow {c : Core} (mode : c.mcMode = .sComm) :
    c.xmcLoop.1.scomm = (c.scomm.slow c.pTicks).1 ∧ c.xmcLoop.1.pTicks = c.pTicks ∧
      c.xmcLoop.1.mcMode = .sComm ∧ c.xmcLoop.2 = (c.scomm.slow c.pTicks).2 := by
  rw [Core.xmcLoop, if_pos mode]
  obtain ⟨scomm, pTicks, sameMode, outputs⟩ := runBlocks_eq c (blocks c.scomm.idstage)
  exact ⟨scomm, pTicks, sameMode.trans mode, outputs⟩

section Slow

variable {s : SComm} {pTicks : UInt32}

/-- The first block of a stage, before those it falls through to. -/
theorem slow_first {block : Block} {rest : List Block} (split : blocks s.idstage = block :: rest) :
    s.slow pTicks =
      ((run (fun s block => s.block pTicks block) (s.block pTicks block).1 rest).1,
        (s.block pTicks block).2 ++
          (run (fun s block => s.block pTicks block) (s.block pTicks block).1 rest).2) := by
  rw [SComm.slow, split, EventMachine.run_cons]

/-- Where nothing is due, the blocks fallen into do nothing. -/
theorem run_rest {stage : IDStage} {block : Block} {rest : List Block}
    (split : blocks stage = block :: rest) (passes : s.Passes pTicks) :
    run (fun s block => s.block pTicks block) s rest = (s, []) := by
  cases stage with
  | idle => cases split
  | rsId | lqId =>
    obtain ⟨-, rfl⟩ := List.cons.inj split
    rfl
  | ldId =>
    obtain ⟨-, rfl⟩ := List.cons.inj split
    exact (run_passes passes).1
  | rest0 =>
    obtain ⟨-, rfl⟩ := List.cons.inj split
    exact (run_passes passes).2

theorem exists_first (stage : s.idstage ≠ .idle) :
    ∃ block rest, blocks s.idstage = block :: rest := by
  cases at_ : s.idstage with
  | idle => exact absurd at_ stage
  | rsId | ldId | rest0 | lqId => exact ⟨_, _, rfl⟩

/-- **The settling begins.** -/
theorem slow_start (pTicks : UInt32) (stage : s.idstage ≠ .idle) (sub : s.idsub = .eSettleStart) :
    ∃ second, s.slow pTicks = s.settleStart pTicks second := by
  obtain ⟨block, rest, split⟩ := exists_first stage
  obtain ⟨second, starts⟩ : ∃ second, s.block pTicks block = s.settleStart pTicks second := by
    cases block with
    | rs => exact ⟨false, by simp only [SComm.block, SComm.rsBlock, sub]⟩
    | ld => exact ⟨true, by simp only [SComm.block, SComm.ldBlock, sub]⟩
    | rest0 => exact ⟨true, by simp only [SComm.block, SComm.rest0Block, sub]⟩
    | lq => exact ⟨true, by simp only [SComm.block, SComm.lqBlock, sub]⟩
  refine ⟨second, ?_⟩
  rw [slow_first split, starts, run_rest split (passes_start s pTicks second), List.append_nil]

/-- **Nothing is due.** -/
theorem slow_passes (stage : s.idstage ≠ .idle) (passes : s.Passes pTicks) :
    s.slow pTicks = (s, []) := by
  obtain ⟨block, rest, split⟩ := exists_first stage
  have first : s.block pTicks block = (s, []) := by
    rcases passes with ⟨sub, waits⟩ | ⟨sub, more⟩
    · cases block with
      | rs => simp only [SComm.block, SComm.rsBlock, sub, if_neg waits]
      | ld => simp only [SComm.block, SComm.ldBlock, sub, if_neg waits]
      | rest0 => simp only [SComm.block, SComm.rest0Block, sub, if_neg waits]
      | lq => simp only [SComm.block, SComm.lqBlock, sub, if_neg waits]
    · cases block with
      | rs => simp only [SComm.block, SComm.rsBlock, sub, if_neg more]
      | ld => simp only [SComm.block, SComm.ldBlock, sub, if_neg more]
      | rest0 => simp only [SComm.block, SComm.rest0Block, sub]
      | lq => simp only [SComm.block, SComm.lqBlock, sub, if_neg more]
  rw [slow_first split, first, run_rest split passes, List.append_nil]

/-- **The settling is over**, and the stage samples. -/
theorem slow_settled (stage : s.idstage ≠ .idle) (busy : s.idstage ≠ .rest0)
    (sub : s.idsub = .eSettleWait) (settled : s.settled pTicks)
    (fresh : s.idstage = .ldId → s.samplesCounter ≠ 0) :
    ∃ start, s.slow pTicks =
      ({ s with eSettleStartTick := start, idsub := .activeSampling }, []) := by
  cases at_ : s.idstage with
  | idle => exact absurd at_ stage
  | rest0 => exact absurd at_ busy
  | rsId =>
    refine ⟨s.eSettleStartTick, ?_⟩
    simp only [SComm.slow, at_, blocks, EventMachine.run_cons, EventMachine.run_nil, SComm.block,
      SComm.rsBlock, sub, if_pos settled, List.append_nil]
  | lqId =>
    refine ⟨pTicks, ?_⟩
    simp only [SComm.slow, at_, blocks, EventMachine.run_cons, EventMachine.run_nil, SComm.block,
      SComm.lqBlock, sub, if_pos settled, List.append_nil]
  | ldId =>
    -- The cases fallen into find a stage that samples, with all samples still to be taken.
    have split : blocks s.idstage = .ld :: [.rest0, .lq] := by rw [at_]; rfl
    have block : s.block pTicks .ld = ({ s with idsub := .activeSampling }, []) := by
      simp only [SComm.block, SComm.ldBlock, sub, if_pos settled]
    have passes : SComm.Passes { s with idsub := .activeSampling } pTicks :=
      .inr ⟨rfl, fresh at_⟩
    refine ⟨s.eSettleStartTick, ?_⟩
    rw [slow_first split, block, run_rest split passes]
    simp only [at_, List.append_nil]

/-- **The rest is over**, and `LQ_ID` begins its settling in the same call. -/
theorem slow_rested (stage : s.idstage = .rest0) (sub : s.idsub = .eSettleWait)
    (settled : s.settled pTicks) :
    s.slow pTicks =
      SComm.settleStart { s with idsub := .eSettleStart, idstage := .lqId } pTicks true := by
  have split : blocks s.idstage = .rest0 :: [.lq] := by rw [stage]; rfl
  have block : s.block pTicks .rest0 =
      ({ s with idsub := .eSettleStart, idstage := .lqId }, []) := by
    simp only [SComm.block, SComm.rest0Block, sub, if_pos settled]
  rw [slow_first split, block]
  rfl

/-- **All samples are taken**: the parameter is computed. After `LD_ID` the rest begins in the same
call. -/
theorem slow_done (pTicks : UInt32) (stage : s.idstage ≠ .idle) (busy : s.idstage ≠ .rest0)
    (sub : s.idsub = .activeSampling) (done : s.samplesCounter = 0) :
    (s.idstage = .ldId ∧ s.slow pTicks =
        (((s.compute .ld .rest0).1.settleStart pTicks true).1,
          (s.compute .ld .rest0).2 ++ [.clear true])) ∨
      ∃ next, s.slow pTicks = s.compute s.idstage.due next ∧ next.due = s.idstage.due.next ∧
        next ≠ .idle ∧ next ≠ .rest0 := by
  cases at_ : s.idstage with
  | idle => exact absurd at_ stage
  | rest0 => exact absurd at_ busy
  | rsId =>
    refine .inr ⟨.ldId, ?_, rfl, by simp, by simp⟩
    simp only [SComm.slow, at_, blocks, EventMachine.run_cons, EventMachine.run_nil, SComm.block,
      SComm.rsBlock, sub, if_pos done, List.append_nil]
    rfl
  | lqId =>
    refine .inr ⟨.rsId, ?_, rfl, by simp, by simp⟩
    simp only [SComm.slow, at_, blocks, EventMachine.run_cons, EventMachine.run_nil, SComm.block,
      SComm.lqBlock, sub, if_pos done, List.append_nil]
    rfl
  | ldId =>
    have split : blocks s.idstage = .ld :: [.rest0, .lq] := by rw [at_]; rfl
    have block : s.block pTicks .ld = s.compute .ld .rest0 := by
      simp only [SComm.block, SComm.ldBlock, sub, if_pos done]
    have next : (s.compute .ld .rest0).1.block pTicks .rest0 =
        (s.compute .ld .rest0).1.settleStart pTicks true := rfl
    refine .inl ⟨rfl, ?_⟩
    rw [slow_first split, block, EventMachine.run_cons, next,
      (run_passes (passes_start _ pTicks true)).2]
    rfl

end Slow

/-! ### The PWM loop between two calls -/

/-- **So many ticks**: while the stage samples, each takes a sample. -/
structure Ticked (c after : Core) (ticks : Nat) : Prop where
  mode : after.mcMode = c.mcMode
  stage : after.scomm.idstage = c.scomm.idstage
  sub : after.scomm.idsub = c.scomm.idsub
  start : after.scomm.eSettleStartTick = c.scomm.eSettleStartTick
  pTicks : after.pTicks = c.pTicks + UInt32.ofNat ticks
  left : after.scomm.samplesCounter.toNat =
    if c.scomm.idsub = .activeSampling then c.scomm.samplesCounter.toNat - ticks
    else c.scomm.samplesCounter.toNat

theorem take_left (s : SComm) (first second : Int64) :
    (s.take first second).1.samplesCounter.toNat =
      if s.idsub = .activeSampling then s.samplesCounter.toNat - 1 else s.samplesCounter.toNat := by
  unfold SComm.take
  split
  · next takes =>
    have positive : 1 ≤ s.samplesCounter.toNat :=
      Nat.one_le_iff_ne_zero.mpr fun zero => takes.1 (UInt16.toNat_inj.mp zero)
    rw [if_pos takes.2]
    exact UInt16.toNat_sub_of_le _ _ (UInt16.le_iff_toNat_le.mpr positive)
  · next passes =>
    split
    · next sub =>
      have zero : s.samplesCounter = 0 := by
        by_contra more
        exact passes ⟨more, sub⟩
      rw [zero]
      rfl
    · rfl

theorem take_same (s : SComm) (first second : Int64) :
    (s.take first second).1.idstage = s.idstage ∧ (s.take first second).1.idsub = s.idsub ∧
      (s.take first second).1.eSettleStartTick = s.eSettleStartTick := by
  unfold SComm.take
  split <;> exact ⟨rfl, rfl, rfl⟩

section Ticks

variable {c : Core}

/-- A tick after a sample, or none. -/
theorem Ticked.of_take {after : Core} {angle : Int32} {first second : Int64}
    (mode : after.mcMode = c.mcMode) (pTicks : after.pTicks = c.pTicks + 1)
    (scomm : after.scomm = { (c.scomm.take first second).1 with hfiAngle := angle }) :
    Ticked c after 1 := by
  obtain ⟨stage, sub, start⟩ := take_same c.scomm first second
  exact ⟨mode, scomm ▸ stage, scomm ▸ sub, scomm ▸ start, pTicks,
    scomm ▸ take_left c.scomm first second⟩

theorem ticked_pwm (sinCos : Int32 → Int32 × Int32) (mode : c.mcMode = .sComm)
    (samples : c.scomm.idsub = .activeSampling →
      c.scomm.idstage ≠ .idle ∧ c.scomm.idstage ≠ .rest0) (focId focIq : Int32) :
    Ticked c (c.pwmLoop sinCos focId focIq).1 1 := by
  cases stage : c.scomm.idstage with
  | rsId | ldId | lqId =>
    simp only [Core.pwmLoop, mode, Core.scommPwmLoop, stage, SComm.heterodyne]
    exact .of_take mode.symm rfl rfl
  | idle | rest0 =>
    have inactive : c.scomm.idsub ≠ .activeSampling := by
      intro sub
      have busy := samples sub
      rw [stage] at busy
      simp at busy
    simp only [Core.pwmLoop, mode, Core.scommPwmLoop, stage]
    exact ⟨mode.symm, stage.symm ▸ rfl, rfl, rfl, rfl, (if_neg inactive).symm⟩

/-- The ticks of two stretches. -/
theorem Ticked.trans {between after : Core} {first second : Nat} (ticked : Ticked c between first)
    (more : Ticked between after second) : Ticked c after (first + second) where
  mode := more.mode.trans ticked.mode
  stage := more.stage.trans ticked.stage
  sub := more.sub.trans ticked.sub
  start := more.start.trans ticked.start
  pTicks := by rw [more.pTicks, ticked.pTicks, UInt32.ofNat_add, UInt32.add_assoc]
  left := by
    rw [more.left, ticked.left, ticked.sub]
    split
    · exact Nat.sub_sub _ _ _
    · rfl

theorem Ticked.refl (c : Core) : Ticked c c 0 := by
  refine ⟨rfl, rfl, rfl, rfl, (UInt32.add_zero _).symm, ?_⟩
  rw [Nat.sub_zero, ite_self]

/-- The PWM loop as often as there are readings. -/
def pwmTurns (readings : List (Int32 × Int32)) : List Turn :=
  readings.map fun reading => .pwm reading.1 reading.2

theorem ticked_pwmTurns (sinCos : Int32 → Int32 × Int32) (mode : c.mcMode = .sComm)
    (samples : c.scomm.idsub = .activeSampling →
      c.scomm.idstage ≠ .idle ∧ c.scomm.idstage ≠ .rest0) (readings : List (Int32 × Int32)) :
    Ticked c (run (Core.turn sinCos) c (pwmTurns readings)).1 readings.length := by
  induction readings generalizing c with
  | nil => exact .refl c
  | cons reading rest ih =>
    have first := ticked_pwm sinCos mode samples reading.1 reading.2
    have later := ih (first.mode.trans mode) (by rw [first.sub, first.stage]; exact samples)
    rw [List.length_cons, Nat.add_comm]
    exact first.trans later

/-- No parameter is computed by the PWM loop. -/
theorem computed_pwmTurns (sinCos : Int32 → Int32 × Int32) (c : Core)
    (readings : List (Int32 × Int32)) :
    computed (run (Core.turn sinCos) c (pwmTurns readings)).2 = [] := by
  induction readings generalizing c with
  | nil => rfl
  | cons reading rest ih =>
    rw [pwmTurns, List.map_cons, EventMachine.run_cons, computed_append]
    refine List.append_eq_nil_iff.mpr ⟨?_, ih _⟩
    have effect := pwm_effect sinCos c reading.1 reading.2
    rw [Core.turn]
    generalize c.pwmLoop sinCos reading.1 reading.2 = result at effect ⊢
    obtain ⟨after, outputs⟩ := result
    cases effect <;> rfl

/-- The ticks count, until they wrap. -/
theorem Ticked.elapsed {after : Core} {ticks : Nat} (ticked : Ticked c after ticks) :
    after.scomm.elapsed after.pTicks = (c.scomm.elapsed c.pTicks + ticks) % 2 ^ 32 := by
  have moved : c.pTicks + UInt32.ofNat ticks - c.scomm.eSettleStartTick =
      c.pTicks - c.scomm.eSettleStartTick + UInt32.ofNat ticks := by grind
  rw [SComm.elapsed, ticked.pTicks, ticked.start, moved, UInt32.toNat_add, UInt32.toNat_ofNat',
    Nat.add_mod_mod]
  rfl

end Ticks

/-! ### The two loops together -/

/-- The PWM loop with these readings, and a call of the slow loop. -/
def slowCall (readings : List (Int32 × Int32)) : List Turn := pwmTurns readings ++ [.xmc]

/-- **The pace**: the PWM loop runs between two calls of the slow loop, and not so often that `pTicks`
laps the settling time. -/
def Paced (turns : List Turn) : Prop :=
  ∃ readings, turns = slowCall readings ∧ 0 < readings.length ∧
    readings.length < 2 ^ 32 - 20000

/-- The core between two calls of the slow loop. -/
def Core.Identifying (c : Core) : Prop :=
  c.mcMode = .sComm ∧ c.scomm.Identifying c.pTicks

theorem settled_iff_elapsed (s : SComm) (pTicks : UInt32) :
    s.settled pTicks ↔ 20000 < s.elapsed pTicks := UInt32.lt_iff_toNat_lt

/-- The settling has just begun. -/
theorem Identifying.of_start {s : SComm} (stage : s.idstage ≠ .idle) (pTicks : UInt32)
    (second : Bool) :
    (s.settleStart pTicks second).1.Identifying pTicks ∧
      (s.settleStart pTicks second).1.callsLeft pTicks =
        if s.idstage = .rest0 then 72770 else 52769 := by
  have elapsed : (s.settleStart pTicks second).1.elapsed pTicks = 0 := by
    rw [SComm.elapsed]
    show (pTicks - pTicks).toNat = 0
    rw [UInt32.sub_self]
    rfl
  refine ⟨⟨stage, ?_, fun _ => rfl, fun _ _ => ⟨rfl, ?_⟩⟩, ?_⟩
  · show oversample.toNat ≤ 32768
    decide
  · rw [elapsed]
    exact Nat.zero_le _
  · show (if (s.settleStart pTicks second).1.elapsed pTicks ≤ 20000 then
        20001 - (s.settleStart pTicks second).1.elapsed pTicks else 20002) +
      (if s.idstage = .rest0 then 20001 else 0) + 32768 = _
    rw [elapsed]
    by_cases rests : s.idstage = .rest0 <;> simp [rests]

section Recurring

variable {sinCos : Int32 → Int32 × Int32} {c between : Core} {ticks : Nat}

/-- **What a call does after so many ticks**: the identification has come closer to what is due, or it
is computed. -/
def Advances (before : SComm) (pTicks : UInt32) (callsLeft : Nat) (result : SComm × List Output) :
    Prop :=
  result.1.Identifying pTicks ∧
    ((computed result.2 = [] ∧ result.1.idstage.due = before.idstage.due ∧
        result.1.callsLeft pTicks < callsLeft) ∨
      (computed result.2 = [before.idstage.due] ∧
        result.1.idstage.due = before.idstage.due.next ∧
        result.1.callsLeft pTicks ≤ allowance before.idstage.due.next))

/-- Only `eSettleWait` is a sub-stage of `REST0`. -/
theorem Ticked.busy (ticked : Ticked c between ticks) (identifying : c.scomm.Identifying c.pTicks)
    (sub : c.scomm.idsub ≠ .eSettleWait) : between.scomm.idstage ≠ .rest0 := by
  rw [ticked.stage]
  exact fun rests => sub (identifying.rests rests)

theorem advances_start (identifying : c.scomm.Identifying c.pTicks)
    (ticked : Ticked c between ticks) (sub : c.scomm.idsub = .eSettleStart) :
    Advances c.scomm between.pTicks (c.scomm.callsLeft c.pTicks)
      (between.scomm.slow between.pTicks) := by
  have stage : between.scomm.idstage ≠ .idle := ticked.stage ▸ identifying.stage
  have busy := ticked.busy identifying (by rw [sub]; decide)
  obtain ⟨second, starts⟩ := slow_start between.pTicks stage (ticked.sub.trans sub)
  obtain ⟨after, left⟩ := Identifying.of_start stage between.pTicks second
  rw [starts]
  refine ⟨after, .inl ⟨rfl, congrArg IDStage.due ticked.stage, ?_⟩⟩
  rw [left, if_neg busy, SComm.callsLeft, sub]
  exact Nat.lt_succ_self 52769

/-- No sample is taken while the motor settles. -/
theorem Ticked.counter (ticked : Ticked c between ticks) (sub : c.scomm.idsub = .eSettleWait) :
    between.scomm.samplesCounter = c.scomm.samplesCounter := by
  have left := ticked.left
  rw [if_neg (by rw [sub]; decide)] at left
  exact UInt16.toNat_inj.mp left

/-- The calls left while the motor settles. -/
theorem callsLeft_wait {s : SComm} (sub : s.idsub = .eSettleWait) (pTicks : UInt32) :
    s.callsLeft pTicks = (if s.elapsed pTicks ≤ 20000 then 20001 - s.elapsed pTicks else 20002) +
      (if s.idstage = .rest0 then 20001 else 0) + 32768 := by
  rw [SComm.callsLeft, sub]

/-- The settling time is over. -/
theorem advances_settled (identifying : c.scomm.Identifying c.pTicks)
    (ticked : Ticked c between ticks) (sub : c.scomm.idsub = .eSettleWait)
    (settled : between.scomm.settled between.pTicks) :
    Advances c.scomm between.pTicks (c.scomm.callsLeft c.pTicks)
      (between.scomm.slow between.pTicks) := by
  have stage : between.scomm.idstage ≠ .idle := ticked.stage ▸ identifying.stage
  have waits : between.scomm.idsub = .eSettleWait := ticked.sub.trans sub
  have counter := ticked.counter sub
  have before := callsLeft_wait sub c.pTicks
  by_cases rests : between.scomm.idstage = .rest0
  · rw [slow_rested rests waits settled]
    obtain ⟨after, left⟩ := Identifying.of_start
      (s := { between.scomm with idsub := .eSettleStart, idstage := .lqId }) nofun
      between.pTicks true
    refine ⟨after, .inl ⟨rfl, ?_, ?_⟩⟩
    · rw [← ticked.stage, rests]
      rfl
    · rw [left, before, if_pos (ticked.stage.symm.trans rests),
        if_neg (show IDStage.lqId ≠ .rest0 by decide)]
      split <;> omega
  · have some_ : between.scomm.idstage = .ldId → between.scomm.samplesCounter ≠ 0 := by
      intro ld
      rw [counter, (identifying.fresh (by rw [← ticked.stage, ld]; decide) sub).1]
      decide
    obtain ⟨start, samples⟩ := slow_settled stage rests waits settled some_
    rw [samples]
    have small : between.scomm.samplesCounter.toNat ≤ 32768 := counter ▸ identifying.left
    refine ⟨⟨stage, small, fun at_ => absurd at_ rests, fun _ => nofun⟩,
      .inl ⟨rfl, congrArg IDStage.due ticked.stage, ?_⟩⟩
    rw [before]
    show max 1 between.scomm.samplesCounter.toNat < _
    split <;> omega

theorem advances_wait (identifying : c.scomm.Identifying c.pTicks)
    (ticked : Ticked c between ticks) (positive : 0 < ticks) (few : ticks < 2 ^ 32 - 20000)
    (sub : c.scomm.idsub = .eSettleWait) :
    Advances c.scomm between.pTicks (c.scomm.callsLeft c.pTicks)
      (between.scomm.slow between.pTicks) := by
  by_cases settled : between.scomm.settled between.pTicks
  · exact advances_settled identifying ticked sub settled
  · have stage : between.scomm.idstage ≠ .idle := ticked.stage ▸ identifying.stage
    have waits : between.scomm.idsub = .eSettleWait := ticked.sub.trans sub
    have counter := ticked.counter sub
    have elapsed := ticked.elapsed
    have early : between.scomm.elapsed between.pTicks ≤ 20000 :=
      Nat.not_lt.mp fun late => settled ((settled_iff_elapsed _ _).mpr late)
    rw [slow_passes stage (.inl ⟨waits, settled⟩)]
    refine ⟨⟨stage, counter ▸ identifying.left, fun _ => waits, fun other _ =>
      ⟨counter.trans (identifying.fresh (ticked.stage ▸ other) sub).1, early⟩⟩,
      .inl ⟨rfl, congrArg IDStage.due ticked.stage, ?_⟩⟩
    show between.scomm.callsLeft between.pTicks < _
    rw [callsLeft_wait waits, callsLeft_wait sub, if_pos early, ticked.stage]
    refine Nat.add_lt_add_right (Nat.add_lt_add_right ?_ _) _
    split <;> omega

theorem advances_sampling (identifying : c.scomm.Identifying c.pTicks)
    (ticked : Ticked c between ticks) (positive : 0 < ticks)
    (sub : c.scomm.idsub = .activeSampling) :
    Advances c.scomm between.pTicks (c.scomm.callsLeft c.pTicks)
      (between.scomm.slow between.pTicks) := by
  have stage : between.scomm.idstage ≠ .idle := ticked.stage ▸ identifying.stage
  have busy := ticked.busy identifying (by rw [sub]; decide)
  have samples : between.scomm.idsub = .activeSampling := ticked.sub.trans sub
  have taken := ticked.left
  rw [if_pos sub] at taken
  have small := identifying.left
  by_cases done : between.scomm.samplesCounter = 0
  · rcases slow_done between.pTicks stage busy samples done with
      ⟨ld, computes⟩ | ⟨next, computes, follows, notIdle, notRest⟩
    · obtain ⟨after, left⟩ := Identifying.of_start (s := (between.scomm.compute .ld .rest0).1)
        nofun between.pTicks true
      have due : c.scomm.idstage.due = .ld := by
        rw [← ticked.stage, ld]
        rfl
      rw [computes, Advances, due]
      exact ⟨after, .inr ⟨rfl, rfl, Nat.le_of_eq left⟩⟩
    · rw [computes]
      refine ⟨⟨notIdle, by rw [SComm.compute, done]; decide, fun rests => absurd rests notRest,
        fun _ => nofun⟩, .inr ⟨?_, ?_, ?_⟩⟩
      · rw [← ticked.stage]
        rfl
      · rw [← ticked.stage]
        exact follows
      · show 52770 ≤ _
        cases c.scomm.idstage.due.next <;> decide
  · rw [slow_passes stage (.inr ⟨samples, done⟩)]
    have fewer : between.scomm.samplesCounter.toNat ≤ 32768 := by omega
    refine ⟨⟨stage, fewer, fun rests => absurd rests busy, fun _ waits =>
      absurd (samples.symm.trans waits) (by decide)⟩,
      .inl ⟨rfl, congrArg IDStage.due ticked.stage, ?_⟩⟩
    have more : between.scomm.samplesCounter.toNat ≠ 0 := fun zero =>
      done (UInt16.toNat_inj.mp zero)
    rw [SComm.callsLeft, SComm.callsLeft, sub, samples]
    simp only [Nat.max_def]
    split <;> split <;> omega

/-- **One call of the slow loop, with the PWM loop before it.** -/
theorem Core.Identifying.advances (identifying : c.Identifying) {turns : List Turn}
    (paced : Paced turns) :
    (run (Core.turn sinCos) c turns).1.mcMode = .sComm ∧
      Advances c.scomm (run (Core.turn sinCos) c turns).1.pTicks (c.scomm.callsLeft c.pTicks)
        ((run (Core.turn sinCos) c turns).1.scomm, (run (Core.turn sinCos) c turns).2) := by
  obtain ⟨mode, identifying⟩ := identifying
  obtain ⟨readings, rfl, positive, few⟩ := paced
  have samples : c.scomm.idsub = .activeSampling →
      c.scomm.idstage ≠ .idle ∧ c.scomm.idstage ≠ .rest0 := fun sub =>
    ⟨identifying.stage, fun rests => absurd ((identifying.rests rests).symm.trans sub) (by decide)⟩
  have ticked := ticked_pwmTurns sinCos mode samples readings
  have silent := computed_pwmTurns sinCos c readings
  rw [slowCall, EventMachine.run_append, EventMachine.run_singleton]
  generalize run (Core.turn sinCos) c (pwmTurns readings) = between at ticked silent ⊢
  obtain ⟨scomm, pTicks, sameMode, outputs⟩ := xmcLoop_slow (ticked.mode.trans mode)
  simp only [Core.turn, scomm, pTicks, outputs]
  have advances : Advances c.scomm between.1.pTicks (c.scomm.callsLeft c.pTicks)
      (between.1.scomm.slow between.1.pTicks) := by
    cases sub : c.scomm.idsub with
    | eSettleStart => exact advances_start identifying ticked sub
    | eSettleWait => exact advances_wait identifying ticked positive few sub
    | activeSampling => exact advances_sampling identifying ticked positive sub
  refine ⟨sameMode, advances.1, ?_⟩
  rw [computed_append, silent, List.nil_append]
  exact advances.2

theorem Identifying.positive (s : SComm) (pTicks : UInt32) : 0 < s.callsLeft pTicks := by
  rw [SComm.callsLeft]
  split <;> omega

theorem recurs (sinCos : Int32 → Int32 × Int32) :
    Recurs (run (Core.turn sinCos)) computed Parameter.next allowance Paced
    Core.Identifying (fun c => c.scomm.idstage.due) (fun c => c.scomm.callsLeft c.pTicks) where
  positive c _ := Identifying.positive c.scomm c.pTicks
  kept _ _ identifying paced :=
    ⟨(identifying.advances paced).1, (identifying.advances paced).2.1⟩
  does _ _ identifying paced := (identifying.advances paced).2.2

end Recurring

/-! ### From every entry -/

/-- A block leaves the counter, or sets it to the samples of a stage. -/
theorem block_left (s : SComm) (pTicks : UInt32) (block : Block) :
    (s.block pTicks block).1.samplesCounter = s.samplesCounter ∨
      (s.block pTicks block).1.samplesCounter = oversample := by
  cases block with
  | rs => unfold SComm.block SComm.rsBlock; grind [SComm.settleStart, SComm.compute]
  | ld => unfold SComm.block SComm.ldBlock; grind [SComm.settleStart, SComm.compute]
  | rest0 => unfold SComm.block SComm.rest0Block; grind [SComm.settleStart]
  | lq => unfold SComm.block SComm.lqBlock; grind [SComm.settleStart, SComm.compute]

/-- The counter never exceeds the samples of a stage. -/
theorem turn_left (sinCos : Int32 → Int32 × Int32) (c : Core) (turn : Turn)
    (small : c.scomm.samplesCounter.toNat ≤ 32768) :
    (c.turn sinCos turn).1.scomm.samplesCounter.toNat ≤ 32768 := by
  cases turn with
  | pwm focId focIq =>
    have effect := pwm_effect sinCos c focId focIq
    rw [Core.turn]
    generalize c.pwmLoop sinCos focId focIq = result at effect ⊢
    obtain ⟨after, outputs⟩ := result
    cases effect with
    | off mode same => exact same ▸ small
    | tick angle scomm => exact scomm ▸ small
    | sample angle first second more active scomm =>
      have positive : 1 ≤ c.scomm.samplesCounter.toNat :=
        Nat.one_le_iff_ne_zero.mpr fun zero => more (UInt16.toNat_inj.mp zero)
      have fewer : (c.scomm.samplesCounter - 1).toNat = c.scomm.samplesCounter.toNat - 1 :=
        UInt16.toNat_sub_of_le _ _ (UInt16.le_iff_toNat_le.mpr positive)
      show after.scomm.samplesCounter.toNat ≤ 32768
      rw [scomm]
      show (c.scomm.samplesCounter - 1).toNat ≤ 32768
      omega
  | xmc =>
    rw [Core.turn, Core.xmcLoop]
    split
    · rw [Core.scommXmcLoop, (runBlocks_eq c _).1]
      refine EventMachine.run_invariant _ (fun s : SComm => s.samplesCounter.toNat ≤ 32768)
        (fun s block small => ?_) small _
      rcases block_left s c.pTicks block with same | all
      · rwa [same]
      · rw [all]
        decide
    · exact small
  | config mode =>
    have effect := (config_effect c mode).1
    rw [Core.turn]
    generalize c.configControlMode mode = result at effect ⊢
    obtain ⟨after, outputs⟩ := result
    cases effect with
    | same scomm => exact scomm ▸ small
    | enter entered left scomm => exact scomm ▸ small

/-- What is left of `RS_ID`, at most. -/
theorem callsLeft_rs {s : SComm} {pTicks : UInt32} (identifying : s.Identifying pTicks)
    (stage : s.idstage = .rsId) : s.callsLeft pTicks ≤ 52770 := by
  have small := identifying.left
  rw [SComm.callsLeft]
  split
  · exact Nat.le_refl 52770
  · rw [stage, if_neg (show IDStage.rsId ≠ .rest0 by decide)]
    split <;> omega
  · omega

/-- **Every entry of the mode begins an identification**, with the sub-stage that was left behind. -/
theorem identifying_entered (sinCos : Int32 → Int32 × Int32) {c : Core}
    (small : c.scomm.samplesCounter.toNat ≤ 32768) (idle : c.mcMode = .idle) :
    (c.turn sinCos (.config .sComm)).1.Identifying ∧
      (c.turn sinCos (.config .sComm)).1.scomm.idstage = .rsId ∧
      (c.turn sinCos (.config .sComm)).2 = [.enter] := by
  have entered : c.turn sinCos (.config .sComm) =
      ({ c with
          scomm := { c.scomm with idstage := .rsId }, runMode := .override, elecMode := .voltage
          mcMode := .sComm }, [.enter]) := by
    simp only [Core.turn, Core.configControlMode, Core.setControlMode, idle]
    rfl
  rw [entered]
  exact ⟨⟨rfl, by simp, small, by simp, fun other => absurd rfl other⟩, rfl, rfl⟩

/-- What the three take. -/
theorem cost_cycles (cycles : Nat) :
    cost Parameter.next allowance .r (3 * cycles) = 178310 * cycles := by
  induction cycles with
  | zero => rfl
  | succ cycles ih =>
    have three (n : Nat) : cost Parameter.next allowance .r (n + 3) =
        178310 + cost Parameter.next allowance .r n := by
      simp only [cost_succ, Parameter.next, allowance]
      omega
    rw [Nat.mul_succ, three, ih]
    omega

/-- **Self-commissioning computes the three parameters in turn**, all three within so many calls of
the slow loop, from every entry of the mode. -/
theorem identifies_in_turn (sinCos : Int32 → Int32 × Int32) (dcVinj hfiVinj hfiAngvRpt : Int32)
    (before : List Turn)
    (idle : (run (Core.turn sinCos) (Core.init dcVinj hfiVinj hfiAngvRpt) before).1.mcMode = .idle)
    (calls : List (List Turn)) (paced : ∀ call ∈ calls, Paced call) :
    ∃ count, 3 * (calls.length / 178310) ≤ count ∧
      computed (run (Core.turn sinCos)
        (run (Core.turn sinCos) (Core.init dcVinj hfiVinj hfiAngvRpt) before).1
        (.config .sComm :: calls.flatten)).2 = turns Parameter.next .r count := by
  have small : (run (Core.turn sinCos) (Core.init dcVinj hfiVinj hfiAngvRpt)
      before).1.scomm.samplesCounter.toNat ≤ 32768 :=
    EventMachine.run_invariant _ (fun c : Core => c.scomm.samplesCounter.toNat ≤ 32768)
      (turn_left sinCos) (Nat.zero_le _) before
  generalize (run (Core.turn sinCos) (Core.init dcVinj hfiVinj hfiAngvRpt) before).1 = c
    at small idle ⊢
  obtain ⟨identifying, stage, outputs⟩ := identifying_entered sinCos small idle
  rw [EventMachine.run_cons, outputs, ← EventMachine.run_chunks]
  generalize (c.turn sinCos (.config .sComm)).1 = start at identifying stage ⊢
  obtain ⟨count, inTurn, few⟩ := run_recurs (recurs sinCos) rfl computed_append
    identifying paced
  rw [stage] at inTurn few
  refine ⟨count, ?_, inTurn⟩
  have first := callsLeft_rs identifying.2 stage
  -- All three parameters so many times, or the calls would not have sufficed.
  by_contra less
  have cycles := cost_mono Parameter.next allowance .r
    (show count + 1 ≤ 3 * (calls.length / 178310) by omega)
  rw [cost_cycles, cost_succ] at cycles
  have total : calls.length < 52770 + cost Parameter.next allowance .ld count :=
    Nat.lt_of_lt_of_le few (Nat.add_le_add_right first _)
  have allowed : allowance .r = 52770 := rfl
  have next : Parameter.next .r = .ld := rfl
  rw [allowed, next] at cycles
  omega

/-- The mode is entered for the first time, and each call has one reading before it. -/
theorem identifies_in_turn_first :
    ∃ count, 3 ≤ count ∧
      computed (run (Core.turn fun _ => (0, 0))
        (run (Core.turn fun _ => (0, 0)) (Core.init 0 0 0) [.config .idle]).1
        (.config .sComm :: (List.replicate 178310 (slowCall [(0, 0)])).flatten)).2 =
          turns Parameter.next .r count := by
  obtain ⟨count, many, inTurn⟩ := identifies_in_turn (fun _ => (0, 0)) 0 0 0 [.config .idle] rfl
    (List.replicate 178310 (slowCall [(0, 0)])) fun call member =>
      ⟨[(0, 0)], (List.mem_replicate.mp member).2, by decide, by decide⟩
  rw [List.length_replicate] at many
  exact ⟨count, many, inTurn⟩

end ForgeDrive.Pmsm
