/-
**Self-commissioning** (`PmsmControlCore_SComm.h`, `PmsmControlCore_SComm.cpp`, and the two loops and
the mode switch of `PmsmControlCore.cpp`).

The slow loop walks through the identification stages, the PWM loop takes the samples. `SComm_xmcLoop`
is a switch on the stage whose cases fall through: each case is a block on the sub-stage, and a call
runs the blocks from the one of its stage on (`blocks`).

What the loops do to the identification is recorded: the entry of the mode, each clearing of the
accumulators, each sample, each step of `pTicks`, and each computation of a parameter with the
accumulators it uses. The parameters themselves are floating point and are left out, as are the
electrical speeds, which the slow loop sets to zero. `Foc_pwmLoop` is only seen through the currents
it leaves behind, which are inputs.
-/

import ForgeDrive.Library.EventMachine

namespace ForgeDrive.Pmsm

/-! ### Modes, stages, state -/

/-- `MCMode`. -/
inductive MCMode
  | none
  | idle
  | fault
  | foc
  | sComm
  deriving DecidableEq, Repr

/-- `RunMode`. -/
inductive RunMode
  | override
  | closedLoop
  deriving DecidableEq, Repr

/-- `ElecMode`. -/
inductive ElecMode
  | voltage
  | current
  deriving DecidableEq, Repr

/-- `SComm::IDStage`. -/
inductive IDStage
  | idle
  | rsId
  | ldId
  | rest0
  | lqId
  deriving DecidableEq, Repr

/-- `SComm::IDSubStage`. -/
inductive IDSubStage
  | eSettleStart
  | eSettleWait
  | activeSampling
  deriving DecidableEq, Repr

/-- `PmsmControlConf::OVERSAMPLE_BITS`. -/
def oversampleBits : UInt16 := 15

/-- `SComm::oversample`. -/
def oversample : UInt16 := 1 <<< oversampleBits

/-- `PmsmControlConf::ESETTLE_MIN_TICKS`. -/
def eSettleMinTicks : UInt32 := 20000

/-- `SComm`. -/
structure SComm where
  dcVinj : Int32
  hfiVinj : Int32
  accumulate0 : Int64
  accumulate1 : Int64
  hfiAngvRpt : Int32
  hfiAngle : Int32
  eSettleStartTick : UInt32
  idstage : IDStage
  idsub : IDSubStage
  samplesCounter : UInt16
  deriving DecidableEq, Repr

/-- `PmsmControlCore`: what the loops of self-commissioning read and write. -/
structure Core where
  pTicks : UInt32
  mcMode : MCMode
  runMode : RunMode
  elecMode : ElecMode
  eTheta : Int32
  focId : Int32
  focIq : Int32
  ecdSp : Int32
  ecqSp : Int32
  scomm : SComm
  deriving DecidableEq, Repr

/-- The static object after `init`, with these amplitudes and this angle step. -/
def Core.init (dcVinj hfiVinj hfiAngvRpt : Int32) : Core where
  pTicks := 0
  mcMode := .none
  runMode := .override
  elecMode := .voltage
  eTheta := 0
  focId := 0
  focIq := 0
  ecdSp := 0
  ecqSp := 0
  scomm := ⟨dcVinj, hfiVinj, 0, 0, hfiAngvRpt, 0, 0, .idle, .eSettleStart, 0⟩

/-- The parameters of the motor model. -/
inductive Parameter
  | r
  | ld
  | lq
  deriving DecidableEq, Repr

/-- What happens to the identification. `clear` says whether the second accumulator is cleared too;
`sample` carries what is added to the two. -/
inductive Output
  | enter
  | clear (second : Bool)
  | sample (stage : IDStage) (sub : IDSubStage) (first second : Int64)
  | tick
  | compute (parameter : Parameter) (stage : IDStage) (accumulate0 accumulate1 : Int64)
  deriving DecidableEq, Repr

/-! ### The PWM loop -/

/-- `((int64_t)a * b) >> 31` as a `q31_t`. -/
def mulShift (a b : Int32) : Int32 := ((a.toInt64 * b.toInt64) >>> 31).toInt32

/-- Taking a sample while samples remain and the stage is sampling. -/
def SComm.take (s : SComm) (first second : Int64) : SComm × List Output :=
  if s.samplesCounter ≠ 0 ∧ s.idsub = .activeSampling then
    ({ s with
        accumulate0 := s.accumulate0 + first
        accumulate1 := s.accumulate1 + second
        samplesCounter := s.samplesCounter - 1 },
      [.sample s.idstage s.idsub first second])
  else (s, [])

variable (sinCos : Int32 → Int32 × Int32)

/-- The heterodyned sample of a current, and the step of the injection angle. -/
def SComm.heterodyne (s : SComm) (current : Int32) : SComm × List Output :=
  let (sin, cos) := sinCos s.hfiAngle
  let (s, outputs) := s.take (mulShift current sin).toInt64 (mulShift current cos).toInt64
  ({ s with hfiAngle := s.hfiAngle + s.hfiAngvRpt }, outputs)

/-- `SComm_pwmLoop` before it calls `Foc_pwmLoop`. The sample of `RS_ID` goes to the first
accumulator only. -/
def Core.scommPwmLoop (c : Core) : Core × List Output :=
  match c.scomm.idstage with
  | .rsId =>
    let (scomm, outputs) := c.scomm.take c.focId.toInt64 0
    ({ c with scomm := scomm }, outputs)
  | .ldId =>
    let injected := mulShift c.scomm.hfiVinj (sinCos c.scomm.hfiAngle).1
    let (scomm, outputs) := c.scomm.heterodyne sinCos c.focId
    ({ c with scomm := scomm, ecdSp := injected, ecqSp := 0 }, outputs)
  | .lqId =>
    let injected := mulShift c.scomm.hfiVinj (sinCos c.scomm.hfiAngle).1
    let (scomm, outputs) := c.scomm.heterodyne sinCos c.focIq
    ({ c with scomm := scomm, ecdSp := 0, ecqSp := injected }, outputs)
  | _ => (c, [])

/-- `pwmLoop`; `focId` and `focIq` are the currents `Foc_pwmLoop` leaves behind. -/
def Core.pwmLoop (c : Core) (focId focIq : Int32) : Core × List Output :=
  match c.mcMode with
  | .none => (c, [])
  | .foc => ({ c with focId := focId, focIq := focIq, pTicks := c.pTicks + 1 }, [.tick])
  | .sComm =>
    let (c, outputs) := c.scommPwmLoop sinCos
    ({ c with focId := focId, focIq := focIq, pTicks := c.pTicks + 1 }, outputs ++ [.tick])
  | _ => ({ c with pTicks := c.pTicks + 1 }, [.tick])

/-! ### The slow loop -/

/-- `case ESettle_Start`. Only `RS_ID` leaves the second accumulator. -/
def SComm.settleStart (s : SComm) (pTicks : UInt32) (second : Bool) : SComm × List Output :=
  ({ s with
      eSettleStartTick := pTicks
      idsub := .eSettleWait
      accumulate0 := 0
      accumulate1 := if second then 0 else s.accumulate1
      samplesCounter := oversample },
    [.clear second])

/-- The test of `case ESettle_Wait`. -/
def SComm.settled (s : SComm) (pTicks : UInt32) : Prop :=
  pTicks - s.eSettleStartTick > eSettleMinTicks

instance (s : SComm) (pTicks : UInt32) : Decidable (s.settled pTicks) :=
  inferInstanceAs (Decidable (_ > _))

/-- A parameter is computed, and the next stage begins. -/
def SComm.compute (s : SComm) (parameter : Parameter) (next : IDStage) : SComm × List Output :=
  ({ s with idsub := .eSettleStart, idstage := next },
    [.compute parameter s.idstage s.accumulate0 s.accumulate1])

/-- The sub-stages of `RS_ID`. -/
def SComm.rsBlock (s : SComm) (pTicks : UInt32) : SComm × List Output :=
  match s.idsub with
  | .eSettleStart => s.settleStart pTicks false
  | .eSettleWait =>
    if s.settled pTicks then ({ s with idsub := .activeSampling }, []) else (s, [])
  | .activeSampling => if s.samplesCounter = 0 then s.compute .r .ldId else (s, [])

/-- The sub-stages of `LD_ID`. -/
def SComm.ldBlock (s : SComm) (pTicks : UInt32) : SComm × List Output :=
  match s.idsub with
  | .eSettleStart => s.settleStart pTicks true
  | .eSettleWait =>
    if s.settled pTicks then ({ s with idsub := .activeSampling }, []) else (s, [])
  | .activeSampling => if s.samplesCounter = 0 then s.compute .ld .rest0 else (s, [])

/-- The sub-stages of `REST0`. -/
def SComm.rest0Block (s : SComm) (pTicks : UInt32) : SComm × List Output :=
  match s.idsub with
  | .eSettleStart => s.settleStart pTicks true
  | .eSettleWait =>
    if s.settled pTicks then ({ s with idsub := .eSettleStart, idstage := .lqId }, []) else (s, [])
  | .activeSampling => (s, [])

/-- The sub-stages of `LQ_ID`. -/
def SComm.lqBlock (s : SComm) (pTicks : UInt32) : SComm × List Output :=
  match s.idsub with
  | .eSettleStart => s.settleStart pTicks true
  | .eSettleWait =>
    if s.settled pTicks then
      ({ s with eSettleStartTick := pTicks, idsub := .activeSampling }, [])
    else (s, [])
  | .activeSampling => if s.samplesCounter = 0 then s.compute .lq .rsId else (s, [])

/-- The cases of `SComm_xmcLoop`. -/
inductive Block
  | rs
  | ld
  | rest0
  | lq
  deriving DecidableEq, Repr

/-- The blocks a call runs: those of `LD_ID` and `REST0` fall through to the next. -/
def blocks : IDStage → List Block
  | .idle => []
  | .rsId => [.rs]
  | .ldId => [.ld, .rest0, .lq]
  | .rest0 => [.rest0, .lq]
  | .lqId => [.lq]

/-- What a block does to the identification. -/
def SComm.block (s : SComm) (pTicks : UInt32) : Block → SComm × List Output
  | .rs => s.rsBlock pTicks
  | .ld => s.ldBlock pTicks
  | .rest0 => s.rest0Block pTicks
  | .lq => s.lqBlock pTicks

/-- The set points and the angle a block forces, before or in its sub-stage. -/
def Core.force (c : Core) : Block → Core
  | .rs => { c with eTheta := 0, ecdSp := c.scomm.dcVinj, ecqSp := 0 }
  | .ld => { c with eTheta := 0 }
  | .rest0 =>
    if c.scomm.idsub = .eSettleStart then { c with eTheta := 0, ecdSp := 0, ecqSp := 0 } else c
  | .lq => { c with eTheta := 0 }

/-- One block. -/
def Core.runBlock (c : Core) (block : Block) : Core × List Output :=
  let (scomm, outputs) := c.scomm.block c.pTicks block
  ({ c.force block with scomm := scomm }, outputs)

/-- `SComm_xmcLoop` without interruption. -/
def Core.scommXmcLoop (c : Core) : Core × List Output :=
  EventMachine.run Core.runBlock c (blocks c.scomm.idstage)

/-- `xmcLoop`. `Foc_xmcLoop` touches nothing of self-commissioning, and nothing here reads
`xTicks`. -/
def Core.xmcLoop (c : Core) : Core × List Output :=
  if c.mcMode = .sComm then c.scommXmcLoop else (c, [])

/-! ### The mode -/

/-- `SComm_onEnter`: the sub-stage, the counter and the accumulators stay. -/
def Core.scommOnEnter (c : Core) : Core × List Output :=
  ({ c with
      scomm := { c.scomm with idstage := .rsId }, runMode := .override, elecMode := .voltage },
    [.enter])

/-- `setControlMode`. The other hooks are empty. -/
def Core.setControlMode (c : Core) (mode : MCMode) : Core × List Output :=
  if c.mcMode = mode then (c, [])
  else
    let (c, outputs) := if mode = .sComm then c.scommOnEnter else (c, [])
    ({ c with mcMode := mode }, outputs)

/-- `configControlMode`: a mode is entered from `Idle` only. -/
def Core.configControlMode (c : Core) (mode : MCMode) : Core × List Output :=
  if mode ≠ .idle ∧ c.mcMode ≠ .idle then (c, []) else c.setControlMode mode

/-! ### What the functions leave -/

/-- **What the PWM loop does**: nothing, a step of the ticks, or a sample of the stage and a step of
the ticks. -/
inductive PwmEffect (c after : Core) : List Output → Prop
  | off (mode : c.mcMode = .none) (same : after = c) : PwmEffect c after []
  | tick (angle : Int32) (scomm : after.scomm = { c.scomm with hfiAngle := angle })
      (mode : after.mcMode = c.mcMode) (pTicks : after.pTicks = c.pTicks + 1) :
      PwmEffect c after [.tick]
  | sample (angle : Int32) (first second : Int64) (more : c.scomm.samplesCounter ≠ 0)
      (active : c.scomm.idsub = .activeSampling)
      (scomm : after.scomm = { c.scomm with
        hfiAngle := angle
        accumulate0 := c.scomm.accumulate0 + first
        accumulate1 := c.scomm.accumulate1 + second
        samplesCounter := c.scomm.samplesCounter - 1 })
      (mode : after.mcMode = c.mcMode) (pTicks : after.pTicks = c.pTicks + 1) :
      PwmEffect c after [.sample c.scomm.idstage c.scomm.idsub first second, .tick]

/-- A sample, or none, before the step of the ticks. -/
theorem PwmEffect.of_take {c after : Core} {angle : Int32} {first second : Int64}
    (scomm : after.scomm = { (c.scomm.take first second).1 with hfiAngle := angle })
    (mode : after.mcMode = c.mcMode) (pTicks : after.pTicks = c.pTicks + 1) :
    PwmEffect c after ((c.scomm.take first second).2 ++ [.tick]) := by
  unfold SComm.take at scomm ⊢
  split at scomm
  · next sampling =>
    rw [if_pos sampling]
    exact .sample angle first second sampling.1 sampling.2 scomm mode pTicks
  · next none_ =>
    rw [if_neg none_]
    exact .tick angle scomm mode pTicks

theorem pwm_effect (c : Core) (focId focIq : Int32) :
    PwmEffect c (c.pwmLoop sinCos focId focIq).1 (c.pwmLoop sinCos focId focIq).2 := by
  cases mode : c.mcMode with
  | none =>
    simp only [Core.pwmLoop, mode]
    exact .off mode rfl
  | sComm =>
    cases stage : c.scomm.idstage with
    | rsId | ldId | lqId =>
      simp only [Core.pwmLoop, mode, Core.scommPwmLoop, stage, SComm.heterodyne]
      exact .of_take rfl mode.symm rfl
    | idle | rest0 =>
      simp only [Core.pwmLoop, mode, Core.scommPwmLoop, stage]
      exact .tick _ rfl mode.symm rfl
  | idle | fault | foc =>
    simp only [Core.pwmLoop, mode]
    exact .tick _ rfl mode.symm rfl

/-- **What a mode switch does**: nothing, or the entry of self-commissioning from `Idle`. -/
inductive ConfigEffect (c after : Core) (mode : MCMode) : List Output → Prop
  | same (scomm : after.scomm = c.scomm) : ConfigEffect c after mode []
  | enter (entered : mode = .sComm) (left : c.mcMode = .idle)
      (scomm : after.scomm = { c.scomm with idstage := .rsId }) : ConfigEffect c after mode [.enter]

theorem config_effect (c : Core) (mode : MCMode) :
    ConfigEffect c (c.configControlMode mode).1 mode (c.configControlMode mode).2 ∧
      (c.configControlMode mode).1.pTicks = c.pTicks := by
  simp only [Core.configControlMode, Core.setControlMode]
  split
  · exact ⟨.same rfl, rfl⟩
  · next allowed =>
    split
    · exact ⟨.same rfl, rfl⟩
    · split
      · next entered =>
        refine ⟨.enter entered ?_ rfl, rfl⟩
        by_contra running
        exact allowed ⟨by rw [entered]; decide, running⟩
      · exact ⟨.same rfl, rfl⟩

/-- A block leaves the ticks and the mode, and does to the identification what its sub-stage does. -/
theorem runBlock_eq (c : Core) (block : Block) :
    (c.runBlock block).1.scomm = (c.scomm.block c.pTicks block).1 ∧
      (c.runBlock block).1.pTicks = c.pTicks ∧ (c.runBlock block).1.mcMode = c.mcMode ∧
      (c.runBlock block).2 = (c.scomm.block c.pTicks block).2 := by
  cases block with
  | rest0 =>
    have forced : (c.force .rest0).pTicks = c.pTicks ∧ (c.force .rest0).mcMode = c.mcMode := by
      simp only [Core.force]
      split <;> exact ⟨rfl, rfl⟩
    exact ⟨rfl, forced.1, forced.2, rfl⟩
  | _ => exact ⟨rfl, rfl, rfl, rfl⟩

/-! ### How a stage passes -/

/-- **Where self-commissioning stands**: in this stage and sub-stage, so many ticks after the
settling began, with so many samples to take. -/
structure Core.At (c : Core) (stage : IDStage) (sub : IDSubStage) (elapsed left : Nat) : Prop where
  mode : c.mcMode = .sComm
  stage : c.scomm.idstage = stage
  sub : c.scomm.idsub = sub
  elapsed : c.pTicks - c.scomm.eSettleStartTick = UInt32.ofNat elapsed
  left : c.scomm.samplesCounter = UInt16.ofNat left

section Passing

variable {sinCos} {c : Core} {stage : IDStage} {sub : IDSubStage} {elapsed left : Nat}

/-- The PWM loop, so many times, with no current. -/
def Core.pwmTimes (sinCos : Int32 → Int32 × Int32) : Nat → Core → Core
  | 0, c => c
  | times + 1, c => Core.pwmTimes sinCos times (c.pwmLoop sinCos 0 0).1

theorem elapsed_succ {pTicks start : UInt32} (is : pTicks - start = UInt32.ofNat elapsed) :
    pTicks + 1 - start = UInt32.ofNat (elapsed + 1) := by
  rw [UInt32.ofNat_add, ← is]
  grind

/-- Outside of sampling, a tick passes. -/
theorem Core.At.tick (at_ : c.At stage sub elapsed left) (inactive : sub ≠ .activeSampling)
    (sinCos : Int32 → Int32 × Int32) :
    (c.pwmLoop sinCos 0 0).1.At stage sub (elapsed + 1) left := by
  have effect := pwm_effect sinCos c 0 0
  generalize c.pwmLoop sinCos 0 0 = result at effect
  obtain ⟨after, outputs⟩ := result
  cases effect with
  | off mode => exact absurd (at_.mode.symm.trans mode) nofun
  | tick angle scomm mode pTicks =>
    refine ⟨mode.trans at_.mode, scomm ▸ at_.stage, scomm ▸ at_.sub, ?_, scomm ▸ at_.left⟩
    rw [scomm, pTicks]
    exact elapsed_succ at_.elapsed
  | sample angle first second more active => exact absurd (at_.sub.symm.trans active) inactive

/-- While `RS_ID` samples, a sample is taken. -/
theorem Core.At.take (at_ : c.At .rsId .activeSampling elapsed (left + 1))
    (small : left < 65535) (sinCos : Int32 → Int32 × Int32) :
    (c.pwmLoop sinCos 0 0).1.At .rsId .activeSampling (elapsed + 1) left := by
  have counter : c.scomm.samplesCounter = UInt16.ofNat left + 1 := by
    rw [at_.left, UInt16.ofNat_add]
    rfl
  have some_ : c.scomm.samplesCounter ≠ 0 := by
    intro zero
    have := congrArg UInt16.toNat (at_.left.symm.trans zero)
    rw [UInt16.toNat_ofNat_of_lt' (by show left + 1 < 65536; omega)] at this
    cases this
  simp only [Core.pwmLoop, at_.mode, Core.scommPwmLoop, at_.stage, SComm.take,
    if_pos (And.intro some_ at_.sub)]
  refine ⟨rfl, rfl, at_.sub, elapsed_succ at_.elapsed, ?_⟩
  rw [counter]
  exact UInt16.add_sub_cancel _ _

/-- **The settling time passes.** -/
theorem Core.At.ticks (at_ : c.At stage sub elapsed left) (inactive : sub ≠ .activeSampling)
    (sinCos : Int32 → Int32 × Int32) (times : Nat) :
    (c.pwmTimes sinCos times).At stage sub (elapsed + times) left := by
  induction times generalizing c elapsed with
  | zero => exact at_
  | succ times ih => exact Nat.succ_add_eq_add_succ elapsed times ▸ ih (at_.tick inactive sinCos)

/-- **The samples are taken.** -/
theorem Core.At.takes (at_ : c.At .rsId .activeSampling elapsed left) (small : left ≤ 65535)
    (sinCos : Int32 → Int32 × Int32) {times : Nat} (enough : times ≤ left) :
    (c.pwmTimes sinCos times).At .rsId .activeSampling (elapsed + times) (left - times) := by
  induction times generalizing c elapsed left with
  | zero => exact at_
  | succ times ih =>
    obtain ⟨left, rfl⟩ : ∃ rest, left = rest + 1 := ⟨left - 1, by omega⟩
    have next := ih (at_.take (by omega) sinCos) (by omega) (by omega)
    rwa [Nat.succ_add_eq_add_succ, ← Nat.add_sub_add_right left 1 times] at next

/-- The settling time is over when the ticks say so. -/
theorem Core.At.settled_iff (at_ : c.At stage sub elapsed left) :
    c.scomm.settled c.pTicks ↔ eSettleMinTicks < UInt32.ofNat elapsed := by
  rw [SComm.settled, at_.elapsed]

/-- What a block makes of the identification tells where self-commissioning stands after it. -/
theorem Core.At.of_block {block : Block} (mode : c.mcMode = .sComm) {after : SComm}
    (does : (c.scomm.block c.pTicks block).1 = after) (isStage : after.idstage = stage)
    (isSub : after.idsub = sub)
    (isElapsed : c.pTicks - after.eSettleStartTick = UInt32.ofNat elapsed)
    (isLeft : after.samplesCounter = UInt16.ofNat left) :
    (c.runBlock block).1.At stage sub elapsed left := by
  obtain ⟨scomm, pTicks, sameMode, -⟩ := runBlock_eq c block
  rw [does] at scomm
  exact ⟨sameMode.trans mode, scomm ▸ isStage, scomm ▸ isSub, scomm ▸ pTicks ▸ isElapsed,
    scomm ▸ isLeft⟩

/-- The first block of a stage starts the settling time. -/
theorem Core.At.start (at_ : c.At stage .eSettleStart elapsed left) (block : Block) :
    (c.runBlock block).1.At stage .eSettleWait 0 32768 := by
  have starts : (c.scomm.block c.pTicks block).1 =
      (c.scomm.settleStart c.pTicks (block != .rs)).1 := by
    cases block with
    | rs => simp only [SComm.block, SComm.rsBlock, at_.sub]; rfl
    | ld => simp only [SComm.block, SComm.ldBlock, at_.sub]; rfl
    | rest0 => simp only [SComm.block, SComm.rest0Block, at_.sub]; rfl
    | lq => simp only [SComm.block, SComm.lqBlock, at_.sub]; rfl
  exact .of_block at_.mode starts at_.stage rfl (UInt32.sub_self c.pTicks) rfl

/-- A block that waits, waits. -/
theorem Core.At.wait (at_ : c.At stage .eSettleWait elapsed left)
    (early : UInt32.ofNat elapsed ≤ eSettleMinTicks) (block : Block) :
    (c.runBlock block).1.At stage .eSettleWait elapsed left := by
  have waits : ¬ c.scomm.settled c.pTicks := by
    rw [at_.settled_iff]
    exact UInt32.not_lt.mpr early
  refine .of_block at_.mode ?_ at_.stage at_.sub at_.elapsed at_.left
  cases block with
  | rs => simp only [SComm.block, SComm.rsBlock, at_.sub, if_neg waits]
  | ld => simp only [SComm.block, SComm.ldBlock, at_.sub, if_neg waits]
  | rest0 => simp only [SComm.block, SComm.rest0Block, at_.sub, if_neg waits]
  | lq => simp only [SComm.block, SComm.lqBlock, at_.sub, if_neg waits]

/-- After the settling time `RS_ID` samples. -/
theorem Core.At.sampling (at_ : c.At stage .eSettleWait elapsed left)
    (late : eSettleMinTicks < UInt32.ofNat elapsed) :
    (c.runBlock .rs).1.At stage .activeSampling elapsed left := by
  have samples : (c.scomm.block c.pTicks .rs).1 = { c.scomm with idsub := .activeSampling } := by
    simp only [SComm.block, SComm.rsBlock, at_.sub, if_pos (at_.settled_iff.mpr late)]
  exact .of_block at_.mode samples at_.stage rfl at_.elapsed at_.left

/-- After the last sample the resistance is computed. -/
theorem Core.At.computed (at_ : c.At stage .activeSampling elapsed 0) :
    (c.runBlock .rs).1.At .ldId .eSettleStart elapsed 0 := by
  have done : c.scomm.samplesCounter = 0 := at_.left
  have computes : (c.scomm.block c.pTicks .rs).1 = (c.scomm.compute .r .ldId).1 := by
    simp only [SComm.block, SComm.rsBlock, at_.sub, if_pos done]
  exact .of_block at_.mode computes rfl rfl at_.elapsed at_.left

/-- Self-commissioning entered for the first time. -/
def Core.entered : Core :=
  ((Core.init 0 0 0).configControlMode .idle).1.configControlMode .sComm |>.1

theorem at_entered : Core.entered.At .rsId .eSettleStart 0 0 := ⟨rfl, rfl, rfl, rfl, rfl⟩

/-- The slow loop runs, and so many ticks pass. -/
theorem Core.At.waited (at_ : c.At stage .eSettleStart elapsed left) (block : Block)
    (sinCos : Int32 → Int32 × Int32) (times : Nat) :
    ((c.runBlock block).1.pwmTimes sinCos times).At stage .eSettleWait times 32768 := by
  have passed := (at_.start block).ticks nofun sinCos times
  rwa [Nat.zero_add] at passed

/-- The slow loop runs after the settling time, and all samples of `RS_ID` are taken. -/
theorem Core.At.sampled (at_ : c.At .rsId .eSettleWait elapsed 32768)
    (late : eSettleMinTicks < UInt32.ofNat elapsed) (sinCos : Int32 → Int32 × Int32) {times : Nat}
    (all : times = 32768) :
    ((c.runBlock .rs).1.pwmTimes sinCos times).At .rsId .activeSampling (elapsed + times) 0 := by
  have taken := (at_.sampling late).takes (by decide) sinCos (Nat.le_of_eq all)
  rwa [all, Nat.sub_self, ← all] at taken

end Passing

end ForgeDrive.Pmsm
