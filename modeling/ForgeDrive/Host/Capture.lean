/-
**A capture, from the trigger to the read** (`fdlib/middleware/ScopeStream.h`).

From the row that triggers, every `decimation`-th row is kept, until there are `sample_depth` of
them; then the scope is frozen, and each channel can be read. The depth is a 32-bit number, but the
index of the fill, the loop counter of the read and the size of the output are 16-bit numbers.

* `Filling` — how the state tells of the writes since the trigger: the fill index is the number of
  the kept rows modulo `2 ^ 16`;
* `filling_capture` — it holds after all rows;
* `readLoop_spec` — the loop of the read ends, if the depth is below `2 ^ 16`;
* `captures_iff` — so which captures are completed, and which of them can be read.
-/

import Mathlib.Algebra.Order.Ring.Nat
import Mathlib.Data.List.Induction
import ForgeDrive.Host.ScopeStream

namespace ForgeDrive.Host

variable {T : Type*}

/-! ### The read of a channel -/

/-- The loop of the read of a channel, for as many turns as there is `fuel`. -/
def ScopeStream.readLoop (scope : ScopeStream T) (channel : UInt8) :
    Nat → UInt16 → (Nat → T) → Option (Nat → T)
  | 0, _, _ => none
  | fuel + 1, i, outBuffer =>
    if i.toUInt32 < scope.sampleDepth then
      scope.readLoop channel fuel (i + 1) fun place =>
        if place = i.toNat then scope.buf (i.toNat * scope.channelsNum.toNat + channel.toNat)
        else outBuffer place
    else some outBuffer

/-- `read` of a channel of samples of `sizeof` bytes: what it returns, and the output after it. -/
def ScopeStream.readChannel (scope : ScopeStream T) (sizeof : UInt16) (fuel : Nat) (channel : UInt8)
    (outBuffer : Nat → T) (bufferSize : UInt16) : Option (Bool × (Nat → T)) :=
  if !scope.frozen then some (false, outBuffer)
  else if bufferSize.toUInt32 < scope.sampleDepth * sizeof.toUInt32 then some (false, outBuffer)
  else (scope.readLoop channel fuel 0 outBuffer).map fun outBuffer => (true, outBuffer)

/-- **The read of the channel ends and returns the values**, with an output that is large enough. -/
def ScopeStream.Returns (scope : ScopeStream T) (sizeof : UInt16) (channel : UInt8)
    (values : List T) : Prop :=
  ∃ enough : UInt16, ∀ bufferSize ≥ enough, ∀ outBuffer, ∃ fuel,
    scope.readChannel sizeof fuel channel outBuffer bufferSize =
      some (true, fun place => (values[place]?).getD (outBuffer place))

section Loop

variable {scope : ScopeStream T} {channel : UInt8} {rows : List (Nat → T)}

theorem below_iff (i : UInt16) (depth : UInt32) : i.toUInt32 < depth ↔ i.toNat < depth.toNat := by
  rw [UInt32.lt_iff_toNat_lt, UInt16.toNat_toUInt32]

/-- **The loop ends** behind the last row, if its counter gets there. -/
theorem readLoop_spec (small : scope.sampleDepth.toNat < 2 ^ 16) (remaining : Nat) (i : UInt16)
    (outBuffer : Nat → T) (left : i.toNat + remaining = scope.sampleDepth.toNat) :
    scope.readLoop channel (remaining + 1) i outBuffer = some fun place =>
      if i.toNat ≤ place ∧ place < scope.sampleDepth.toNat then
        scope.buf (place * scope.channelsNum.toNat + channel.toNat)
      else outBuffer place := by
  induction remaining generalizing i outBuffer with
  | zero =>
    rw [ScopeStream.readLoop, if_neg (by rw [below_iff]; omega)]
    congr 1
    funext place
    rw [if_neg (by omega)]
  | succ remaining ih =>
    have next : (i + 1).toNat = i.toNat + 1 := by
      rw [UInt16.toNat_add]
      exact Nat.mod_eq_of_lt (by show i.toNat + 1 < 2 ^ 16; omega)
    rw [ScopeStream.readLoop, if_pos (by rw [below_iff]; omega), ih (i + 1) _ (by omega), next]
    congr 1
    funext place
    by_cases here : place = i.toNat
    · rw [if_neg (by omega), if_pos here, if_pos (by omega), here]
    · rw [if_neg here]
      exact if_congr (by omega) rfl rfl

/-- The size of the output that the read asks for. -/
theorem product_toNat (small : scope.sampleDepth.toNat < 2 ^ 16) (sizeof : UInt16) :
    (scope.sampleDepth * sizeof.toUInt32).toNat = scope.sampleDepth.toNat * sizeof.toNat := by
  have bound : scope.sampleDepth.toNat * sizeof.toNat < 2 ^ 16 * 2 ^ 16 :=
    Nat.mul_lt_mul'' small sizeof.toNat_lt
  rw [UInt32.toNat_mul, UInt16.toNat_toUInt32]
  exact Nat.mod_eq_of_lt bound

/-- **A whole window is read**, if its size in bytes is a 16-bit number. -/
theorem returns_of_holds (frozen : scope.frozen = true) (small : scope.sampleDepth.toNat < 2 ^ 16)
    {sizeof : UInt16} (fits : scope.sampleDepth.toNat * sizeof.toNat < 2 ^ 16)
    (length : rows.length = scope.sampleDepth.toNat)
    (holds : Holds scope.buf scope.channelsNum.toNat rows) (is : channel < scope.channelsNum) :
    scope.Returns sizeof channel (rows.map fun row => row channel.toNat) := by
  have enough : (UInt16.ofNat (scope.sampleDepth.toNat * sizeof.toNat)).toNat =
      scope.sampleDepth.toNat * sizeof.toNat := by
    rw [UInt16.toNat_ofNat', Nat.mod_eq_of_lt fits]
  refine ⟨UInt16.ofNat (scope.sampleDepth.toNat * sizeof.toNat), fun bufferSize large outBuffer =>
    ⟨scope.sampleDepth.toNat + 1, ?_⟩⟩
  have room : ¬ bufferSize.toUInt32 < scope.sampleDepth * sizeof.toUInt32 := by
    rw [ge_iff_le, UInt16.le_iff_toNat_le, enough] at large
    rw [below_iff, product_toNat small]
    exact Nat.not_lt_of_le large
  rw [ScopeStream.readChannel, frozen, if_neg (by decide), if_neg room,
    readLoop_spec small scope.sampleDepth.toNat 0 outBuffer (Nat.zero_add _), Option.map_some]
  congr 2
  funext place
  rw [List.getElem?_map]
  by_cases inside : place < rows.length
  · have found := List.getElem?_eq_getElem inside
    rw [if_pos ⟨Nat.zero_le _, length ▸ inside⟩, found]
    exact holds place _ found channel.toNat (UInt8.lt_iff_toNat_lt.mp is)
  · rw [if_neg (by rw [← length]; exact fun both => inside both.2),
      List.getElem?_eq_none (Nat.le_of_not_lt inside)]
    rfl

/-- **A larger window cannot be read**: no size that can be passed is enough. -/
theorem not_returns (small : scope.sampleDepth.toNat < 2 ^ 16) {sizeof : UInt16}
    (large : 2 ^ 16 ≤ scope.sampleDepth.toNat * sizeof.toNat) (values : List T)
    (outBuffer : Nat → T) : ¬ scope.Returns sizeof channel values := by
  rintro ⟨enough, returns⟩
  obtain ⟨fuel, read⟩ := returns enough (UInt16.le_refl _) outBuffer
  have short : enough.toUInt32 < scope.sampleDepth * sizeof.toUInt32 := by
    rw [below_iff, product_toNat small]
    exact enough.toNat_lt.trans_le large
  rw [ScopeStream.readChannel, if_pos short, ite_self] at read
  cases (Prod.mk.inj (Option.some.inj read)).1

end Loop

/-! ### The capture -/

/-- The writes from one kept row to the next; a decimation of 0 is one of 256. -/
def ScopeStream.period (scope : ScopeStream T) : Nat := (scope.decimation - 1).toNat + 1

theorem ScopeStream.period_pos (scope : ScopeStream T) : 0 < scope.period := Nat.succ_pos _

variable {origin scope : ScopeStream T} {kept : List (Nat → T)} {writes : Nat}

/-- **How the state tells of the writes since the trigger**, which was the first row kept. -/
structure Filling (origin scope : ScopeStream T) (writes : Nat) (kept : List (Nat → T)) :
    Prop where
  channelsNum : scope.channelsNum = origin.channelsNum
  sampleDepth : scope.sampleDepth = origin.sampleDepth
  decimation : scope.decimation = origin.decimation
  triggered : scope.triggered = true
  index : scope.writeIdx = UInt16.ofNat kept.length
  frozen : scope.frozen = true ↔
    kept.length = origin.sampleDepth.toNat ∧ origin.sampleDepth.toNat < 2 ^ 16
  within : origin.sampleDepth.toNat < 2 ^ 16 → kept.length ≤ origin.sampleDepth.toNat
  holds : origin.sampleDepth.toNat < 2 ^ 16 →
    Holds scope.buf origin.channelsNum.toNat kept
  counted : scope.frozen = false →
    writes + ((scope.decimationCounter - 1).toNat + 1) = kept.length * origin.period
  behind : kept.length * origin.period ≤ writes + origin.period

/-- **What the writes so far say of the kept rows.** -/
theorem Filling.length_kept (filling : Filling origin scope writes kept) :
    (scope.frozen = false → kept.length = writes / origin.period + 1) ∧
      (scope.frozen = true → kept.length ≤ writes / origin.period + 1) := by
  have positive := origin.period_pos
  have behind := filling.behind
  rw [← Nat.add_div_right writes positive]
  constructor
  · intro unfrozen
    have counted := filling.counted unfrozen
    refine (Nat.div_eq_of_lt_le behind ?_).symm
    rw [Nat.succ_mul]
    omega
  · intro _
    exact (Nat.le_div_iff_mul_le positive).mpr behind

/-- A triggered scope that keeps its next row, `period` writes behind the one before. -/
structure Keeping (origin scope : ScopeStream T) (writes : Nat) (kept : List (Nat → T)) :
    Prop where
  channelsNum : scope.channelsNum = origin.channelsNum
  sampleDepth : scope.sampleDepth = origin.sampleDepth
  decimation : scope.decimation = origin.decimation
  counter : scope.decimationCounter = origin.decimation
  triggered : scope.triggered = true
  unfrozen : scope.frozen = false
  index : scope.writeIdx = UInt16.ofNat kept.length
  room : origin.sampleDepth.toNat < 2 ^ 16 → kept.length < origin.sampleDepth.toNat
  holds : origin.sampleDepth.toNat < 2 ^ 16 →
    Holds scope.buf origin.channelsNum.toNat kept
  counted : writes = kept.length * origin.period

/-- **The row is stored**, and may be the last. -/
theorem Keeping.fill (keeping : Keeping origin scope writes kept) (data : Nat → T) :
    Filling origin (scope.fill data) writes (kept ++ [data]) := by
  obtain ⟨channelsNum, sampleDepth, decimation, counter, triggered, unfrozen, index, room, holds,
    counted⟩ := keeping
  have place (small : origin.sampleDepth.toNat < 2 ^ 16) : scope.writeIdx.toNat = kept.length := by
    rw [index, UInt16.toNat_ofNat', Nat.mod_eq_of_lt ((room small).trans small)]
  have longer : (kept ++ [data]).length = kept.length + 1 := List.length_append
  obtain ⟨full, filled, last, more⟩ := scope.fill_progress data triggered unfrozen (by
    rw [sampleDepth]
    exact fun small => (place small).trans_lt (room small))
  rw [sampleDepth] at last more
  rw [filled]
  refine ⟨channelsNum, sampleDepth, decimation, triggered, ?_, ?_, fun small => ?_, fun small => ?_,
    fun _ => ?_, ?_⟩
  · show scope.writeIdx + 1 = _
    rw [index, longer, UInt16.ofNat_add]
    rfl
  · show full = true ↔ _
    rw [longer]
    constructor
    · intro isFull
      obtain ⟨small, ends⟩ := last isFull
      exact ⟨(place small) ▸ ends, small⟩
    · rintro ⟨ends, small⟩
      by_contra notFull
      obtain ⟨next, short⟩ := more (Bool.eq_false_of_not_eq_true notFull) small
      rw [next, place small, ends] at short
      exact Nat.lt_irrefl _ short
  · rw [longer]
    exact room small
  · rw [← channelsNum]
    refine scope.store_holds data (place small) ?_
    rw [channelsNum]
    exact holds small
  · show writes + ((scope.decimationCounter - 1).toNat + 1) = _
    rw [counter, longer, counted, Nat.succ_mul]
    rfl
  · rw [longer, counted, Nat.succ_mul]

section Capture

variable [Add T] [Sub T] [LT T] [DecidableLT T]

/-- The scope after the row that triggers and these rows, with the rows of them that were kept. -/
def ScopeStream.capture (scope : ScopeStream T) (data : Nat → T) (rows : List (Nat → T)) :
    ScopeStream T × List (Nat → T) :=
  let run := EventMachine.run ScopeStream.step scope ((data :: rows).map .write)
  (run.1, run.2.map KeptRow.data)

/-- **The capture is completed**: one row in `period` is kept, until there are `sample_depth` of
them, and then the scope is frozen. -/
def ScopeStream.Completes (scope : ScopeStream T) (data : Nat → T) : Prop :=
  ∀ rows, (scope.capture data rows).2.length =
      min scope.sampleDepth.toNat (rows.length / scope.period + 1) ∧
    ((scope.capture data rows).1.frozen = true ↔
      (scope.capture data rows).2.length = scope.sampleDepth.toNat)

/-- **The capture is completed and can be read**: then the read of each channel returns its values
in the kept rows. -/
structure ScopeStream.Captures (scope : ScopeStream T) (sizeof : UInt16) (data : Nat → T) :
    Prop where
  completes : scope.Completes data
  returns : ∀ rows, (scope.capture data rows).1.frozen = true →
    ∀ channel < scope.channelsNum, (scope.capture data rows).1.Returns sizeof channel
      ((scope.capture data rows).2.map fun row => row channel.toNat)

/-- **The row that triggers** is the first. -/
theorem filling_of_triggers (some : 1 ≤ scope.sampleDepth.toNat) (quiet : scope.triggered = false)
    {data : Nat → T} (triggers : (scope.write data).triggered = true) :
    scope.keeps = true ∧ Filling scope (scope.write data) 0 [data] := by
  cases keeps : scope.keeps with
  | false =>
    obtain ⟨counter, dropped⟩ := scope.write_of_drops data keeps
    rw [dropped] at triggers
    exact Bool.noConfusion (quiet.symm.trans triggers)
  | true =>
    refine ⟨rfl, ?_⟩
    obtain ⟨unfrozen, written⟩ := scope.write_of_keeps data keeps
    rw [written, ScopeStream.fill_triggered] at triggers
    rw [written]
    rcases ScopeStream.trigger_cases { scope with decimationCounter := scope.decimation } data with
      ⟨already, -⟩ | ⟨-, -, -, changed⟩ | ⟨-, -, changed⟩ | ⟨-, same⟩
    · exact Bool.noConfusion (quiet.symm.trans already)
    · rw [changed]
      have first : Keeping scope { scope with
          decimationCounter := scope.decimation
          hystTrig := true
          triggered := true
          writeIdx := 0 } 0 [] :=
        ⟨rfl, rfl, rfl, rfl, rfl, unfrozen, rfl, fun _ => some, fun _ => holds_nil,
          (Nat.zero_mul _).symm⟩
      exact first.fill data
    · rw [changed] at triggers
      exact Bool.noConfusion (quiet.symm.trans triggers)
    · rw [same] at triggers
      exact Bool.noConfusion (quiet.symm.trans triggers)

/-- **A later write**: it changes nothing, it is counted, or its row is kept. -/
theorem Filling.write (filling : Filling origin scope writes kept) (data : Nat → T) :
    Filling origin (scope.write data) (writes + 1) (kept ++ if scope.keeps then [data] else []) := by
  obtain ⟨channelsNum, sampleDepth, decimation, triggered, index, frozen, within, holds, counted,
    behind⟩ := filling
  cases isFrozen : scope.frozen with
  | true =>
    have drops : scope.keeps = false := by rw [ScopeStream.keeps, isFrozen]; rfl
    have same : scope.write data = scope := by
      rw [ScopeStream.write, isFrozen, if_neg (by decide)]
    rw [drops, if_neg Bool.false_ne_true, List.append_nil, same]
    exact ⟨channelsNum, sampleDepth, decimation, triggered, index, frozen, within, holds,
      fun unfrozen => Bool.noConfusion (isFrozen.symm.trans unfrozen), by omega⟩
  | false =>
    have before := counted isFrozen
    by_cases last : scope.decimationCounter - 1 = 0
    · have keeps : scope.keeps = true := by rw [ScopeStream.keeps, isFrozen, last]; rfl
      obtain ⟨-, written⟩ := scope.write_of_keeps data keeps
      rcases ScopeStream.trigger_cases { scope with decimationCounter := scope.decimation } data with
        ⟨-, same⟩ | ⟨quiet, -⟩ | ⟨quiet, -⟩ | ⟨quiet, -⟩
      · rw [keeps, if_pos rfl, written, same]
        rw [last] at before
        have later : Keeping origin { scope with decimationCounter := scope.decimation }
            (writes + 1) kept := by
          refine ⟨channelsNum, sampleDepth, decimation, decimation, triggered, isFrozen, index,
            fun small => Nat.lt_of_le_of_ne (within small) fun ends => ?_, holds, before⟩
          exact Bool.noConfusion (isFrozen.symm.trans (frozen.mpr ⟨ends, small⟩))
        exact later.fill data
      all_goals exact Bool.noConfusion (quiet.symm.trans triggered)
    · have drops : scope.keeps = false := by
        rw [ScopeStream.keeps, Bool.and_eq_false_iff, beq_eq_false_iff_ne]
        exact Or.inr last
      have next : (scope.decimationCounter - 1 - 1).toNat + 1 =
          (scope.decimationCounter - 1).toNat := by
        have one : 1 ≤ scope.decimationCounter - 1 :=
          UInt8.le_iff_toNat_le.mpr (UInt8.lt_iff_toNat_lt.mp (UInt8.pos_iff_ne_zero.mpr last))
        rw [UInt8.toNat_sub_of_le _ _ one]
        exact Nat.sub_add_cancel (UInt8.le_iff_toNat_le.mp one)
      rw [drops, if_neg Bool.false_ne_true, List.append_nil,
        ScopeStream.write_of_counts data isFrozen last]
      exact ⟨channelsNum, sampleDepth, decimation, triggered, index, frozen, within, holds,
        fun _ => by rw [next]; omega, by omega⟩

/-- One more row. -/
theorem capture_concat (scope : ScopeStream T) (data : Nat → T) (rows : List (Nat → T))
    (row : Nat → T) :
    scope.capture data (rows ++ [row]) = ((scope.capture data rows).1.write row,
      (scope.capture data rows).2 ++ if (scope.capture data rows).1.keeps then [row] else []) := by
  have concat : (data :: (rows ++ [row])).map ScopeCall.write =
      (data :: rows).map ScopeCall.write ++ [.write row] := by
    rw [← List.cons_append, List.map_append]
    rfl
  simp only [ScopeStream.capture, concat, EventMachine.run_concat_fst, EventMachine.run_concat_snd,
    List.map_append, ScopeStream.step, apply_ite (List.map KeptRow.data), List.map_cons,
    List.map_nil]

/-- **All rows from the one that triggers on.** -/
theorem filling_capture (some : 1 ≤ scope.sampleDepth.toNat) (quiet : scope.triggered = false)
    {data : Nat → T} (triggers : (scope.write data).triggered = true) (rows : List (Nat → T)) :
    Filling scope (scope.capture data rows).1 rows.length (scope.capture data rows).2 := by
  induction rows using List.reverseRecOn with
  | nil =>
    obtain ⟨keeps, first⟩ := filling_of_triggers some quiet triggers
    simp only [ScopeStream.capture, List.map_cons, List.map_nil, EventMachine.run_singleton,
      ScopeStream.step, keeps, if_true]
    exact first
  | append_singleton rows row ih =>
    rw [capture_concat, List.length_append]
    exact ih.write row

/-- The scope after the writes until `sample_depth` rows are kept, if they are completed. -/
theorem frozen_of_completes (some : 1 ≤ scope.sampleDepth.toNat) {data : Nat → T}
    (completes : scope.Completes data) : ∃ rows, (scope.capture data rows).1.frozen = true := by
  refine ⟨List.replicate ((scope.sampleDepth.toNat - 1) * scope.period) data, ?_⟩
  obtain ⟨length, frozen⟩ :=
    completes (List.replicate ((scope.sampleDepth.toNat - 1) * scope.period) data)
  rw [frozen, length, List.length_replicate, Nat.mul_div_cancel _ scope.period_pos,
    Nat.sub_add_cancel some, Nat.min_self]

/-- **A capture is completed exactly if the fill index gets to the depth.** -/
theorem completes_iff (some : 1 ≤ scope.sampleDepth.toNat) (quiet : scope.triggered = false)
    {data : Nat → T} (triggers : (scope.write data).triggered = true) :
    scope.Completes data ↔ scope.sampleDepth.toNat < 2 ^ 16 := by
  constructor
  · intro completes
    obtain ⟨rows, frozen⟩ := frozen_of_completes some completes
    exact ((filling_capture some quiet triggers rows).frozen.mp frozen).2
  · intro small rows
    have filling := filling_capture some quiet triggers rows
    refine ⟨?_, filling.frozen.trans (and_iff_left small)⟩
    obtain ⟨open_, closed⟩ := filling.length_kept
    cases frozen : (scope.capture data rows).1.frozen with
    | false =>
      rw [← open_ frozen, Nat.min_eq_right (filling.within small)]
    | true =>
      have ends := (filling.frozen.mp frozen).1
      rw [Nat.min_eq_left (ends ▸ closed frozen), ends]

/-- **Which captures are completed, and which can be read**: the depth is below `2 ^ 16`; and so is
the size in bytes of its samples of a channel. -/
theorem captures_iff (sizeof : UInt16) (some : 1 ≤ scope.sampleDepth.toNat)
    (quiet : scope.triggered = false) {data : Nat → T}
    (triggers : (scope.write data).triggered = true) :
    (scope.Completes data ↔ scope.sampleDepth.toNat < 2 ^ 16) ∧
      (scope.Captures sizeof data ↔ scope.sampleDepth.toNat < 2 ^ 16 ∧
        (0 < scope.channelsNum → scope.sampleDepth.toNat * sizeof.toNat < 2 ^ 16)) := by
  have completes := completes_iff some quiet triggers
  refine ⟨completes, fun captures => ?_, fun ⟨small, fits⟩ => ?_⟩
  · have small := completes.mp captures.completes
    refine ⟨small, fun channels => ?_⟩
    by_contra large
    obtain ⟨rows, frozen⟩ := frozen_of_completes some captures.completes
    have filling := filling_capture some quiet triggers rows
    rw [← filling.sampleDepth] at small large
    rw [← filling.channelsNum] at channels
    exact not_returns small (Nat.le_of_not_lt large) _ data (captures.returns rows frozen 0
      (filling.channelsNum ▸ channels))
  · refine ⟨completes.mpr small, fun rows frozen channel is => ?_⟩
    have filling := filling_capture some quiet triggers rows
    have ends := (filling.frozen.mp frozen).1
    have holds := filling.holds small
    have positive : 0 < scope.channelsNum := UInt8.lt_of_le_of_lt UInt8.zero_le is
    have fits := fits positive
    rw [← filling.sampleDepth] at small fits ends
    rw [← filling.channelsNum] at holds is
    exact returns_of_holds frozen small fits ends holds is

end Capture

/-! ### One channel of 32-bit samples, with levels 5 ± 2 -/

/-- The scope, before the row 9. -/
def oneChannel (sampleDepth : UInt32) : ScopeStream Int32 :=
  ScopeStream.start (fun _ => 0) 5 2 false 1 1 sampleDepth

/-- **A capture of 65536 rows is never completed**: the fill index wraps to 0. -/
theorem not_captures : ¬ ∀ (scope : ScopeStream Int32) (data : Nat → Int32),
    1 ≤ scope.sampleDepth.toNat → scope.triggered = false →
      (scope.write data).triggered = true → scope.Captures 4 data := by
  intro always
  have captures := always (oneChannel 65536) (fun _ => 9) (by decide) rfl (by decide)
  have small := (completes_iff (by decide) rfl (by decide)).mp captures.completes
  exact absurd small (by decide)

/-- A capture of a thousand rows is completed and read. -/
theorem captures_thousand : (oneChannel 1000).Captures 4 fun _ => 9 :=
  (captures_iff 4 (by decide) rfl (by decide)).2.mpr ⟨by decide, fun _ => by decide⟩

end ForgeDrive.Host
