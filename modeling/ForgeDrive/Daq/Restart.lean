/-
**Resetting the writer**, for any number of channels.

`Writer::reset` clears the stream and the counters, but not the mark ring. A writer with no marks
left answers every later call as a new one does (`Alike.answer`): of the memories of its rings it
shows what is between head and tail only. With a mark left, the first read already tells the two
apart (`marked_differs`).
-/

import ForgeDrive.Daq.Segments

namespace ForgeDrive.Daq

open EventMachine (run)
open Circular (segment store)
open El (RingFast)

/-! ### The property -/

/-- What a call returns: whether the row or the FLUSH was accepted, or the chunk. -/
inductive Answer
  | accepted (success : Bool)
  | chunk (type : StreamType) (returned : UInt16) (buf : Nat → UInt8)

/-- The number of bytes that are returned. -/
def Answer.returned : Answer → UInt16
  | .accepted _ => 0
  | .chunk _ returned _ => returned

/-- A call, with what it returns. -/
def Writer.answer (w : Writer) : Use → Writer × List Answer
  | .push counter row =>
    let out := (w.counting counter).pushSample row
    (out.1, [.accepted out.2])
  | .flush => (w.flush.1, [.accepted w.flush.2])
  | .read buf size stale =>
    let result := w.readNext buf size stale
    (result.writer, [.chunk result.type result.returned result.buf])

/-- **Reset gives a fresh writer**: whatever is called next, the answers are those of a new writer
with buffers of the same sizes, the same sync period and the same channel states. -/
def FreshAfterReset (sizes : Sizes) (w : Writer) : Prop :=
  ∀ memories : Memories, memories.syncPeriod = w.syncPeriod →
    (∀ i < sizes.channels, memories.ccs i = w.ccs i) → ∀ uses : List Use,
      (run Writer.answer w.reset uses).2 = (run Writer.answer (sizes.writer memories) uses).2

/-! ### Writers that answer alike -/

/-- Two writers that differ in what their memories hold beyond the rings' contents only. -/
structure Alike (w other : Writer) : Prop where
  stream : RingFast.SamePlaces w.stream other.stream
  marks : RingFast.SameItems w.marks other.marks
  channels : other.channels = w.channels
  ccs : ∀ i < w.channels, other.ccs i = w.ccs i
  counter : other.sampleCounter = w.sampleCounter
  till : other.samplesTillSync = w.samplesTillSync
  period : other.syncPeriod = w.syncPeriod
  reserve : other.reserve = w.reserve
  flags : other.flags = w.flags

section Copy

variable {stream other : RingFast UInt8} {out : Fd.Regions}

/-- **Copying** sees the contents only. -/
theorem copyRegions_same (same : RingFast.SamePlaces stream other)
    (splits : Fd.Splits stream.capacity_.toNat stream.tail_.toNat stream.size.toNat out)
    (count : UInt16) (buf : Nat → UInt8) :
    copyRegions other out count buf = copyRegions stream out count buf ∧
      (copyRegions stream out count buf).2.toNat ≤ stream.size.toNat := by
  have less := RingFast.size_lt same.valid
  have first : segment other.buffer_ out.first.toNat out.cont1.toNat =
      segment stream.buffer_ out.first.toNat out.cont1.toNat := by
    rw [splits.window_first stream.buffer_]
    refine Eq.trans ?_ (congrArg (List.take out.cont1.toNat) same.contents)
    rw [RingFast.contents, same.capacity, same.tail, same.size]
    exact splits.window_first other.buffer_
  have second : segment other.buffer_ 0 out.cont2.toNat =
      segment stream.buffer_ 0 out.cont2.toNat := by
    rw [splits.window_second stream.buffer_ same.valid.tail (Nat.le_of_lt less)]
    refine Eq.trans ?_ (congrArg (List.drop out.cont1.toNat) same.contents)
    rw [RingFast.contents, same.capacity, same.tail, same.size]
    exact splits.window_second other.buffer_ same.valid.tail (Nat.le_of_lt less)
  have shorter : ∀ {start length taken : Nat},
      segment other.buffer_ start length = segment stream.buffer_ start length →
      taken ≤ length →
      segment other.buffer_ start taken = segment stream.buffer_ start taken := by
    intro start length taken whole within
    rw [← Circular.segment_take other.buffer_ within, whole, Circular.segment_take _ within]
  have capped : ∀ most asked : UInt16,
      (if most < asked then most else asked).toNat ≤ most.toNat := by
    intro most asked
    split
    case isTrue => exact le_rfl
    case isFalse enough => exact UInt16.le_iff_toNat_le.mp (UInt16.not_lt.mp enough)
  have cont2 := splits.cont2
  have cont1 := splits.cont1
  have firstRegion := capped out.cont1 count
  simp only [copyRegions, shorter first firstRegion]
  generalize (if out.cont1 < count then out.cont1 else count) = n at firstRegion ⊢
  cases placed : out.second with
  | none =>
    refine ⟨rfl, ?_⟩
    show n.toNat ≤ _
    omega
  | some second_ =>
    have start : second_ = 0 := splits.second_zero placed
    have secondRegion := capped out.cont2 (count - n)
    subst start
    have copied : segment other.buffer_ (0 : UInt16).toNat _ = _ := shorter second secondRegion
    simp only [copied]
    refine ⟨trivial, ?_⟩
    split
    · rw [UInt16.toNat_add]
      omega
    · show n.toNat ≤ _
      omega

end Copy

section Alike

variable {w other : Writer} {row : Nat → Int16}

theorem Alike.counting (alike : Alike w other) (counter : UInt32) :
    Alike (w.counting counter) (other.counting counter) :=
  ⟨alike.stream, alike.marks, alike.channels, alike.ccs, rfl, alike.till, alike.period,
    alike.reserve, alike.flags⟩

/-- The loop over the channels encodes the same. -/
theorem Alike.encoded (alike : Alike w other) (row : Nat → Int16) {count : Nat}
    (within : count ≤ w.channels) :
    (other.encoded row count).2 = (w.encoded row count).2 ∧
      ∀ i < w.channels, (other.encoded row count).1 i = (w.encoded row count).1 i := by
  induction count with
  | zero => exact ⟨rfl, alike.ccs⟩
  | succ count ih =>
    obtain ⟨bytes, states⟩ := ih (Nat.le_of_succ_le within)
    have place : count % 256 < w.channels := (Nat.mod_le _ _).trans_lt within
    rw [encoded_succ, encoded_succ]
    simp only [states _ place, bytes]
    refine ⟨trivial, fun i inside => ?_⟩
    rcases eq_or_ne i (count % 256) with rfl | apart
    · rw [Function.update_self, Function.update_self]
    · rw [Function.update_of_ne apart, Function.update_of_ne apart, states i inside]

theorem Alike.encodedRow (alike : Alike w other) (row : Nat → Int16) :
    Alike (w.encodedRow row) (other.encodedRow row) := by
  refine ⟨alike.stream, alike.marks, alike.channels, ?_, alike.counter, alike.till, alike.period,
    alike.reserve, alike.flags⟩
  show ∀ i < w.channels, (other.encoded row other.channels).1 i = (w.encoded row w.channels).1 i
  rw [alike.channels]
  exact (alike.encoded row le_rfl).2

/-- The resync block is the same. -/
theorem Alike.resyncBlock (alike : Alike w other) : other.resyncBlock = w.resyncBlock := by
  have count : other.channelCount = w.channelCount := by
    rw [Writer.channelCount, Writer.channelCount, alike.channels]
  have states : ((List.range w.channelCount.toNat).flatMap fun i => stateBytes (other.ccs i)) =
      (List.range w.channelCount.toNat).flatMap fun i => stateBytes (w.ccs i) := by
    refine congrArg List.flatten (List.map_congr_left fun i member => ?_)
    have few : w.channelCount.toNat ≤ w.channels := by
      rw [Writer.channelCount, UInt8.toNat_ofNat']
      exact Nat.mod_le _ _
    rw [alike.ccs i ((List.mem_range.mp member).trans_le few)]
  rw [Writer.resyncBlock, Writer.resyncBlock, Writer.resyncBytes, Writer.resyncBytes, count,
    alike.counter, states]

theorem Alike.internalResync (alike : Alike w other) :
    Alike w.internalResync other.internalResync := by
  rw [internalResync_eq, internalResync_eq, alike.resyncBlock]
  generalize w.resyncBlock = block
  have head : other.stream.head = w.stream.head := alike.stream.head
  refine ⟨alike.stream.pushAll _, ?_, alike.channels, alike.ccs, alike.counter, alike.period,
    alike.period, alike.reserve, alike.flags⟩
  show RingFast.SameItems (w.marks.push _).1 (other.marks.push _).1
  rw [head]
  exact alike.marks.push _

/-- The tests of `pushSample` decide the same. -/
theorem Alike.admission (alike : Alike w other) :
    Alike w.admission.1 other.admission.1 ∧ other.admission.2 = w.admission.2 := by
  rw [Writer.admission, Writer.admission, alike.flags, alike.stream.free, alike.reserve]
  split
  · exact ⟨alike, rfl⟩
  · split
    · exact ⟨⟨alike.stream, alike.marks, alike.channels, alike.ccs, alike.counter, rfl,
        alike.period, rfl, rfl⟩, rfl⟩
    · exact ⟨alike, rfl⟩

theorem Alike.starts (alike : Alike w other) :
    other.startsBlock = w.startsBlock ∧ other.writesRow = w.writesRow := by
  rw [Writer.startsBlock, Writer.startsBlock, Writer.writesRow, Writer.writesRow,
    alike.admission.2, alike.till]
  exact ⟨rfl, rfl⟩

theorem Alike.counted (alike : Alike w other) (write : Bool) :
    Alike (if write then { w with samplesTillSync := w.samplesTillSync - 1 } else w)
      (if write then { other with samplesTillSync := other.samplesTillSync - 1 } else other) := by
  cases write with
  | false => exact alike
  | true =>
    exact ⟨alike.stream, alike.marks, alike.channels, alike.ccs, alike.counter,
      congrArg (· - 1) alike.till, alike.period, alike.reserve, alike.flags⟩

theorem Alike.pushSample (alike : Alike w other) (row : Nat → Int16) :
    (other.pushSample row).2 = (w.pushSample row).2 ∧
      Alike (w.pushSample row).1 (other.pushSample row).1 := by
  obtain ⟨admitted, success⟩ := alike.admission
  obtain ⟨starts, writes⟩ := alike.starts
  have bytes : (other.encoded row other.channels).2 = (w.encoded row w.channels).2 := by
    rw [alike.channels]
    exact (alike.encoded row le_rfl).1
  have encoded : ∀ write, Alike (w.admission.1.encodeRow write row)
      (other.admission.1.encodeRow write row) := by
    intro write
    have rowAlike := alike.encodedRow row
    rw [encodeRow_encoded, encodeRow_encoded, bytes]
    refine ⟨?_, alike.marks, alike.channels, rowAlike.ccs, alike.counter, admitted.till,
      alike.period, alike.reserve, admitted.flags⟩
    cases write with
    | false => exact alike.stream
    | true => exact alike.stream.pushAll _
  refine ⟨success, ?_⟩
  rw [Writer.pushSample, Writer.pushSample, starts, writes]
  have synced : Alike
      (if w.startsBlock then (w.admission.1.encodeRow w.writesRow row).internalResync
        else w.admission.1.encodeRow w.writesRow row)
      (if w.startsBlock then (other.admission.1.encodeRow w.writesRow row).internalResync
        else other.admission.1.encodeRow w.writesRow row) := by
    split
    · exact (encoded _).internalResync
    · exact encoded _
  exact synced.counted w.writesRow

theorem Alike.flush (alike : Alike w other) :
    other.flush.2 = w.flush.2 ∧ Alike w.flush.1 other.flush.1 := by
  have head : other.stream.head = w.stream.head := alike.stream.head
  rw [Writer.flush, Writer.flush, alike.stream.free, head]
  split
  · exact ⟨rfl, alike⟩
  · exact ⟨rfl, alike.stream.pushFast _, alike.marks.push _, alike.channels, alike.ccs,
      alike.counter, rfl, alike.period, alike.reserve, alike.flags⟩

/-- Both plan to read the same. -/
theorem Alike.planned (alike : Alike w other) (stale : UInt16) :
    other.planned stale = w.planned stale := by
  rw [Writer.planned, Writer.planned, alike.marks.peek]
  cases w.marks.peek with
  | none => rw [alike.stream.size]
  | some mark => simp only [alike.stream.distanceFromTail]

theorem Alike.readNext (alike : Alike w other) (buf : Nat → UInt8) (size : Nat)
    (stale : UInt16) :
    let result := w.readNext buf size stale
    let matched := other.readNext buf size stale
    (matched.type = result.type ∧ matched.returned = result.returned ∧
      matched.buf = result.buf) ∧ Alike result.writer matched.writer := by
  simp only [Writer.readNext, alike.planned]
  split
  · exact ⟨⟨rfl, rfl, rfl⟩, alike⟩
  · rcases Nat.eq_zero_or_pos w.stream.size.toNat with empty | some_
    · rw [alike.stream.readReserve, RingFast.readReserve_none empty]
      exact ⟨⟨rfl, rfl, rfl⟩, alike⟩
    · obtain ⟨out, reserved, splits⟩ :=
        RingFast.readReserve_eq alike.stream.valid (Nat.ne_of_gt some_)
      rw [alike.stream.readReserve, reserved]
      generalize (if (w.planned stale).1.toNat > size then UInt16.ofNat size
        else (w.planned stale).1) = count
      obtain ⟨same, within⟩ := copyRegions_same alike.stream splits count buf
      have committed := alike.stream.readCommit within
      simp only [Writer.commitRead, same]
      refine ⟨⟨trivial, trivial, trivial⟩, committed, ?_, alike.channels, alike.ccs, alike.counter,
        alike.till, alike.period, alike.reserve, ?_⟩
      · show RingFast.SameItems (if _ then w.marks.pop else w.marks)
          (if _ then other.marks.pop else other.marks)
        split
        · exact alike.marks.pop
        · exact alike.marks
      · simp only [committed.size, alike.flags]

/-- **Writers that are alike answer alike**, and stay so. -/
theorem Alike.answer (alike : Alike w other) (use : Use) :
    (w.answer use).2 = (other.answer use).2 ∧ Alike (w.answer use).1 (other.answer use).1 := by
  cases use with
  | push counter row =>
    obtain ⟨success, next⟩ := (alike.counting counter).pushSample row
    exact ⟨by rw [Writer.answer, Writer.answer, success], next⟩
  | flush =>
    obtain ⟨success, next⟩ := alike.flush
    exact ⟨by rw [Writer.answer, Writer.answer, success], next⟩
  | read buf size stale =>
    obtain ⟨⟨type, returned, chunk⟩, next⟩ := alike.readNext buf size stale
    exact ⟨by rw [Writer.answer, Writer.answer, type, returned, chunk], next⟩

end Alike

/-! ### The states that a run reaches -/

/-- What every call keeps of both rings. -/
structure Formed (sizes : Sizes) (w : Writer) : Prop extends Sound sizes w where
  validMarks : w.marks.Valid
  slots : w.marks.capacity_ = sizes.markSize

section Formed

variable {sizes : Sizes} {w : Writer}

theorem formed_start (sizes : Sizes) (memories : Memories) :
    Formed sizes (sizes.writer memories) :=
  ⟨sound_start sizes memories, RingFast.new_valid memories.markBuf sizes.markPower, rfl⟩

theorem push_marks {marks : RingFast ControlMark} (valid : marks.Valid) (mark : ControlMark) :
    (marks.push mark).1.Valid ∧ (marks.push mark).1.capacity_ = marks.capacity_ := by
  rw [RingFast.push]
  split
  · exact ⟨valid, rfl⟩
  · exact ⟨RingFast.pushFast_valid valid mark, rfl⟩

theorem Formed.appends (formed : Formed sizes w) {items : List Item} {result : Writer}
    (appends : Appends w items result) : Formed sizes result := by
  have marks : (w.marked items).Valid ∧ (w.marked items).capacity_ = w.marks.capacity_ := by
    rw [Writer.marked.eq_def]
    split
    · exact push_marks formed.validMarks _
    · exact ⟨formed.validMarks, rfl⟩
  rw [← appends.marks] at marks
  exact ⟨formed.toSound.appends appends, marks.1, marks.2.trans formed.slots⟩

theorem Formed.readNext (formed : Formed sizes w) (buf : Nat → UInt8) (size : Nat)
    (stale : UInt16) : Formed sizes (w.readNext buf size stale).writer := by
  have marks : (w.readNext buf size stale).writer.marks = w.marks ∨
      (w.readNext buf size stale).writer.marks = w.marks.pop := by
    rcases readNext_cases w buf size stale with same | ⟨count, out, read⟩
    · rw [same]
      exact .inl rfl
    · rw [read]
      exact (ite_eq_or_eq _ _ _).symm
  have popped : w.marks.pop.capacity_ = w.marks.capacity_ := by
    rw [RingFast.pop]
    split <;> rfl
  rcases marks with same | same
  · refine ⟨formed.toSound.readNext buf size stale, ?_, ?_⟩
    · rw [same]
      exact formed.validMarks
    · rw [same]
      exact formed.slots
  · refine ⟨formed.toSound.readNext buf size stale, ?_, ?_⟩
    · rw [same]
      exact RingFast.pop_valid formed.validMarks
    · rw [same, popped]
      exact formed.slots

theorem Formed.use (formed : Formed sizes w) (use : Use) : Formed sizes (w.use use).1 := by
  cases use with
  | push counter row =>
    have counted : Formed sizes (w.counting counter) :=
      ⟨formed.toSound.counting counter, formed.validMarks, formed.slots⟩
    exact counted.appends (pushSample_appends _ row)
  | flush => exact formed.appends (flush_appends w)
  | read buf size stale => exact formed.readNext buf size stale

/-- Every state that a run reaches is formed. -/
theorem run_formed (memories : Memories) (uses : List Use) :
    Formed sizes (run Writer.use (sizes.writer memories) uses).1 :=
  EventMachine.run_invariant Writer.use (Formed sizes) (fun _ use formed => formed.use use)
    (formed_start sizes memories) uses

end Formed

/-! ### Resetting -/

section Reset

variable {sizes : Sizes} {w : Writer}

/-- **Without marks**, a writer that is reset is as new. -/
theorem Formed.reset_alike (formed : Formed sizes w) (noMarks : w.marks.contents = [])
    {memories : Memories} (period : memories.syncPeriod = w.syncPeriod)
    (states : ∀ i < sizes.channels, memories.ccs i = w.ccs i) :
    Alike w.reset (sizes.writer memories) := by
  have streamNew := RingFast.new_contents memories.streamBuf sizes.streamSize
  have markNew := RingFast.new_contents memories.markBuf sizes.markSize
  refine ⟨⟨RingFast.clear_valid formed.valid, formed.capacity.symm, ?_, rfl, rfl, ?_⟩,
    ⟨formed.validMarks, RingFast.new_valid memories.markBuf sizes.markPower, formed.slots.symm,
      ?_⟩, formed.channels.symm, ?_, rfl, rfl, period, ?_, rfl⟩
  · show sizes.streamSize - 1 = w.stream.mask_
    rw [formed.valid.mask, formed.capacity]
  · exact streamNew.trans (RingFast.clear_contents w.stream).symm
  · exact markNew.trans noMarks.symm
  · show ∀ i < w.channels, memories.ccs i = w.ccs i
    rw [formed.channels]
    exact states
  · have reserve : (UInt8.ofNat (controlReserve.toNat * sizes.channels)).toNat =
        16 * sizes.channels % 256 := UInt8.toNat_ofNat' ..
    exact UInt8.toNat_inj.mp (reserve.trans formed.reserve.symm)

/-- **With a mark left**, the first read is announced as a control block. -/
theorem marked_differs (marked : w.marks.head_ ≠ w.marks.tail_) (buf : Nat → UInt8) :
    (w.reset.readNext buf 0 0).type = .control := by
  have peeked : w.reset.marks.peek = some (w.marks.buffer_ w.marks.tail_.toNat) := if_neg marked
  have nowhere : ∀ idx : Int16, w.reset.stream.distanceFromTail idx = none := by
    intro idx
    have none_ : w.reset.stream.size = 0 := by
      show (0 - 0 : UInt16) &&& w.stream.mask_ = 0
      rw [UInt16.sub_self, UInt16.zero_and]
    rw [RingFast.distanceFromTail, none_]
    split
    · rfl
    · exact if_pos (UInt16.le_iff_toNat_le.mpr (Nat.zero_le _))
  have plan : (w.reset.planned 0).2 = .control := by
    rw [Writer.planned, peeked]
    simp only [nowhere, Option.getD_none]
    rfl
  have refused : (w.reset.planned 0).1.toNat > 0 ∨ (w.reset.planned 0).1 = 0 := by
    rcases Nat.eq_zero_or_pos (w.reset.planned 0).1.toNat with zero | positive
    · exact .inr (UInt16.toNat_inj.mp zero)
    · exact .inl positive
  rw [Writer.readNext]
  simp only [plan]
  rw [if_pos ⟨trivial, refused⟩]

/-- A new writer has nothing to read. -/
theorem new_nothing (sizes : Sizes) (memories : Memories) (buf : Nat → UInt8) :
    ((sizes.writer memories).readNext buf 0 0).type = .sample := by
  have empty := RingFast.size_eq_zero (RingFast.new_contents memories.streamBuf sizes.streamSize)
  have plan : (sizes.writer memories).planned 0 = (0, .sample) := by
    have peeked : (sizes.writer memories).marks.peek = none := if_pos rfl
    rw [Writer.planned, peeked]
    exact congrArg (·, StreamType.sample) (UInt16.toNat_inj.mp empty)
  have none_ := RingFast.readReserve_none (r := (sizes.writer memories).stream) empty
  simp only [Writer.readNext, plan, none_]
  rw [if_neg fun both => StreamType.noConfusion both.1]

/-- **When reset gives a fresh writer**: in the states of all runs, for any number of channels,
exactly if no mark is left, that is if every control block that was marked has been read. -/
theorem freshAfterReset_iff (sizes : Sizes) (memories : Memories) (uses : List Use) :
    let w := (run Writer.use (sizes.writer memories) uses).1
    FreshAfterReset sizes w ↔ w.marks.head_ = w.marks.tail_ := by
  intro w
  have formed : Formed sizes w := run_formed memories uses
  constructor
  · intro fresh
    by_contra marked
    have answers := fresh ⟨memories.streamBuf, memories.markBuf, w.ccs, 0, w.syncPeriod, 0⟩ rfl
      (fun _ _ => rfl) [.read (fun _ => 0) 0 0]
    obtain ⟨types, -, -⟩ := Answer.chunk.inj (List.cons.inj answers).1
    rw [marked_differs marked, new_nothing] at types
    exact StreamType.noConfusion types
  · intro unmarked other period states later
    have noMarks : w.marks.contents = [] := by
      rw [RingFast.contents, (RingFast.empty_iff formed.validMarks).mp unmarked,
        Circular.window_zero]
    exact EventMachine.run_same Writer.answer Writer.answer Alike
      (fun _ _ use alike => alike.answer use) (formed.reset_alike noMarks period states) later

/-- **A writer that is not fresh**: a resync block is unread when the writer is reset. A FLUSH comes
next, and its chunk is announced with the nine bytes of the old mark. -/
theorem reset_not_fresh : ¬ ∀ (sizes : Sizes) (memories : Memories) (uses : List Use),
    FreshAfterReset sizes (run Writer.use (sizes.writer memories) uses).1 := by
  intro all
  have answers := all oneChannelSizes zeroed [zeroRow] zeroed rfl (fun i inside => by
      rw [Nat.lt_one_iff.mp inside]
      rfl) [.flush, .read (fun _ => 0) 16 0]
  have returned := congrArg (List.map Answer.returned) answers
  exact absurd returned (by decide)

end Reset

end ForgeDrive.Daq
