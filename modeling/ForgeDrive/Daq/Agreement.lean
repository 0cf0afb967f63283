/-
**When writer and reader agree on the resync block.**

Both compute the size of the block as a `uint8_t`, and the reader keeps it in 64 bytes: it takes the
blocks of 14 channels at most (`agrees_iff`), and needs room for one row to apply them.

The mark ring may be small. A control block whose mark found no slot is read as sample bytes, so that
the rings of every run carry a queue (`Carries`), as those with enough slots do.
-/

import ForgeDrive.Daq.Lossless
import ForgeDrive.Daq.Segments

namespace ForgeDrive.Daq

open EventMachine (run Along)
open Circular (segment store)
open El (RingFast)

/-! ### The property -/

/-- A call of `decode`, with `getSamples` called after it or not. -/
def Reader.serve (r : Reader) (call : Call × Bool) : Reader × List Event :=
  if call.2 then r.decodeAndGet call.1 else r.decode call.1

/-- A reader that earlier calls have left. -/
def Served (c capacity : Nat) (r : Reader) : Prop :=
  ∃ scratchBuf dodBuf ccs calls,
    r = (run Reader.serve (.new scratchBuf dodBuf ccs c c capacity) calls).1

/-- **A chunk is taken as a resync block**: it is a control chunk, `decode` returns `OK`, and the
next chunk is read behind a restart that has set the counter and the channel states. -/
structure Taken (c : Nat) (counter : UInt32) (ccs : Nat → ChannelState) (result : ReadResult)
    (beyond : Nat → UInt8) (r : Reader) (next : Call) : Prop where
  type : result.type = .control
  accepted : .returned .ok ∈ (r.decode (result.call beyond)).2
  restarted : ((r.decode (result.call beyond)).1.begin_ next).2.1 = false
  counted : ((r.decode (result.call beyond)).1.begin_ next).1.block.counter = counter
  states : ∀ i < c, ((r.decode (result.call beyond)).1.begin_ next).1.ccs i = ccs i

/-- **Agreement**: in every state of a writer with room for the block and its mark, for every counter
and all channel states, the block of `internal_resync` is taken by every reader, when what is before
it has been read. -/
def Agrees (c capacity : Nat) : Prop :=
  ∀ (sizes : Sizes) (memories : Memories) (uses : List Use) (ccs : Nat → ChannelState)
    (counter : UInt32) (reads : List Use) (buf : Nat → UInt8) (size : Nat) (stale : UInt16)
    (beyond : Nat → UInt8) (r : Reader) (next : Call),
    let w := (run Writer.use (sizes.writer memories) uses).1
    let before := run Writer.use
      ({ w with ccs := ccs, sampleCounter := counter } : Writer).internalResync reads
    sizes.channels = c →
    w.stream.size.toNat + (5 + 4 * (c % 256)) < sizes.streamSize.toNat →
    w.marks.size.toNat + 1 < w.marks.capacity_.toNat →
    (∀ use ∈ reads, ∃ buf size stale, use = .read buf size stale) →
    (takenBytes before.2).length = w.stream.size.toNat →
    5 + 4 * c ≤ size → Served c capacity r → next.bytes ≠ [] →
    Taken c counter ccs (before.1.readNext buf size stale) beyond r next

/-! ### Rings with few marks -/

/-- The stream holds the queue, and the marks are those of its control blocks, be there as many
slots as for bytes or not. -/
structure Carries (w : Writer) (queue : List Item) : Prop where
  validMarks : w.marks.Valid
  ghost : ∃ marks, Holds w.stream marks queue ∧ marks.contents = w.marks.contents

/-- Two reads that differ in the mark ring only. -/
structure SameRead (result other : ReadResult) : Prop where
  buf : other.buf = result.buf
  type : other.type = result.type
  returned : other.returned = result.returned
  stream : other.writer.stream = result.writer.stream
  valid : result.writer.marks.Valid
  marks : other.writer.marks.contents = result.writer.marks.contents

section Carries

variable {sizes : Sizes} {w : Writer} {queue items : List Item}

/-- **Of the mark ring, a read sees the contents only.** -/
theorem readNext_marks {marks : RingFast ControlMark} (valid : w.marks.Valid)
    (validOther : marks.Valid) (same : marks.contents = w.marks.contents) (buf : Nat → UInt8)
    (size : Nat) (stale : UInt16) :
    SameRead (w.readNext buf size stale)
      (({ w with marks := marks } : Writer).readNext buf size stale) := by
  have planned : ({ w with marks := marks } : Writer).planned stale = w.planned stale := by
    have peeked : marks.peek = w.marks.peek := by
      rw [RingFast.peek_eq validOther, same, ← RingFast.peek_eq valid]
    simp only [Writer.planned, peeked]
  have popped : marks.pop.contents = w.marks.pop.contents := by
    rw [RingFast.pop_contents validOther, RingFast.pop_contents valid, same]
  simp only [Writer.readNext, planned]
  split
  · exact ⟨rfl, rfl, rfl, rfl, valid, same⟩
  · cases w.stream.readReserve with
    | none => exact ⟨rfl, rfl, rfl, rfl, valid, same⟩
    | some out =>
      simp only [Writer.commitRead]
      refine ⟨rfl, rfl, rfl, rfl, ?_, ?_⟩
      · show (if _ then w.marks.pop else w.marks).Valid
        split
        · exact RingFast.pop_valid valid
        · exact valid
      · show (if _ then marks.pop else marks).contents =
          (if _ then w.marks.pop else w.marks).contents
        split
        · exact popped
        · exact same

theorem SameRead.chunks {result other : ReadResult} (same : SameRead result other) :
    other.chunks = result.chunks := by
  rw [ReadResult.chunks, ReadResult.chunks, same.buf, same.type, same.returned]

theorem carries_start (sizes : Sizes) (memories : Memories) :
    Carries (sizes.writer memories) [] := by
  obtain ⟨exponent, few, power⟩ := sizes.streamPower
  have slots : sizes.streamSize.toNat ≤ (32768 : UInt16).toNat := by
    rw [power]
    exact Nat.pow_le_pow_right (by decide) few
  have marks : ∃ exponent ≤ 15, (32768 : UInt16).toNat = 2 ^ exponent := ⟨15, le_rfl, rfl⟩
  refine ⟨RingFast.new_valid memories.markBuf sizes.markPower,
    .new memories.markBuf 32768, ?_, ?_⟩
  · exact ⟨RingFast.new_valid memories.streamBuf sizes.streamPower,
      RingFast.new_valid memories.markBuf marks, slots,
      RingFast.new_contents memories.streamBuf _, RingFast.new_contents memories.markBuf _,
      fun _ member => absurd member List.not_mem_nil,
      fun _ member => absurd member List.not_mem_nil⟩
  · exact (RingFast.new_contents memories.markBuf _).trans
      (RingFast.new_contents memories.markBuf _).symm

theorem control_ne_samples {block : List UInt8} (bytes : List UInt8) :
    [Item.control block] ≠ bytes.map .sample := by
  cases bytes with
  | nil => exact List.cons_ne_nil _ _
  | cons byte rest => exact fun same => Item.noConfusion (List.cons.inj same).1

/-- **What is pushed is carried**, as sample bytes where there is no slot for the mark. -/
theorem Carries.append (carries : Carries w queue) {result : Writer}
    (appends : Appends w items result) (pushable : Pushable items)
    (fits : w.stream.size.toNat + (items.flatMap Item.bytes).length <
      w.stream.capacity_.toNat) :
    ∃ carried, Carries result (queue ++ carried) ∧
      ((w.marks.size.toNat + 1 < w.marks.capacity_.toNat ∨
        ∃ bytes : List UInt8, items = bytes.map .sample) → carried = items) := by
  obtain ⟨marks, holds, same⟩ := carries.ghost
  have valid := carries.validMarks
  rcases pushable with ⟨bytes, rfl⟩ | ⟨block, rfl, some_, short⟩
  · rw [bytes_samples] at fits
    refine ⟨bytes.map .sample, ⟨?_, marks, ?_, ?_⟩, fun _ => rfl⟩
    · rw [appends.marks, marked_samples]
      exact valid
    · rw [appends.stream, bytes_samples]
      exact holds.samples fits
    · rw [appends.marks, marked_samples]
      exact same
  · rw [List.flatMap_singleton] at fits
    have stream : result.stream = w.stream.pushAll block := by
      rw [appends.stream, List.flatMap_singleton]
      rfl
    by_cases room : w.marks.size.toNat + 1 < w.marks.capacity_.toNat
    · have next := holds.control some_ short fits
      have pushed := RingFast.push_eq valid room ⟨w.stream.head, UInt8.ofNat block.length⟩
      have resultMarks : result.marks = w.marks.pushFast
          ⟨w.stream.head, UInt8.ofNat block.length⟩ := by
        rw [appends.marks]
        exact congrArg Prod.fst pushed
      have frame := RingFast.pushAll_frame holds.valid block
      refine ⟨[.control block],
        ⟨?_, (marks.push ⟨w.stream.head, UInt8.ofNat block.length⟩).1, ?_, ?_⟩, fun _ => rfl⟩
      · rw [resultMarks]
        exact RingFast.pushFast_valid valid _
      · rw [stream]
        exact next
      · rw [next.markContents, frame.2.1, frame.2.2.1, marksOf_append, ← holds.markContents, same,
          resultMarks, RingFast.pushFast_contents valid room, holds.head_place, marksOf, marksOf]
    · have resultMarks : result.marks = w.marks := by
        rw [appends.marks]
        exact congrArg Prod.fst (RingFast.push_full valid room _)
      refine ⟨block.map .sample, ⟨?_, marks, ?_, ?_⟩, fun marked => ?_⟩
      · rw [resultMarks]
        exact valid
      · rw [stream]
        exact holds.samples fits
      · rw [resultMarks]
        exact same
      · rcases marked with more | ⟨bytes, other⟩
        · exact absurd more room
        · exact absurd other (control_ne_samples bytes)

/-- **A read takes from the front** of what is carried. -/
theorem Carries.read (carries : Carries w queue) (buf : Nat → UInt8) (size : Nat)
    (stale : UInt16) :
    ∃ rest, queue = takenItems (w.readNext buf size stale).chunks ++ rest ∧
      Carries (w.readNext buf size stale).writer rest := by
  obtain ⟨marks, holds, same⟩ := carries.ghost
  have sameRead := readNext_marks carries.validMarks holds.validMarks same buf size stale
  obtain ⟨rest, takes⟩ := readNext_takes (w := { w with marks := marks }) holds buf size stale
  have front := takes.front
  have next := takes.holds
  rw [sameRead.chunks] at front
  rw [sameRead.stream] at next
  exact ⟨rest, front, sameRead.valid, _, next, sameRead.marks⟩

/-- A control block at the front is read as a whole. -/
theorem Carries.block {block : List UInt8} (carries : Carries w [.control block])
    (buf : Nat → UInt8) {size : Nat} (fits : block.length ≤ size) (stale : UInt16) :
    (w.readNext buf size stale).type = .control ∧
      segment (w.readNext buf size stale).buf 0 (w.readNext buf size stale).returned.toNat =
        block := by
  obtain ⟨marks, holds, same⟩ := carries.ghost
  have sameRead := readNext_marks carries.validMarks holds.validMarks same buf size stale
  have positive := List.length_pos_iff.mpr (holds.some_ block List.mem_cons_self)
  have some_ : 0 < size := by omega
  have step := readNext_spec (w := { w with marks := marks }) holds some_
    (fun other member => by rwa [Item.control.inj (List.mem_singleton.mp member)]) buf stale
  rcases step with ⟨empty, _, _⟩ | ⟨bytes, rest, split, returned, _, chunk, _⟩ |
    ⟨bytes, rest, split, _, type, chunk, _⟩
  · exact absurd empty (List.cons_ne_nil _ _)
  · -- a sample chunk is not empty, and the front is no sample
    cases bytes with
    | nil =>
      refine absurd (congrArg List.length chunk) ?_
      rw [Circular.segment_length]
      exact fun zero => returned (UInt16.toNat_inj.mp zero)
    | cons byte bytes => exact Item.noConfusion (List.cons.inj split).1
  · rw [sameRead.type] at type
    rw [sameRead.buf, sameRead.returned] at chunk
    exact ⟨type, chunk.trans (Item.control.inj (List.cons.inj split).1).symm⟩

theorem Carries.use (carries : Carries w queue) (sound : Sound sizes w)
    (few : sizes.channels ≤ 15) (use : Use) : ∃ next, Carries (w.use use).1 next := by
  have positive := sizes.positive
  have safe := (sound.safe_iff use).mp (sound.safe (.inr (by omega)) use)
  have pushable := sound.pushable (few.trans (by decide)) use
  rw [← sound.capacity] at safe
  cases use with
  | read buf size stale =>
    obtain ⟨rest, -, next⟩ := carries.read buf size stale
    exact ⟨rest, next⟩
  | flush =>
    obtain ⟨carried, next, -⟩ := carries.append (flush_appends w) pushable safe
    exact ⟨_, next⟩
  | push counter row =>
    have counted : Carries (w.counting counter) queue := ⟨carries.validMarks, carries.ghost⟩
    obtain ⟨carried, next, -⟩ :=
      counted.append (pushSample_appends (w.counting counter) row) pushable safe
    exact ⟨_, next⟩

/-- The rings of every run carry a queue. -/
theorem run_carries (few : sizes.channels ≤ 15) (memories : Memories) (uses : List Use) :
    Sound sizes (run Writer.use (sizes.writer memories) uses).1 ∧
      ∃ queue, Carries (run Writer.use (sizes.writer memories) uses).1 queue :=
  EventMachine.run_invariant Writer.use
    (fun w => Sound sizes w ∧ ∃ queue, Carries w queue)
    (fun w use kept => by
      obtain ⟨sound, queue, carries⟩ := kept
      exact ⟨sound.use use, carries.use sound few use⟩)
    ⟨sound_start sizes memories, [], carries_start sizes memories⟩ uses

/-- **Reads take from the front**, one after the other. -/
theorem Carries.reads (carries : Carries w queue) {reads : List Use}
    (only : ∀ use ∈ reads, ∃ buf size stale, use = .read buf size stale) :
    ∃ rest, queue = takenItems (run Writer.use w reads).2 ++ rest ∧
      Carries (run Writer.use w reads).1 rest := by
  induction reads generalizing w queue with
  | nil => exact ⟨queue, rfl, carries⟩
  | cons use later ih =>
    rw [List.forall_mem_cons] at only
    obtain ⟨⟨buf, size, stale, rfl⟩, onlyLater⟩ := only
    obtain ⟨middle, split, next⟩ := carries.read buf size stale
    obtain ⟨rest, splitLater, final⟩ := ih next onlyLater
    refine ⟨rest, ?_, final⟩
    rw [EventMachine.run_cons, takenItems_append, List.append_assoc, split]
    exact congrArg _ splitLater

/-- Items that are not empty are told apart by their bytes. -/
theorem taken_all {last : Item} {taken rest : List Item}
    (some_ : ∀ item ∈ queue ++ [last], item.bytes ≠ [])
    (split : queue ++ [last] = taken ++ rest)
    (length : (taken.flatMap Item.bytes).length = (queue.flatMap Item.bytes).length) :
    rest = [last] := by
  rcases List.append_eq_append_iff.mp split with ⟨more, rfl, tail⟩ | ⟨more, rfl, rfl⟩
  · rw [List.flatMap_append, List.length_append] at length
    have none_ : more = [] := by
      refine items_eq_nil (fun item member => some_ item ?_) (by omega)
      rw [tail]
      exact List.mem_append_right _ (List.mem_append_left _ member)
    rw [none_, List.nil_append] at tail
    exact tail.symm
  · rw [List.flatMap_append, List.length_append] at length
    have none_ : more = [] := items_eq_nil
      (fun item member => some_ item (List.mem_append_left _ (List.mem_append_right _ member)))
      (by omega)
    rw [none_, List.nil_append]

/-- **The block is delivered**: when all before it has been read, it is the next chunk. -/
theorem delivered (few : sizes.channels ≤ 15) (sound : Sound sizes w)
    (carries : Carries w queue) (ccs : Nat → ChannelState) (counter : UInt32)
    (room : w.stream.size.toNat + (5 + 4 * sizes.channels) < sizes.streamSize.toNat)
    (slot : w.marks.size.toNat + 1 < w.marks.capacity_.toNat) {reads : List Use}
    (only : ∀ use ∈ reads, ∃ buf size stale, use = .read buf size stale) (buf : Nat → UInt8)
    {size : Nat} (large : 5 + 4 * sizes.channels ≤ size) (stale : UInt16) :
    let counted : Writer := { w with ccs := ccs, sampleCounter := counter }
    let before := run Writer.use counted.internalResync reads
    let result := before.1.readNext buf size stale
    (takenBytes before.2).length = w.stream.size.toNat →
    result.type = .control ∧
      segment result.buf 0 result.returned.toNat = counted.resyncBlock := by
  intro counted before result all
  have counting : Carries counted queue := ⟨carries.validMarks, carries.ghost⟩
  have length : counted.resyncBlock.length = 5 + 4 * sizes.channels := by
    rw [← sound.channels]
    exact resyncBlock_length (w := counted) (by
      show w.channels ≤ 255
      rw [sound.channels]
      omega)
  have one : (([.control counted.resyncBlock] : List Item).flatMap Item.bytes).length =
      5 + 4 * sizes.channels := by
    rw [List.flatMap_singleton]
    exact length
  obtain ⟨carried, next, whole⟩ := counting.append (internalResync_appends counted)
    (.inr ⟨_, rfl, List.cons_ne_nil _ _, by omega⟩) (by
      rw [one]
      show w.stream.size.toNat + _ < w.stream.capacity_.toNat
      rw [sound.capacity]
      exact room)
  rw [whole (.inl slot)] at next
  obtain ⟨rest, split, final⟩ := next.reads only
  have bytes : ∀ item ∈ queue ++ [.control counted.resyncBlock], item.bytes ≠ [] := by
    obtain ⟨marks, holds, -⟩ := next.ghost
    exact holds.item_some
  have front : rest = [.control counted.resyncBlock] := by
    obtain ⟨marks, holds, -⟩ := carries.ghost
    apply taken_all bytes split
    rw [← takenBytes_eq, ← holds.size]
    exact all
  rw [front] at final
  exact final.block buf (length.le.trans large) stale

end Carries

/-! ### Taking the block -/

section Taken

variable {c capacity : Nat} {r : Reader} {call next : Call}

/-- What earlier calls leave alone. -/
theorem Served.size (served : Served c capacity r) :
    r.channels = UInt8.ofNat c ∧ r.block.capacity = capacity := by
  obtain ⟨scratchBuf, dodBuf, ccs, calls, rfl⟩ := served
  refine EventMachine.run_invariant Reader.serve
    (fun r : Reader => r.channels = UInt8.ofNat c ∧ r.block.capacity = capacity)
    (fun r call same => ?_) ⟨if_pos rfl, rfl⟩ calls
  have kept := decode_size r call.1
  rw [Reader.serve]
  split
  · rw [decodeAndGet_state]
    exact ⟨kept.1.trans same.1, kept.2.trans same.2⟩
  · exact ⟨kept.1.trans same.1, kept.2.trans same.2⟩

/-- The restart from the scratch array, as far as the block has room. -/
theorem begin_states (synced : r.inSync = true) (waiting : r.state = .sample) (call : Call) :
    (r.begin_ call).1.ccs =
      r.syncStates call.beyond (min r.channels.toNat r.block.capacity) := by
  rw [Reader.begin_, if_pos ⟨synced, waiting⟩]
  rcases Nat.eq_zero_or_pos r.block.capacity with zero | positive
  · rw [syncUpdate_zero _ zero, zero, Nat.min_zero]
    rfl
  · rcases Nat.lt_or_ge r.block.capacity r.channels.toNat with full | room
    · rw [syncUpdate_throws _ positive full, Nat.min_eq_right (Nat.le_of_lt full)]
      rfl
    · rw [syncUpdate_room _ positive room, Nat.min_eq_left room]
      rfl

/-- **14 channels at most, and room for one row**: the block is taken. -/
theorem taken {w : Writer} (positive : 1 ≤ c) (few : c ≤ 14) (room : c ≤ capacity)
    (channels : w.channels = c) (served : Served c capacity r) {result : ReadResult}
    (type : result.type = .control)
    (bytes : segment result.buf 0 result.returned.toNat = w.resyncBlock) (beyond : Nat → UInt8)
    (next : Call) : Taken c w.sampleCounter w.ccs result beyond r next := by
  obtain ⟨count, size⟩ := served.size
  have countNat : r.channels.toNat = c := by
    rw [count, UInt8.toNat_ofNat']
    omega
  set call := result.call beyond with callDef
  have blockPositive : 0 < r.block.capacity := by omega
  have begun := begin_room blockPositive (by rw [countNat, size]; exact room) call
  have control : call.type = .control := type
  have carried : call.bytes = w.resyncBlock := bytes
  have wellFormed_ := resyncs_resyncBlock (by omega) (countNat.trans channels.symm) control carried
  have decoded := decode_resync wellFormed_ begun
  have frame := begin_frame r call
  set s := (r.begin_ call).1.stashed call with sDef
  have countNext : s.channels.toNat = c := (congrArg UInt8.toNat frame.channels).trans countNat
  have capacityNext : s.block.capacity = capacity := frame.capacity.trans size
  have restarted := syncUpdate_room (r := s) next.beyond (by omega) (by omega)
  have begins : s.begin_ next = s.syncUpdate next.beyond := if_pos ⟨rfl, rfl⟩
  have answered : .returned .ok ∈ (r.decode call).2 := by
    have some_ : call.bytes ≠ [] := resyncs_some wellFormed_
    have fits : wellFormed (r.begin_ call).1.channels call.bytes.length = true := by
      rw [frame.channels]
      exact (resyncs_iff.mp wellFormed_).2.2
    have head : call.bytes.head? = some resyncDod := by
      rw [carried]
      rfl
    rw [decode_of_begun some_ begun, Reader.decodeBody, control]
    apply List.mem_append_right
    simp only [Reader.decodeControl, head, if_true, Reader.decodeResyncDod, fits]
    exact List.mem_singleton_self _
  refine ⟨type, answered, ?_, ?_, ?_⟩
  · rw [decoded, begins, restarted]
  · rw [decoded, begins, restarted]
    exact scratchCounter_resyncBlock _ bytes
  · intro i inside
    rw [decoded, begin_states rfl rfl, syncStates_of_lt _ _ (by omega)]
    exact scratchState_resyncBlock (by omega) _ bytes _ (by omega)

end Taken

/-! ### Blocks that are not taken -/

section NotTaken

variable {c capacity : Nat}

/-- The first block of a writer, read at once: as much of it as its mark says. -/
theorem readNext_first {w : Writer} (valid : w.stream.Valid) (validMarks : w.marks.Valid)
    (empty : w.stream.contents = []) (noMarks : w.marks.contents = [])
    (room : w.resyncBlock.length < w.stream.capacity_.toNat)
    (slot : 1 < w.marks.capacity_.toNat) (buf : Nat → UInt8) {size : Nat}
    (large : w.resyncBlock.length ≤ size) (stale : UInt16) :
    let result := w.internalResync.readNext buf size stale
    result.type = .control ∧ segment result.buf 0 result.returned.toNat =
      w.resyncBlock.take (w.resyncBlock.length % 256) := by
  intro result
  have count := resyncBlock_count w
  have noBytes := RingFast.size_eq_zero empty
  obtain ⟨validNext, contents, tail, capacity⟩ :=
    RingFast.pushAll_spec valid
      (show w.stream.size.toNat + w.resyncBlock.length < w.stream.capacity_.toNat by omega)
  have sizeNext : (w.stream.pushAll w.resyncBlock).size.toNat = w.resyncBlock.length := by
    rw [← RingFast.contents_length, contents, empty]
    rfl
  have peeked : w.internalResync.marks.peek =
      some ⟨w.stream.head, UInt8.ofNat w.resyncBlock.length⟩ := by
    rw [internalResync_eq]
    exact RingFast.peek_push_first validMarks noMarks slot _
  have stream : w.internalResync.stream = w.stream.pushAll w.resyncBlock := by
    rw [internalResync_eq]
  have plan := planned_control (w := w.internalResync) (by rw [stream]; exact validNext)
    (by rw [stream, sizeNext]; omega) peeked (by
      rw [stream, tail]
      exact (RingFast.empty_iff valid).mpr noBytes) stale
  set planned := (UInt8.ofNat w.resyncBlock.length).toUInt16 with plannedDef
  have plannedNat : planned.toNat = w.resyncBlock.length % 256 := by
    rw [plannedDef, UInt8.toNat_toUInt16, UInt8.toNat_ofNat']
  have some_ : ¬ planned = 0 := fun zero => by
    rw [zero] at plannedNat
    have zeroNat : (0 : UInt16).toNat = 0 := rfl
    omega
  have short := Nat.mod_le w.resyncBlock.length 256
  obtain ⟨out, reserved, splits⟩ :=
    RingFast.readReserve_eq (r := w.stream.pushAll w.resyncBlock) validNext (by omega)
  obtain ⟨-, chunk⟩ := copyRegions_spec validNext splits
    (show planned.toNat ≤ (w.stream.pushAll w.resyncBlock).size.toNat by omega) buf
  have read : w.internalResync.readNext buf size stale =
      w.internalResync.commitRead .control planned out buf := by
    simp only [Writer.readNext, plan, stream, reserved]
    rw [if_neg fun both => both.2.elim (by omega) some_, if_neg (by omega)]
  rw [show result = w.internalResync.commitRead .control planned out buf from read]
  refine ⟨rfl, ?_⟩
  rw [Writer.commitRead, stream]
  show segment _ 0 planned.toNat = _
  rw [chunk, contents, empty, List.nil_append, plannedNat]

/-- A chunk that an unsynced reader answers with `OK`, and that begins as a resync block, is one. -/
theorem resyncs_of_accepted {r : Reader} {call : Call} (unsynced : r.inSync = false)
    (control : call.type = .control) (head : call.bytes.head? = some resyncDod)
    (accepted : .returned .ok ∈ (r.decode call).2) : resyncs r.channels call = true := by
  have begun := begin_of_unsynced unsynced call
  have some_ : call.bytes ≠ [] := by
    intro empty
    rw [empty] at head
    exact absurd head (by decide)
  rw [decode_of_begun some_ (by rw [begun]), begun, List.nil_append, Reader.decodeBody,
    control] at accepted
  by_contra rejected
  have ill : ¬ wellFormed r.channels call.bytes.length = true := fun wellFormed_ =>
    rejected (by simp [resyncs, control, head, wellFormed_])
  simp only [Reader.decodeControl, head, if_true, Reader.decodeResyncDod, if_neg ill,
    List.mem_singleton] at accepted
  exact absurd accepted (by decide)

/-- A stream ring with room for every block, and one slot for a mark. -/
def roomy (positive : 1 ≤ c) : Sizes where
  channels := c
  positive := positive
  streamSize := 2048
  streamPower := ⟨11, by decide, rfl⟩
  markSize := 2
  markPower := ⟨1, by decide, rfl⟩

/-- A reader with ones in its memories. -/
def onesReader (c capacity : Nat) : Reader :=
  .new (fun _ => 1) (fun _ => 0) (fun _ => ⟨1, 1⟩) c c capacity

/-- The sixteenth channel state is behind the scratch array. -/
theorem scratchState_ones (r : Reader) : r.scratchState (fun _ => 1) 15 = ⟨257, 257⟩ := by
  have ones : ∀ index, scratchSize ≤ index % 256 → r.scratchAt (fun _ => 1) index = 1 :=
    fun index behind => if_neg (Nat.not_lt.mpr behind)
  rw [Reader.scratchState]
  simp only [ones _ (show scratchSize ≤ (4 + 4 * 15) % 256 by decide),
    ones _ (show scratchSize ≤ (5 + 4 * 15) % 256 by decide),
    ones _ (show scratchSize ≤ (6 + 4 * 15) % 256 by decide),
    ones _ (show scratchSize ≤ (7 + 4 * 15) % 256 by decide)]
  rfl

/-- The writer of these rings, with the counter and the channel states zero. -/
def firstWriter (positive : 1 ≤ c) : Writer :=
  { (roomy positive).writer zeroed with ccs := fun _ => ⟨0, 0⟩, sampleCounter := 0 }

theorem firstWriter_length (positive : 1 ≤ c) :
    (firstWriter positive).resyncBlock.length = 5 + 4 * (c % 256) := by
  rw [resyncBlock_count]
  show 5 + 4 * (UInt8.ofNat c).toNat = _
  rw [UInt8.toNat_ofNat']

/-- Its first block, as it is read. -/
theorem firstWriter_read (positive : 1 ≤ c) :
    let result := (firstWriter positive).internalResync.readNext (fun _ => 0) (5 + 4 * c) 0
    result.type = .control ∧ segment result.buf 0 result.returned.toNat =
      (firstWriter positive).resyncBlock.take ((5 + 4 * (c % 256)) % 256) := by
  have length := firstWriter_length positive
  have ring : (firstWriter positive).stream.capacity_.toNat = 2048 := rfl
  have read := readNext_first (w := firstWriter positive)
    (RingFast.new_valid zeroed.streamBuf (roomy positive).streamPower)
    (RingFast.new_valid zeroed.markBuf (roomy positive).markPower)
    (RingFast.new_contents zeroed.streamBuf 2048) (RingFast.new_contents zeroed.markBuf 2)
    (by omega) (show 1 < (2 : UInt16).toNat by decide) (fun _ => 0)
    (show _ ≤ 5 + 4 * c by omega) 0
  rwa [length] at read

/-- **The first block is not taken** with more channels, or without room for one row: it is refused,
or some channel state is left as it was, or is read behind the scratch array. -/
theorem not_taken (positive : 1 ≤ c) (more : ¬ (c ≤ 14 ∧ c ≤ capacity)) :
    ¬ Agrees c capacity := by
  intro agrees
  have unread : (firstWriter positive).stream.size.toNat = 0 :=
    RingFast.size_eq_zero (RingFast.new_contents zeroed.streamBuf 2048)
  have noneMarked : (firstWriter positive).marks.size.toNat = 0 :=
    RingFast.size_eq_zero (RingFast.new_contents zeroed.markBuf 2)
  have taken := agrees (roomy positive) zeroed [] (fun _ => ⟨0, 0⟩) 0 [] (fun _ => 0) (5 + 4 * c) 0
    (fun _ => 1) (onesReader c capacity) ⟨[0], .sample, 0, fun _ => 1⟩ rfl
    (by show (firstWriter positive).stream.size.toNat + _ < 2048; omega)
    (by show (firstWriter positive).marks.size.toNat + 1 < 2; omega)
    (fun _ member => absurd member List.not_mem_nil) unread.symm le_rfl
    ⟨_, _, _, [], rfl⟩ (List.cons_ne_nil _ _)
  obtain ⟨type, bytes⟩ := firstWriter_read positive
  set call := ((firstWriter positive).internalResync.readNext (fun _ => 0) (5 + 4 * c) 0).call
    fun _ => 1 with callDef
  have accepted : .returned .ok ∈ ((onesReader c capacity).decode call).2 := taken.accepted
  have states : ∀ i < c, (((onesReader c capacity).decode call).1.begin_
      ⟨[0], .sample, 0, fun _ => 1⟩).1.ccs i = ⟨0, 0⟩ := taken.states
  have callBytes : call.bytes =
      (firstWriter positive).resyncBlock.take ((5 + 4 * (c % 256)) % 256) := bytes
  have head : call.bytes.head? = some resyncDod := by
    obtain ⟨count, some_⟩ := Nat.exists_eq_succ_of_ne_zero
      (show (5 + 4 * (c % 256)) % 256 ≠ 0 by omega)
    rw [callBytes, some_]
    rfl
  have channels : (onesReader c capacity).channels.toNat = c % 256 := by
    show (if c = c then UInt8.ofNat c else 0).toNat = _
    rw [if_pos rfl, UInt8.toNat_ofNat']
  have wellFormed_ := resyncs_of_accepted (r := onesReader c capacity) rfl type head accepted
  have begun := begin_of_unsynced (r := onesReader c capacity) rfl call
  rw [decode_resync wellFormed_ (by rw [begun]), begun, begin_states rfl rfl] at states
  have small : call.bytes.length ≤ 64 := by
    simp only [resyncs, wellFormed, Bool.and_eq_true, decide_eq_true_eq] at wellFormed_
    exact wellFormed_.2.2
  have chunkLength : call.bytes.length = (5 + 4 * (c % 256)) % 256 := by
    rw [callBytes, List.length_take, firstWriter_length positive]
    omega
  rcases Nat.lt_or_ge (min (c % 256) capacity) c with left | all
  · -- a channel state that is left as it was
    have untouched := states _ left
    rw [syncStates_of_le _ _ (by
      show min (onesReader c capacity).channels.toNat capacity ≤ _
      rw [channels])] at untouched
    have kept : (⟨1, 1⟩ : ChannelState) = ⟨0, 0⟩ := untouched
    exact absurd kept (by decide)
  · -- the sixteenth state is read behind the scratch array
    have many : 15 < c := by omega
    have beyond := states 15 many
    rw [syncStates_of_lt _ _ (by
      show 15 < min (onesReader c capacity).channels.toNat capacity
      rw [channels]
      omega)] at beyond
    rw [scratchState_ones] at beyond
    exact absurd beyond (by decide)

end NotTaken

/-! ### The condition -/

/-- **When writer and reader agree on the resync block**: for every channel count of at least one and
every capacity of the sample block, in every reachable state of both, exactly with 14 channels at
most and room for one row. -/
theorem agrees_iff {c capacity : Nat} (positive : 1 ≤ c) :
    Agrees c capacity ↔ c ≤ 14 ∧ c ≤ capacity := by
  constructor
  · intro agrees
    by_contra more
    exact not_taken positive more agrees
  · intro ⟨few, room⟩ sizes memories uses ccs counter reads buf size stale beyond r next w before
      channels free slot only all large served _
    obtain ⟨sound, queue, carries⟩ :=
      run_carries (show sizes.channels ≤ 15 by omega) memories uses
    have block : 5 + 4 * (c % 256) = 5 + 4 * sizes.channels := by omega
    rw [block] at free
    have largeEnough : 5 + 4 * sizes.channels ≤ size := by omega
    obtain ⟨type, bytes⟩ := delivered (by omega) sound carries ccs counter free slot only buf
      largeEnough stale all
    exact taken (w := { w with ccs := ccs, sampleCounter := counter }) positive few room
      (sound.channels.trans channels) served type bytes beyond next

/-- Fourteen channels, and room for one row of them. -/
theorem agrees_iff_fourteen : Agrees 14 14 := (agrees_iff (by decide)).mpr (by decide)

/-- **A block that is refused**: with 15 channels it has 65 bytes, one more than the scratch array. -/
theorem not_agrees : ¬ ∀ c capacity : Nat, 1 ≤ c → c ≤ capacity → Agrees c capacity := by
  intro all
  exact not_taken (by decide) (show ¬ (15 ≤ 14 ∧ 15 ≤ 15) by decide)
    (all 15 15 (by decide) (by decide))

end ForgeDrive.Daq
