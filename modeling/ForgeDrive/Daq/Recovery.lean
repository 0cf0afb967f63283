/-
**The writer recovers from backpressure.**

`pushSample` sets the flag where a row finds too little room, and refuses every row until a read has
emptied the stream ring. That read is always possible (`Recoverable`):

* a flagged writer has something to read, whatever is flushed meanwhile;
* a read with room for a control block takes something, as long as there is something;
* with the ring empty the flag is clear, and a row is accepted;
* the first row behind the pressure begins a block, for `samples_till_sync` stays zero while rows
  are refused (`Refuses`).
-/

import ForgeDrive.Daq.MarkRing

namespace ForgeDrive.Daq

open EventMachine (run Along)
open El (RingFast)

/-! ### The property -/

/-- `flags & BACKPRESSURE`. -/
def Writer.pressed (w : Writer) : Prop := w.flags &&& backpressure ≠ 0

/-- **The next row is exactly one resync block**, with its mark, on rings that were empty. -/
def ResyncsNext (sizes : Sizes) (w : Writer) : Prop :=
  ∀ (counter : UInt32) (row : Nat → Int16), ∃ block : List UInt8,
    block.head? = some resyncDod ∧ block.length = 4 * sizes.channels + 5 ∧
      (w.use (.push counter row)).2 = [.pushed [.control block]] ∧
      (w.use (.push counter row)).1.stream.contents = block ∧
      (w.use (.push counter row)).1.marks.contents =
        [⟨w.stream.head, UInt8.ofNat block.length⟩]

/-- A call that is no row, or a row that is refused. -/
def Refuses (w : Writer) : Use → Prop
  | .push counter row => ((w.counting counter).pushSample row).2 = false
  | .flush => True
  | .read _ _ _ => True

/-- **Backpressure is recoverable.** -/
structure Recoverable (sizes : Sizes) (w : Writer) : Prop where
  unread : w.pressed → w.stream.size ≠ 0
  reads : w.stream.size ≠ 0 → ∀ (buf : Nat → UInt8) (size : Nat) (stale : UInt16),
    4 * sizes.channels + 5 ≤ size → 0 < (w.readNext buf size stale).returned
  emptied : w.stream.size = 0 → ¬ w.pressed ∧
    ∀ (counter : UInt32) (row : Nat → Int16), ((w.counting counter).pushSample row).2 = true
  resyncs : w.pressed → ∀ later : List Use, Along Writer.use Refuses w later →
    (run Writer.use w later).1.stream.size = 0 → ResyncsNext sizes (run Writer.use w later).1

/-! ### Flags -/

section Flags

variable (w : Writer) (row : Nat → Int16)

/-- Only the tests at the beginning change the flags. -/
theorem pushSample_flags : (w.pushSample row).1.flags = w.admission.1.flags := by
  rw [Writer.pushSample, encodeRow_encoded]
  cases w.startsBlock <;> cases w.writesRow <;> rfl

/-- A row that is refused moves the channel states only, apart from what the tests do. -/
theorem pushSample_refused (refused : w.admission.2 = false) : (w.pushSample row).1 =
    { w.encodedRow row with
      flags := w.admission.1.flags
      samplesTillSync := w.admission.1.samplesTillSync } := by
  have starts : w.startsBlock = false := by rw [Writer.startsBlock, refused, Bool.false_and]
  have writes : w.writesRow = false := by rw [Writer.writesRow, refused, Bool.false_and]
  rw [Writer.pushSample, encodeRow_encoded, starts, writes]
  rfl

/-- A FLUSH leaves the flag, and sets the count to zero. -/
theorem flush_pressed (pressed : w.flush.1.pressed) :
    w.pressed ∧ ((w.pressed → w.samplesTillSync = 0) → w.flush.1.samplesTillSync = 0) := by
  revert pressed
  rw [Writer.flush]
  split
  · exact fun pressed => ⟨pressed, fun till => till pressed⟩
  · exact fun pressed => ⟨pressed, fun _ => rfl⟩

theorem cleared (flags : UInt8) : flags &&& ~~~backpressure &&& backpressure = 0 := by
  rw [UInt8.and_assoc]
  exact UInt8.and_zero

end Flags

/-! ### The invariant -/

/-- **The invariant of a run**: under pressure there is something to read, and the next row that is
accepted begins a block. -/
structure Pressed (sizes : Sizes) (w : Writer) (past : List Traffic) : Prop extends
    Queued sizes w past where
  blocks : ∀ bytes, .control bytes ∈ pushedItems past → bytes.length ≤ 4 * sizes.channels + 5
  till : w.pressed → w.samplesTillSync = 0
  unread : w.pressed → w.stream.size ≠ 0

section Pressed

variable {sizes : Sizes} {w : Writer} {past : List Traffic}

theorem pressed_start (slots : sizes.streamSize.toNat ≤ sizes.markSize.toNat)
    (memories : Memories) : Pressed sizes (sizes.writer memories) [] :=
  ⟨queued_start slots memories, fun _ member => absurd member List.not_mem_nil,
    fun pressed => absurd UInt8.zero_and pressed, fun pressed => absurd UInt8.zero_and pressed⟩

/-- A call pushes blocks of the size of a resync block at most. -/
theorem Sound.block_length (sound : Sound sizes w) (few : sizes.channels ≤ 15) (use : Use)
    {bytes : List UInt8} (member : .control bytes ∈ w.pushes use) :
    bytes.length ≤ 4 * sizes.channels + 5 := by
  cases use with
  | read buf size stale => exact absurd member List.not_mem_nil
  | flush =>
    rw [show w.pushes .flush = w.flushItems from rfl, Writer.flushItems] at member
    split at member
    · exact absurd member List.not_mem_nil
    · rw [Item.control.inj (List.mem_singleton.mp member)]
      exact Nat.le_add_left 1 _
  | push counter row =>
    rw [show w.pushes (.push counter row) = (w.counting counter).rowItems row from rfl,
      Writer.rowItems] at member
    have channels := sound.channels
    split at member
    · have length := resyncBlock_length (w := (w.counting counter).encodedRow row)
        (show w.channels ≤ 255 by omega)
      rw [Item.control.inj (List.mem_singleton.mp member), length]
      show 5 + 4 * w.channels ≤ _
      omega
    · split at member
      · obtain ⟨byte, -, other⟩ := List.mem_map.mp member
        exact Item.noConfusion other
      · exact absurd member List.not_mem_nil

/-- What is pushed behind something unread leaves something unread. -/
theorem Sound.unread (sound : Sound sizes w) (few : sizes.channels ≤ 15) (use : Use)
    {result : Writer} (appends : Appends w (w.pushes use) result) (some_ : w.stream.size ≠ 0) :
    result.stream.size ≠ 0 := by
  have positive := sizes.positive
  have safe := (sound.safe_iff use).mp (sound.safe (.inr (by omega)) use)
  rw [← sound.capacity] at safe
  obtain ⟨-, contents, -, -⟩ := RingFast.pushAll_spec sound.valid safe
  rw [← appends.stream] at contents
  intro zero
  have lengths := congrArg List.length contents
  rw [List.length_append, RingFast.contents_length, RingFast.contents_length, zero] at lengths
  have zeroNat : (0 : UInt16).toNat = 0 := rfl
  exact some_ (UInt16.toNat_inj.mp (by omega))

/-- A row that finds too little room finds something unread. -/
theorem Sound.refused_unread (sound : Sound sizes w) (few : sizes.channels ≤ 15)
    (large : 16 * sizes.channels < sizes.streamSize.toNat - 1)
    (room : w.stream.free ≤ w.reserve.toUInt16) : w.stream.size ≠ 0 := by
  intro zero
  have free := sound.free
  have reserve := sound.reserve
  have le := UInt16.le_iff_toNat_le.mp room
  have zeroNat : (0 : UInt16).toNat = 0 := rfl
  rw [UInt8.toNat_toUInt16, reserve, free, zero] at le
  omega

/-- With an empty ring, and the flag clear, a row is accepted. -/
theorem Sound.accepts (sound : Sound sizes w) (few : sizes.channels ≤ 15)
    (large : 16 * sizes.channels < sizes.streamSize.toNat - 1) (clear : ¬ w.pressed)
    (empty : w.stream.size = 0) : w.admission = (w, true) := by
  rcases admission_cases w with ⟨pressed, -⟩ | ⟨-, room, -⟩ | ⟨-, -, accepted⟩
  · exact absurd pressed clear
  · exact absurd empty (sound.refused_unread few large room)
  · exact accepted

/-- The flag and the count behind a row. -/
theorem Sound.pushSample_pressed (sound : Sound sizes w) (few : sizes.channels ≤ 15)
    (large : 16 * sizes.channels < sizes.streamSize.toNat - 1) (row : Nat → Int16)
    (till : w.pressed → w.samplesTillSync = 0) (unread : w.pressed → w.stream.size ≠ 0)
    (pressed : (w.pushSample row).1.pressed) :
    (w.pushSample row).1.samplesTillSync = 0 ∧ w.stream.size ≠ 0 := by
  rw [Writer.pressed, pushSample_flags] at pressed
  rcases admission_cases w with ⟨before, refused⟩ | ⟨-, room, refused⟩ | ⟨clear, -, accepted⟩
  · rw [pushSample_refused w row (congrArg Prod.snd refused), refused]
    exact ⟨till before, unread before⟩
  · rw [pushSample_refused w row (congrArg Prod.snd refused), refused]
    exact ⟨rfl, sound.refused_unread few large room⟩
  · rw [accepted] at pressed
    exact absurd clear pressed

theorem commitRead_pressed (w : Writer) (type : StreamType) (count : UInt16) (out : Fd.Regions)
    (buf : Nat → UInt8) (pressed : (w.commitRead type count out buf).writer.pressed) :
    w.pressed ∧ (w.commitRead type count out buf).writer.stream.size ≠ 0 := by
  by_cases empty : (w.commitRead type count out buf).writer.stream.size = 0
  · have flags : (w.commitRead type count out buf).writer.flags =
        w.flags &&& ~~~backpressure := if_pos empty
    rw [Writer.pressed, flags] at pressed
    exact absurd (cleared w.flags) pressed
  · have flags : (w.commitRead type count out buf).writer.flags = w.flags := if_neg empty
    rw [Writer.pressed, flags] at pressed
    exact ⟨pressed, empty⟩

/-- A read that leaves the flag set leaves the count, and something unread. -/
theorem readNext_pressed (w : Writer) (buf : Nat → UInt8) (size : Nat) (stale : UInt16)
    (unread : w.pressed → w.stream.size ≠ 0)
    (pressed : (w.readNext buf size stale).writer.pressed) :
    (w.pressed ∧ (w.readNext buf size stale).writer.samplesTillSync = w.samplesTillSync) ∧
      (w.readNext buf size stale).writer.stream.size ≠ 0 := by
  rcases readNext_cases w buf size stale with same | ⟨count, out, read⟩
  · rw [same] at pressed ⊢
    exact ⟨⟨pressed, rfl⟩, unread pressed⟩
  · rw [read] at pressed ⊢
    obtain ⟨before, some_⟩ := commitRead_pressed w _ count out buf pressed
    exact ⟨⟨before, rfl⟩, some_⟩

theorem Pressed.push_blocks (before : Pressed sizes w past) (few : sizes.channels ≤ 15)
    (use : Use) (bytes : List UInt8)
    (member : .control bytes ∈ pushedItems (past ++ [.pushed (w.pushes use)])) :
    bytes.length ≤ 4 * sizes.channels + 5 := by
  rw [pushedItems_append] at member
  rcases List.mem_append.mp member with old | new
  · exact before.blocks bytes old
  · have inside : .control bytes ∈ w.pushes use ++ [] := new
    rw [List.append_nil] at inside
    exact before.toSound.block_length few use inside

theorem Pressed.use (before : Pressed sizes w past) (few : sizes.channels ≤ 15)
    (large : 16 * sizes.channels < sizes.streamSize.toNat - 1) (use : Use) :
    Pressed sizes (w.use use).1 (past ++ (w.use use).2) := by
  have queued := before.toQueued.use few use
  cases use with
  | flush =>
    have after := flush_pressed w
    refine ⟨queued, before.push_blocks few .flush, fun pressed => ?_, fun pressed => ?_⟩
    · exact (after pressed).2 before.till
    · exact before.toSound.unread few .flush (flush_appends w) (before.unread (after pressed).1)
  | push counter row =>
    have sound := before.toSound.counting counter
    have after := sound.pushSample_pressed few large row before.till before.unread
    refine ⟨queued, before.push_blocks few (.push counter row), fun pressed => ?_,
      fun pressed => ?_⟩
    · exact (after pressed).1
    · exact sound.unread few (.push counter row)
        (pushSample_appends (w.counting counter) row) (after pressed).2
  | read buf size stale =>
    have after := readNext_pressed w buf size stale before.unread
    refine ⟨queued, ?_, fun pressed => ?_, fun pressed => (after pressed).2⟩
    · rw [pushedItems_read]
      exact before.blocks
    · obtain ⟨⟨was, same⟩, -⟩ := after pressed
      exact same.trans (before.till was)

/-- **The invariant along a run.** -/
theorem run_pressed (few : sizes.channels ≤ 15)
    (large : 16 * sizes.channels < sizes.streamSize.toNat - 1)
    (slots : sizes.streamSize.toNat ≤ sizes.markSize.toNat) (memories : Memories)
    (uses : List Use) :
    Pressed sizes (run Writer.use (sizes.writer memories) uses).1
      (run Writer.use (sizes.writer memories) uses).2 :=
  EventMachine.run_history_always Writer.use (Pressed sizes)
    (fun _ use _ pressed => pressed.use few large use) (pressed_start slots memories) uses

/-! ### What the invariant gives -/

/-- A read with room for a block takes something, if there is something. -/
theorem Pressed.reads (pressed : Pressed sizes w past) (some_ : w.stream.size ≠ 0)
    (buf : Nat → UInt8) {size : Nat} (room : 4 * sizes.channels + 5 ≤ size) (stale : UInt16) :
    0 < (w.readNext buf size stale).returned := by
  obtain ⟨rest, holds, split⟩ := pressed.queue
  have fits : ∀ bytes, .control bytes ∈ rest → bytes.length ≤ size := by
    intro bytes member
    refine (pressed.blocks bytes ?_).trans room
    rw [split]
    exact List.mem_append_right _ member
  have positive : ∀ {count : UInt16}, count ≠ 0 → 0 < count := fun other =>
    UInt16.pos_iff_ne_zero.mpr other
  rcases readNext_spec holds (by omega) fits buf stale with ⟨empty, _, _⟩ |
    ⟨_, _, _, returned, _, _, _⟩ | ⟨_, _, _, returned, _, _, _⟩
  · have size := holds.size
    rw [empty] at size
    exact absurd (UInt16.toNat_inj.mp size) some_
  · exact positive returned
  · exact positive returned

/-- While rows are refused, the count stays zero. -/
theorem Refuses.till {use : Use} (refuses : Refuses w use) (till : w.samplesTillSync = 0) :
    (w.use use).1.samplesTillSync = 0 := by
  cases use with
  | flush =>
    show w.flush.1.samplesTillSync = 0
    rw [Writer.flush]
    split
    · exact till
    · rfl
  | read buf size stale =>
    show (w.readNext buf size stale).writer.samplesTillSync = 0
    rcases readNext_cases w buf size stale with same | ⟨count, out, read⟩
    · rw [same]
      exact till
    · rw [read]
      exact till
  | push counter row =>
    show ((w.counting counter).pushSample row).1.samplesTillSync = 0
    rw [pushSample_refused (w.counting counter) row refuses]
    rcases admission_cases (w.counting counter) with ⟨-, same⟩ | ⟨-, -, same⟩ | ⟨-, -, same⟩
    · rw [same]
      exact till
    · rw [same]
    · rw [same]
      exact till

theorem run_till {uses : List Use} (refused : Along Writer.use Refuses w uses)
    (till : w.samplesTillSync = 0) : (run Writer.use w uses).1.samplesTillSync = 0 := by
  induction uses generalizing w with
  | nil => exact till
  | cons use rest ih => exact ih refused.2 (refused.1.till till)

/-- With an empty ring and the count zero, the next row is a resync block. -/
theorem Pressed.resyncs (pressed : Pressed sizes w past) (few : sizes.channels ≤ 15)
    (large : 16 * sizes.channels < sizes.streamSize.toNat - 1) (empty : w.stream.size = 0)
    (till : w.samplesTillSync = 0) : ResyncsNext sizes w := by
  intro counter row
  have clear : ¬ w.pressed := fun flag => pressed.unread flag empty
  have sound := pressed.toSound.counting counter
  have accepted := sound.accepts few large clear empty
  have starts : (w.counting counter).startsBlock = true := by
    rw [Writer.startsBlock, accepted]
    exact decide_eq_true till
  have items := rowItems_starts (w.counting counter) row starts
  have appends := pushSample_appends (w.counting counter) row
  have channels := sound.channels
  have length := resyncBlock_length (w := (w.counting counter).encodedRow row)
    (show (w.counting counter).channels ≤ 255 by omega)
  rw [show ((w.counting counter).encodedRow row).channels = sizes.channels from channels]
    at length
  obtain ⟨rest, holds, -⟩ := pressed.queue
  have none_ : w.stream.size.toNat = 0 := congrArg UInt16.toNat empty
  have room : w.stream.size.toNat + (5 + 4 * sizes.channels) < w.stream.capacity_.toNat := by
    rw [pressed.toSound.capacity]
    have positive := sizes.positive
    omega
  have noStream : w.stream.contents = [] :=
    List.length_eq_zero_iff.mp ((RingFast.contents_length w.stream).trans none_)
  have noRest : rest = [] := items_eq_nil holds.item_some (holds.size ▸ none_)
  have noMarks : w.marks.contents = [] := by
    rw [holds.markContents, noRest]
    rfl
  have slot : w.marks.size.toNat + 1 < w.marks.capacity_.toNat := by
    have slots_ := holds.slots
    rw [RingFast.size_eq_zero noMarks]
    omega
  refine ⟨((w.counting counter).encodedRow row).resyncBlock, rfl, by omega, ?_, ?_, ?_⟩
  · exact congrArg (fun pushed => [Traffic.pushed pushed]) items
  · obtain ⟨-, contents, -, -⟩ := RingFast.pushAll_spec holds.valid
      (show w.stream.size.toNat + ((w.counting counter).encodedRow row).resyncBlock.length <
        w.stream.capacity_.toNat by rw [length]; exact room)
    have stream := appends.stream
    rw [items, List.flatMap_singleton] at stream
    rw [show (w.use (.push counter row)).1.stream =
      w.stream.pushAll ((w.counting counter).encodedRow row).resyncBlock from stream, contents,
      noStream, List.nil_append]
  · have marks := appends.marks
    rw [items] at marks
    rw [show (w.use (.push counter row)).1.marks = (w.marks.push ⟨w.stream.head,
      UInt8.ofNat ((w.counting counter).encodedRow row).resyncBlock.length⟩).1 from marks,
      RingFast.push_eq holds.validMarks slot, RingFast.pushFast_contents holds.validMarks slot,
      noMarks, List.nil_append]

end Pressed

/-- **Backpressure is recoverable** in every state of every run, for 1 to 15 channels, every stream
ring with more room than the reserve, and at least as many slots for marks. -/
theorem run_recoverable {sizes : Sizes} (few : sizes.channels ≤ 15)
    (large : 16 * sizes.channels < sizes.streamSize.toNat - 1)
    (slots : sizes.streamSize.toNat ≤ sizes.markSize.toNat) (memories : Memories)
    (uses : List Use) : Recoverable sizes (run Writer.use (sizes.writer memories) uses).1 := by
  have pressed := run_pressed few large slots memories uses
  refine ⟨pressed.unread, fun some_ buf size stale room => pressed.reads some_ buf room stale,
    fun empty => ?_, fun flag later refused empty => ?_⟩
  · have clear : ¬ (run Writer.use (sizes.writer memories) uses).1.pressed :=
      fun flag => pressed.unread flag empty
    refine ⟨clear, fun counter row => ?_⟩
    have accepted := (pressed.toSound.counting counter).accepts few large clear empty
    show (Writer.admission _).2 = true
    rw [accepted]
  · have till := run_till refused (pressed.till flag)
    have whole := run_pressed few large slots memories (uses ++ later)
    rw [EventMachine.run_append] at whole
    exact whole.resyncs few large empty till

/-- One channel, and rings of 32: six FLUSHes and a row bring the pressure. -/
theorem run_recoverable_oneChannel :
    Recoverable oneChannelSizes
      (run Writer.use (oneChannelSizes.writer zeroed)
        [zeroRow, .flush, .flush, .flush, .flush, .flush, .flush, zeroRow]).1 :=
  run_recoverable (show oneChannelSizes.channels ≤ 15 by decide)
    (show 16 * oneChannelSizes.channels < oneChannelSizes.streamSize.toNat - 1 by decide)
    (by decide) zeroed _

/-- **An emptied ring without pressure**: the block has been read, and the next row is written as
residuals, for the sync period is not over. -/
theorem not_always_resyncs : ¬ ∀ (sizes : Sizes) (memories : Memories) (uses : List Use)
    (buf : Nat → UInt8) (size : Nat) (stale : UInt16), sizes.channels ≤ 15 →
    16 * sizes.channels < sizes.streamSize.toNat - 1 →
    sizes.streamSize.toNat ≤ sizes.markSize.toNat → 4 * sizes.channels + 5 ≤ size →
      let w := (run Writer.use (sizes.writer memories) uses).1
      let result := w.readNext buf size stale
      0 < result.returned → result.writer.stream.size = 0 →
        ResyncsNext sizes result.writer := by
  intro all
  have resyncs := all oneChannelSizes zeroed [zeroRow] (fun _ => 0) 9 0 (by decide) (by decide)
    (by decide) (by decide) (by decide) (by decide)
  obtain ⟨block, -, length, -, contents, -⟩ := resyncs 0 fun _ => 0
  have lengths := (congrArg List.length contents).trans length
  exact absurd lengths (by decide)

end ForgeDrive.Daq
