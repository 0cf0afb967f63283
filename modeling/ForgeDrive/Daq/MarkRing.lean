/-
**Control blocks and their marks.**

`internal_resync` and `flush` push a mark for the block that they push, and take no notice of
whether the mark ring had room for it. The marks are those of the unread control blocks exactly as
long as every block finds a slot (`marked_iff_slotted`); a block without its mark is read as sample
bytes.

The places of the blocks are counted from the beginning of the stream: without a reset, the byte at
an offset is at the remainder of the offset by the capacity of the ring (`Placed.tail_mod`).
-/

import ForgeDrive.Daq.Agreement

namespace ForgeDrive.Daq

open EventMachine (run Along)
open El (RingFast)

/-! ### The property -/

/-- The control blocks pushed and not yet read. -/
def unreadBlocks (past : List Traffic) : List (Nat × List UInt8) :=
  (blocksFrom 0 (pushedItems past)).filter fun block => (takenBytes past).length ≤ block.1

/-- **The mark ring holds the marks of the unread control blocks**, in order; and the chunks so far
are segments of the stream, of which those typed `Sample` hold no byte of a control block. -/
structure Marked (sizes : Sizes) (w : Writer) (past : List Traffic) : Prop extends
    Segmented past w where
  marks : w.marks.contents = (unreadBlocks past).map (blockMark sizes.streamSize.toNat)

/-- A call that pushes a control block finds a slot for its mark. -/
def Slotted (w : Writer) : Use → Prop
  | .push _ _ => w.startsBlock = true → w.marks.free ≠ 0
  | .flush => w.stream.free > controlReserve.toUInt16 → w.marks.free ≠ 0
  | .read _ _ _ => True

/-! ### The blocks of the stream -/

section Blocks

variable (start : Nat)

/-- A block is where its items begin, or behind. -/
theorem le_of_mem_blocksFrom {items : List Item} {block : Nat × List UInt8}
    (member : block ∈ blocksFrom start items) : start ≤ block.1 := by
  induction items generalizing start with
  | nil => exact absurd member List.not_mem_nil
  | cons item rest ih =>
    cases item with
    | sample byte => exact Nat.le_of_succ_le (ih (start + 1) member)
    | control bytes =>
      rcases List.mem_cons.mp member with rfl | later
      · exact le_rfl
      · exact Nat.le_of_add_right_le (ih (start + bytes.length) later)

/-- A block that is not empty begins before its items end. -/
theorem lt_of_mem_blocksFrom {items : List Item} {block : Nat × List UInt8}
    (some_ : ∀ bytes, .control bytes ∈ items → bytes ≠ [])
    (member : block ∈ blocksFrom start items) :
    block.1 < start + (items.flatMap Item.bytes).length := by
  induction items generalizing start with
  | nil => exact absurd member List.not_mem_nil
  | cons item rest ih =>
    have later := fun bytes inside => some_ bytes (List.mem_cons_of_mem _ inside)
    rw [List.flatMap_cons, List.length_append, ← Nat.add_assoc]
    cases item with
    | sample byte => exact ih (start + 1) later member
    | control bytes =>
      rcases List.mem_cons.mp member with rfl | behind
      · have positive := List.length_pos_iff.mpr (some_ bytes List.mem_cons_self)
        show start < start + bytes.length + _
        omega
      · exact ih (start + bytes.length) later behind

/-- **The unread blocks** are those behind the chunks. -/
theorem unreadBlocks_eq {past : List Traffic} {rest : List Item}
    (split : pushedItems past = takenItems past ++ rest)
    (some_ : ∀ bytes, .control bytes ∈ pushedItems past → bytes ≠ []) :
    unreadBlocks past = blocksFrom (takenBytes past).length rest := by
  rw [split] at some_
  rw [unreadBlocks, split, blocksFrom_append, Nat.zero_add, ← takenBytes_eq, List.filter_append]
  have read : (blocksFrom 0 (takenItems past)).filter
      (fun block => (takenBytes past).length ≤ block.1) = [] := by
    rw [List.filter_eq_nil_iff]
    intro block member unread
    have before := lt_of_mem_blocksFrom 0
      (fun bytes inside => some_ bytes (List.mem_append_left _ inside)) member
    rw [Nat.zero_add, ← takenBytes_eq] at before
    exact absurd (of_decide_eq_true unread) (Nat.not_le.mpr before)
  have unread : (blocksFrom (takenBytes past).length rest).filter
      (fun block => (takenBytes past).length ≤ block.1) =
        blocksFrom (takenBytes past).length rest := by
    rw [List.filter_eq_self]
    intro block member
    exact decide_eq_true (le_of_mem_blocksFrom _ member)
  rw [read, unread, List.nil_append]

end Blocks

/-! ### The invariant -/

/-- **The invariant of a run whose blocks find their slots**: the rings carry what was pushed and is
not yet read, and the head is where the stream ends. -/
structure Placed (sizes : Sizes) (w : Writer) (past : List Traffic) : Prop extends
    Sound sizes w where
  head : w.stream.head_.toNat =
    ((pushedItems past).flatMap Item.bytes).length % sizes.streamSize.toNat
  some_ : ∀ bytes, .control bytes ∈ pushedItems past → bytes ≠ []
  queue : ∃ rest, Carries w rest ∧ pushedItems past = takenItems past ++ rest

section Placed

variable {sizes : Sizes} {w : Writer} {past : List Traffic}

theorem placed_start (sizes : Sizes) (memories : Memories) :
    Placed sizes (sizes.writer memories) [] :=
  ⟨sound_start sizes memories, (Nat.zero_mod _).symm,
    fun _ member => absurd member List.not_mem_nil, [], carries_start sizes memories, rfl⟩

/-- The tail is where the chunks end. -/
theorem Placed.tail_mod (placed : Placed sizes w past) :
    w.stream.tail_.toNat = (takenBytes past).length % sizes.streamSize.toNat := by
  obtain ⟨rest, carries, split⟩ := placed.queue
  obtain ⟨marks, holds, -⟩ := carries.ghost
  have head := placed.head
  have inside := placed.valid.tail
  have place := RingFast.head_eq placed.valid
  rw [split, List.flatMap_append, List.length_append, ← takenBytes_eq, ← holds.size] at head
  rw [placed.capacity] at place inside
  have same : w.stream.tail_.toNat ≡ (takenBytes past).length [MOD sizes.streamSize.toNat] :=
    Nat.ModEq.add_right_cancel' w.stream.size.toNat (place.symm.trans head)
  rw [← same, Nat.mod_eq_of_lt inside]

/-- **The marks are those of the unread blocks.** -/
theorem Placed.marked (placed : Placed sizes w past) : Marked sizes w past := by
  obtain ⟨rest, carries, split⟩ := placed.queue
  obtain ⟨marks, holds, same⟩ := carries.ghost
  refine ⟨⟨?_, rest, split.symm⟩, ?_⟩
  · rw [split, List.flatMap_append, takenBytes_eq, holds.contents]
  · rw [← same, holds.markContents, placed.capacity, placed.tail_mod, marksOf_mod, marksOf_blocks,
      unreadBlocks_eq split placed.some_]

theorem free_ne_zero {marks : RingFast ControlMark} (valid : marks.Valid) :
    marks.free ≠ 0 ↔ marks.size.toNat + 1 < marks.capacity_.toNat := by
  have free := RingFast.free_toNat valid
  have zero : marks.free = 0 ↔ marks.free.toNat = 0 := UInt16.toNat_inj.symm
  rw [Ne, zero]
  omega

/-- The counter does not decide about a block. -/
theorem counting_startsBlock (w : Writer) (counter : UInt32) :
    (w.counting counter).startsBlock = w.startsBlock := by
  have admitted : (w.counting counter).admission.2 = w.admission.2 := by
    rw [Writer.admission, Writer.admission, apply_ite Prod.snd, apply_ite Prod.snd,
      apply_ite Prod.snd, apply_ite Prod.snd]
    rfl
  rw [Writer.startsBlock, Writer.startsBlock, admitted]
  rfl

/-- A call that finds its slot, or pushes no block. -/
theorem Slotted.slot {use : Use} (slotted : Slotted w use) (valid : w.marks.Valid) :
    w.marks.size.toNat + 1 < w.marks.capacity_.toNat ∨
      ∃ bytes : List UInt8, w.pushes use = bytes.map .sample := by
  cases use with
  | read buf size stale => exact .inr ⟨[], rfl⟩
  | flush =>
    rw [show w.pushes .flush = w.flushItems from rfl, Writer.flushItems]
    split
    case isTrue => exact .inr ⟨[], rfl⟩
    case isFalse room => exact .inl ((free_ne_zero valid).mp (slotted (UInt16.not_le.mp room)))
  | push counter row =>
    rw [show w.pushes (.push counter row) = (w.counting counter).rowItems row from rfl]
    cases starts : w.startsBlock with
    | true => exact .inl ((free_ne_zero valid).mp (slotted starts))
    | false =>
      rw [← counting_startsBlock w counter] at starts
      cases writes : (w.counting counter).writesRow with
      | true => exact .inr ⟨_, rowItems_writes _ row writes⟩
      | false => exact .inr ⟨[], rowItems_refused _ row starts writes⟩

/-- A call that finds no slot pushes a block. -/
theorem block_of_not_slotted {use : Use} (unslotted : ¬ Slotted w use) :
    w.marks.free = 0 ∧ ∃ block, w.pushes use = [.control block] := by
  cases use with
  | read buf size stale => exact absurd trivial unslotted
  | flush =>
    obtain ⟨room, full⟩ := Classical.not_imp.mp unslotted
    refine ⟨not_not.mp full, [flushCode], ?_⟩
    rw [show w.pushes .flush = w.flushItems from rfl, Writer.flushItems,
      if_neg (UInt16.not_le.mpr room)]
  | push counter row =>
    obtain ⟨starts, full⟩ := Classical.not_imp.mp unslotted
    rw [← counting_startsBlock w counter] at starts
    exact ⟨not_not.mp full, _, rowItems_starts (w.counting counter) row starts⟩

/-- A call that pushes onto the rings. -/
theorem Placed.push (placed : Placed sizes w past) (few : sizes.channels ≤ 15) (use : Use)
    (slot : w.marks.size.toNat + 1 < w.marks.capacity_.toNat ∨
      ∃ bytes : List UInt8, w.pushes use = bytes.map .sample)
    {result : Writer} (appends : Appends w (w.pushes use) result) :
    Placed sizes result (past ++ [.pushed (w.pushes use)]) := by
  have sound := placed.toSound
  have positive := sizes.positive
  have safe := (sound.safe_iff use).mp (sound.safe (.inr (by omega)) use)
  rw [← sound.capacity] at safe
  have pushable := sound.pushable (few.trans (by decide)) use
  obtain ⟨rest, carries, split⟩ := placed.queue
  obtain ⟨carried, next, whole⟩ := carries.append appends pushable safe
  have pushed : pushedItems (past ++ [.pushed (w.pushes use)]) =
      pushedItems past ++ w.pushes use := by
    rw [pushedItems_append]
    exact congrArg _ (List.append_nil _)
  refine ⟨sound.appends appends, ?_, ?_, rest ++ carried, next, ?_⟩
  · obtain ⟨-, -, -, head⟩ :=
      RingFast.pushAll_frame sound.valid ((w.pushes use).flatMap Item.bytes)
    rw [appends.stream, head, placed.head, sound.capacity, Nat.mod_add_mod, pushed,
      List.flatMap_append, List.length_append]
  · intro bytes member
    rw [pushed] at member
    rcases List.mem_append.mp member with old | new
    · exact placed.some_ bytes old
    · rcases pushable with ⟨samples, same⟩ | ⟨block, same, some_, -⟩
      · rw [same] at new
        obtain ⟨byte, -, other⟩ := List.mem_map.mp new
        exact Item.noConfusion other
      · rw [same] at new
        rw [Item.control.inj (List.mem_singleton.mp new)]
        exact some_
  · rw [pushed, split, whole slot, takenItems_append, List.append_assoc]
    show _ = (takenItems past ++ []) ++ _
    rw [List.append_nil]

/-- Reading moves the tail only. -/
theorem readNext_head (w : Writer) (buf : Nat → UInt8) (size : Nat) (stale : UInt16) :
    (w.readNext buf size stale).writer.stream.head_ = w.stream.head_ := by
  rcases readNext_cases w buf size stale with same | ⟨count, out, read⟩
  · rw [same]
  · rw [read]
    rfl

theorem Placed.use (placed : Placed sizes w past) (few : sizes.channels ≤ 15) (use : Use)
    (slotted : Slotted w use) : Placed sizes (w.use use).1 (past ++ (w.use use).2) := by
  obtain ⟨rest, carries, split⟩ := placed.queue
  have slot := slotted.slot carries.validMarks
  cases use with
  | flush => exact placed.push few .flush slot (flush_appends w)
  | push counter row =>
    have counted : Placed sizes (w.counting counter) past :=
      ⟨placed.toSound.counting counter, placed.head, placed.some_, rest,
        ⟨carries.validMarks, carries.ghost⟩, split⟩
    exact counted.push few (.push counter row) slot
      (pushSample_appends (w.counting counter) row)
  | read buf size stale =>
    obtain ⟨left, front, next⟩ := carries.read buf size stale
    have pushed := pushedItems_read past w buf size stale
    refine ⟨placed.toSound.readNext buf size stale, ?_, ?_, left, next, ?_⟩
    · rw [pushed, ← placed.head]
      exact congrArg UInt16.toNat (readNext_head w buf size stale)
    · rw [pushed]
      exact placed.some_
    · rw [pushed, split, front, takenItems_append, List.append_assoc]
      rfl

/-- **A block without a slot is not marked.** -/
theorem Placed.slotted (placed : Placed sizes w past) {use : Use}
    (marked : Marked sizes (w.use use).1 (past ++ (w.use use).2)) : Slotted w use := by
  by_contra unslotted
  obtain ⟨full, block, pushes⟩ := block_of_not_slotted unslotted
  have before := placed.marked
  have lengths := congrArg List.length before.bytes
  rw [List.length_append] at lengths
  obtain ⟨rest, carries, split⟩ := placed.queue
  have refused := fun mark => RingFast.push_full carries.validMarks
    (fun room => (free_ne_zero carries.validMarks).mpr room full) mark
  have outcome : (w.use use).2 = [.pushed [.control block]] ∧
      (w.use use).1.marks = w.marks := by
    cases use with
    | read buf size stale => exact absurd trivial unslotted
    | flush =>
      have appends := flush_appends w
      refine ⟨congrArg (fun items => [Traffic.pushed items]) pushes, appends.marks.trans ?_⟩
      rw [show w.flushItems = [.control block] from pushes, Writer.marked, refused]
    | push counter row =>
      have appends := pushSample_appends (w.counting counter) row
      refine ⟨congrArg (fun items => [Traffic.pushed items]) pushes, appends.marks.trans ?_⟩
      rw [show (w.counting counter).rowItems row = [.control block] from pushes, Writer.marked]
      exact congrArg Prod.fst (refused _)
  have after := congrArg List.length marked.marks
  have pushed : pushedItems (past ++ [.pushed [.control block]]) =
      pushedItems past ++ [.control block] := by
    rw [pushedItems_append]
    rfl
  have taken : takenBytes (past ++ [.pushed [.control block]]) = takenBytes past := by
    rw [takenBytes_eq, takenBytes_eq, takenItems_append]
    exact congrArg (List.flatMap Item.bytes) (List.append_nil _)
  rw [outcome.1, outcome.2, before.marks, List.length_map, List.length_map, unreadBlocks,
    unreadBlocks, pushed, taken, blocksFrom_append, List.filter_append, List.length_append] at after
  have new : (blocksFrom (0 + ((pushedItems past).flatMap Item.bytes).length)
      [.control block]).filter (fun block => (takenBytes past).length ≤ block.1) =
        [(0 + ((pushedItems past).flatMap Item.bytes).length, block)] := by
    refine List.filter_eq_self.mpr fun other member => decide_eq_true ?_
    rw [List.mem_singleton.mp member]
    omega
  rw [new, List.length_singleton] at after
  omega

end Placed

/-! ### The condition -/

/-- **When control blocks have their marks.** For 1 to 15 channels, all rings that the constructor
accepts and all runs: in every state of the run the mark ring holds exactly the marks of the unread
control blocks, and no chunk typed `Sample` holds bytes of a control block, if and only if every
call of the run that pushes a control block finds a free slot in the mark ring. -/
theorem marked_iff_slotted {sizes : Sizes} (few : sizes.channels ≤ 15) (memories : Memories)
    (uses : List Use) :
    (∀ before, before <+: uses →
      let out := run Writer.use (sizes.writer memories) before
      Marked sizes out.1 out.2) ↔ Along Writer.use Slotted (sizes.writer memories) uses :=
  EventMachine.every_iff_along Writer.use (Placed sizes) (Marked sizes)
    (fun _ use _ placed slotted => placed.use few use slotted) (fun _ _ placed => placed.marked)
    (fun _ _ _ placed marked => placed.slotted marked) (placed_start sizes memories) uses

theorem two_power : ∃ exponent ≤ 15, (2 : UInt16).toNat = 2 ^ exponent :=
  ⟨1, by decide, rfl⟩

/-- One channel, and a mark ring with room for one mark. -/
def oneMarkSizes : Sizes := { oneChannelSizes with markSize := 2, markPower := two_power }

/-- A block and a FLUSH, with the block read before the FLUSH. -/
theorem marked_iff_slotted_oneMark :
    (∀ before, before <+: [zeroRow, .read (fun _ => 0) 16 0, .flush] →
      let out := run Writer.use (oneMarkSizes.writer zeroed) before
      Marked oneMarkSizes out.1 out.2) ↔
      Along Writer.use Slotted (oneMarkSizes.writer zeroed)
        [zeroRow, .read (fun _ => 0) 16 0, .flush] :=
  marked_iff_slotted (show oneMarkSizes.channels ≤ 15 by decide) zeroed _

/-- Whether an item is a control block. -/
def Item.isControl : Item → Bool
  | .sample _ => false
  | .control _ => true

/-- **A FLUSH without its mark**: the mark of the block before it is still in the ring, and the
FLUSH is read as a sample byte. -/
theorem not_always_marked : ¬ ∀ (sizes : Sizes) (memories : Memories) (uses : List Use),
    sizes.channels ≤ 15 →
      let out := run Writer.use (sizes.writer memories) uses
      Marked sizes out.1 out.2 := by
  intro all
  have marked := all oneMarkSizes zeroed
    [zeroRow, .flush, .read (fun _ => 0) 16 0, .read (fun _ => 0) 16 0] (by decide)
  have kinds := marked.items.map Item.isControl
  exact absurd kinds (by decide)

end ForgeDrive.Daq
