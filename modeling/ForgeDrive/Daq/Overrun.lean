/-
**When the writer never overruns its byte ring.**

`pushFast` checks nothing: what keeps the ring from overrunning is `reserve`, which is `16 * c` as a
`uint8_t`. A call is safe exactly if what it pushes fits (`safe_iff`), so that the reserve has to
cover a resync block of `4 * c + 5` bytes.

* `Sound.safe` — with such a reserve, or with a ring that never has more free than the reserve,
  every call of every run is safe;
* `not_neverOverruns` — with any other, some run overruns: the ring is filled by `flush`, one byte
  at a time, until what `pushSample` accepts does not fit.
-/

import ForgeDrive.Daq.WriterUse

namespace ForgeDrive.Daq

open EventMachine (run Along)
open El (RingFast)

/-! ### Safe calls -/

/-- The slots of the first items from the tail on. -/
def slots (r : RingFast UInt8) (count : Nat) : List Nat :=
  (List.range count).map fun i => (r.tail_.toNat + i) % r.capacity_.toNat

/-- **Safe to push**, one `pushFast` after the other: none writes the slot of a byte that is not yet
read, neither of one that was there nor of one pushed just before, and the ring is not empty
afterwards. -/
def SafePush (r : RingFast UInt8) (bytes : List UInt8) : Prop :=
  (∀ k < bytes.length,
    (r.pushAll (bytes.take k)).head_.toNat ∉ slots r (r.size.toNat + k)) ∧
  (bytes ≠ [] → (r.pushAll bytes).size.toNat ≠ 0)

/-- A call whose pushes are safe. -/
def Safe (w : Writer) (use : Use) : Prop :=
  SafePush w.stream ((w.pushes use).flatMap Item.bytes)

/-- **The writer never overruns its byte ring**, whatever is in the memories, for every sync period
and in every run. -/
def NeverOverruns (sizes : Sizes) : Prop :=
  ∀ (memories : Memories) (uses : List Use),
    Along Writer.use Safe (sizes.writer memories) uses

section SafePush

variable {r : RingFast UInt8} {bytes : List UInt8}

/-- The slot that `pushFast` writes next. -/
theorem pushAll_head (valid : r.Valid) {count : Nat} (within : count ≤ bytes.length) :
    (r.pushAll (bytes.take count)).head_.toNat =
      (r.tail_.toNat + (r.size.toNat + count)) % r.capacity_.toNat := by
  obtain ⟨-, -, -, head⟩ := RingFast.pushAll_frame valid (bytes.take count)
  rw [head, RingFast.head_eq valid, Nat.mod_add_mod, List.length_take, Nat.min_eq_left within,
    Nat.add_assoc]

/-- **Safe is to fit.** -/
theorem safePush_iff (valid : r.Valid) :
    SafePush r bytes ↔ r.size.toNat + bytes.length < r.capacity_.toNat := by
  have tail := valid.tail
  have less := RingFast.size_lt valid
  constructor
  · intro ⟨apart, notEmpty⟩
    by_contra more
    rcases Nat.lt_or_ge r.capacity_.toNat (r.size.toNat + bytes.length) with past | exact_
    · -- the byte behind the last free slot goes to the tail
      have head := pushAll_head valid
        (show r.capacity_.toNat - r.size.toNat ≤ bytes.length by omega)
      rw [Nat.add_sub_cancel' (Nat.le_of_lt less), Nat.add_mod_right] at head
      apply apart (r.capacity_.toNat - r.size.toNat) (by omega)
      rw [head]
      exact List.mem_map.mpr ⟨0, List.mem_range.mpr (by omega), rfl⟩
    · -- the last byte brings the head to the tail
      have some_ : bytes ≠ [] := by
        rintro rfl
        rw [List.length_nil] at more
        omega
      obtain ⟨validAll, -, sameTail, -⟩ := RingFast.pushAll_frame valid bytes
      have head := pushAll_head valid (le_refl bytes.length)
      rw [List.take_length, show r.size.toNat + bytes.length = r.capacity_.toNat by omega,
        Nat.add_mod_right, Nat.mod_eq_of_lt tail] at head
      apply notEmpty some_
      rw [← RingFast.empty_iff validAll, sameTail]
      exact UInt16.toNat_inj.mp head
  · intro fits
    refine ⟨fun k inside member => ?_, fun some_ => ?_⟩
    · obtain ⟨i, earlier, same⟩ := List.mem_map.mp member
      rw [List.mem_range] at earlier
      rw [pushAll_head valid (Nat.le_of_lt inside)] at same
      have apart := Nat.sub_mod_eq_zero_of_mod_eq same.symm
      rw [Nat.add_sub_add_left, Nat.mod_eq_of_lt (by omega)] at apart
      omega
    · obtain ⟨-, contents, -, -⟩ := RingFast.pushAll_spec valid fits
      have positive := List.length_pos_iff.mpr some_
      rw [← RingFast.contents_length, contents, List.length_append]
      omega

end SafePush

/-! ### What the sizes fix -/

/-- What every call keeps. -/
structure Sound (sizes : Sizes) (w : Writer) : Prop where
  valid : w.stream.Valid
  capacity : w.stream.capacity_ = sizes.streamSize
  channels : w.channels = sizes.channels
  reserve : w.reserve.toNat = 16 * sizes.channels % 256

section Sound

variable {sizes : Sizes} {w : Writer}

theorem sound_start (sizes : Sizes) (memories : Memories) :
    Sound sizes (sizes.writer memories) :=
  ⟨RingFast.new_valid memories.streamBuf sizes.streamPower, rfl, rfl, UInt8.toNat_ofNat' ..⟩

theorem Sound.appends (sound : Sound sizes w) {items : List Item} {result : Writer}
    (appends : Appends w items result) : Sound sizes result := by
  obtain ⟨valid, capacity, -, -⟩ := RingFast.pushAll_frame sound.valid (items.flatMap Item.bytes)
  refine ⟨?_, ?_, appends.channels.trans sound.channels, ?_⟩
  · rw [appends.stream]
    exact valid
  · rw [appends.stream]
    exact capacity.trans sound.capacity
  · rw [appends.reserve]
    exact sound.reserve

theorem Sound.counting (sound : Sound sizes w) (counter : UInt32) :
    Sound sizes (w.counting counter) :=
  ⟨sound.valid, sound.capacity, sound.channels, sound.reserve⟩

theorem Sound.readNext (sound : Sound sizes w) (buf : Nat → UInt8) (size : Nat) (stale : UInt16) :
    Sound sizes (w.readNext buf size stale).writer := by
  rcases readNext_cases w buf size stale with same | ⟨count, out, read⟩
  · rw [same]
    exact sound
  · rw [read]
    exact ⟨RingFast.readCommit_valid sound.valid _, sound.capacity, sound.channels, sound.reserve⟩

theorem Sound.use (sound : Sound sizes w) (use : Use) : Sound sizes (w.use use).1 := by
  cases use with
  | push counter row => exact (sound.counting counter).appends (pushSample_appends _ row)
  | flush => exact sound.appends (flush_appends w)
  | read buf size stale => exact sound.readNext buf size stale

/-- **A call is safe if what it pushes fits.** -/
theorem Sound.safe_iff (sound : Sound sizes w) (use : Use) : Safe w use ↔
    w.stream.size.toNat + ((w.pushes use).flatMap Item.bytes).length <
      sizes.streamSize.toNat := by
  rw [Safe, safePush_iff sound.valid, sound.capacity]

theorem Sound.free (sound : Sound sizes w) :
    w.stream.free.toNat = sizes.streamSize.toNat - 1 - w.stream.size.toNat := by
  rw [RingFast.free_toNat sound.valid, sound.capacity]

/-- What a call pushes, by its length: a FLUSH, a resync block or the residuals of a row. -/
theorem Sound.pushes_length (sound : Sound sizes w) (use : Use) :
    w.pushes use = [] ∨
    (((w.pushes use).flatMap Item.bytes).length = 1 ∧ 16 < w.stream.free.toNat) ∨
    (((w.pushes use).flatMap Item.bytes).length ≤
        max (5 + 4 * (sizes.channels % 256)) (3 * sizes.channels) ∧
      16 * sizes.channels % 256 < w.stream.free.toNat) := by
  cases use with
  | read buf size stale => exact .inl rfl
  | flush =>
    show w.flushItems = [] ∨ _
    rw [show w.pushes .flush = w.flushItems from rfl, Writer.flushItems]
    split
    case isTrue => exact .inl rfl
    case isFalse room =>
      have more := UInt16.lt_iff_toNat_lt.mp (UInt16.not_le.mp room)
      exact .inr (.inl ⟨rfl, more⟩)
  | push counter row =>
    rw [show w.pushes (.push counter row) = (w.counting counter).rowItems row from rfl]
    have reserved := (sound.counting counter).reserve
    have channels := (sound.counting counter).channels
    cases starts : (w.counting counter).startsBlock with
    | true =>
      have admitted := (Bool.and_eq_true _ _ ▸ starts).1
      have room := admission_room _ admitted
      have length := resyncBlock_count ((w.counting counter).encodedRow row)
      have count : ((w.counting counter).encodedRow row).channelCount.toNat =
          sizes.channels % 256 := by
        rw [← channels]
        exact UInt8.toNat_ofNat' ..
      rw [reserved] at room
      rw [rowItems_starts _ row starts, List.flatMap_singleton]
      refine .inr (.inr ⟨?_, room⟩)
      show (Writer.resyncBlock _).length ≤ _
      rw [length, count]
      exact Nat.le_max_left _ _
    | false =>
      cases writes : (w.counting counter).writesRow with
      | false => exact .inl (rowItems_refused _ row starts writes)
      | true =>
        have admitted := (Bool.and_eq_true _ _ ▸ writes).1
        have room := admission_room _ admitted
        have length := (encoded_length (w.counting counter) row (w.counting counter).channels).2
        rw [reserved] at room
        rw [channels] at length
        rw [rowItems_writes _ row writes, bytes_samples, channels]
        exact .inr (.inr ⟨length.trans (Nat.le_max_right _ _), room⟩)

/-- **A reserve that covers a resync block**, or that is never free, makes every call safe. -/
theorem Sound.safe (sound : Sound sizes w)
    (covers : sizes.streamSize.toNat ≤ 16 * sizes.channels % 256 + 1 ∨
      4 * sizes.channels + 4 ≤ 16 * sizes.channels % 256) (use : Use) : Safe w use := by
  have free := sound.free
  have less := RingFast.size_lt sound.valid
  rw [sound.capacity] at less
  rw [sound.safe_iff]
  rcases sound.pushes_length use with none_ | ⟨one, room⟩ | ⟨length, room⟩
  · rw [none_]
    exact less
  · omega
  · rcases covers with small | large
    · omega
    · rw [Nat.mod_eq_of_lt (show sizes.channels < 256 by omega)] at length
      omega

end Sound

/-! ### Runs that overrun -/

/-- A writer that accepts rows and begins a block with the next one, this many bytes being unread. -/
structure Ready (sizes : Sizes) (used : Nat) (w : Writer) : Prop extends Sound sizes w where
  flags : w.flags = 0
  till : w.samplesTillSync = 0
  period : w.syncPeriod ≠ 0
  unread : w.stream.size.toNat = used

section Ready

variable {sizes : Sizes} {used : Nat} {w : Writer}

theorem ready_start (sizes : Sizes) (memories : Memories) (period : memories.syncPeriod ≠ 0) :
    Ready sizes 0 (sizes.writer memories) :=
  ⟨sound_start sizes memories, rfl, rfl, period,
    RingFast.size_eq_zero (RingFast.new_contents memories.streamBuf sizes.streamSize)⟩

/-- A FLUSH takes one byte. -/
theorem Ready.flush (ready : Ready sizes used w) (room : used + 17 < sizes.streamSize.toNat) :
    Ready sizes (used + 1) (w.use .flush).1 := by
  have sound := ready.toSound
  have free := sound.free
  have unread := ready.unread
  have more : ¬ w.stream.free ≤ controlReserve.toUInt16 := fun le => by
    have leNat := UInt16.le_iff_toNat_le.mp le
    have sixteen : controlReserve.toUInt16.toNat = 16 := rfl
    omega
  have flushed : w.flush.1 =
      { w with
        stream := w.stream.pushFast flushCode
        marks := (w.marks.push ⟨w.stream.head, 1⟩).1
        samplesTillSync := 0 } := by
    rw [Writer.flush, if_neg more]
  have size := RingFast.pushFast_size sound.valid
    (show w.stream.size.toNat + 1 < w.stream.capacity_.toNat by
      rw [sound.capacity]
      omega) flushCode
  refine ⟨sound.use .flush, ?_, ?_, ?_, ?_⟩
  · show w.flush.1.flags = 0
    rw [flushed]
    exact ready.flags
  · show w.flush.1.samplesTillSync = 0
    rw [flushed]
  · show w.flush.1.syncPeriod ≠ 0
    rw [flushed]
    exact ready.period
  · show w.flush.1.stream.size.toNat = used + 1
    rw [flushed, ← unread]
    exact size

/-- **The ring is filled**, one FLUSH after the other. -/
theorem Ready.filled (ready : Ready sizes used w) {count : Nat}
    (room : count = 0 ∨ used + count + 16 < sizes.streamSize.toNat) :
    Ready sizes (used + count) (run Writer.use w (List.replicate count .flush)).1 := by
  induction count generalizing used w with
  | zero => exact ready
  | succ count ih =>
    have next := ih (ready.flush (by omega)) (by omega)
    rwa [Nat.add_assoc, Nat.add_comm 1] at next

/-- A row is admitted, where more is free than is reserved. -/
theorem Sound.admitted (sound : Sound sizes w) (clear : w.flags = 0)
    (room : w.stream.size.toNat + (16 * sizes.channels % 256) + 1 < sizes.streamSize.toNat) :
    w.admission = (w, true) := by
  have free := sound.free
  have reserve := sound.reserve
  rcases admission_cases w with ⟨pressed, -⟩ | ⟨-, full, -⟩ | ⟨-, -, same⟩
  · rw [clear] at pressed
    exact absurd pressed (by decide)
  · have fullNat := UInt16.le_iff_toNat_le.mp full
    rw [UInt8.toNat_toUInt16] at fullNat
    omega
  · exact same

/-- A row begins a block. -/
theorem Ready.starts (ready : Ready sizes used w) (counter : UInt32)
    (room : used + (16 * sizes.channels % 256) + 1 < sizes.streamSize.toNat) :
    (w.counting counter).startsBlock = true := by
  have admitted := (ready.toSound.counting counter).admitted ready.flags (by
    show w.stream.size.toNat + _ + 1 < _
    rw [ready.unread]
    exact room)
  rw [Writer.startsBlock, admitted]
  exact decide_eq_true ready.till

/-- A row that begins a block is a resync block. -/
theorem Ready.push (ready : Ready sizes used w) (counter : UInt32) (row : Nat → Int16)
    (room : used + (16 * sizes.channels % 256) + 1 < sizes.streamSize.toNat) :
    ((w.pushes (.push counter row)).flatMap Item.bytes).length =
      5 + 4 * (sizes.channels % 256) := by
  have length := resyncBlock_count ((w.counting counter).encodedRow row)
  have count : ((w.counting counter).encodedRow row).channelCount.toNat =
      sizes.channels % 256 := by
    rw [← ready.channels]
    exact UInt8.toNat_ofNat' ..
  rw [show w.pushes (.push counter row) = (w.counting counter).rowItems row from rfl,
    rowItems_starts _ row (ready.starts counter room), List.flatMap_singleton]
  show (Writer.resyncBlock _).length = _
  rw [length, count]

end Ready

/-- A writer that writes the next row, this many bytes being unread. -/
structure Writes (sizes : Sizes) (used : Nat) (w : Writer) : Prop extends Sound sizes w where
  flags : w.flags = 0
  till : w.samplesTillSync ≠ 0
  unread : w.stream.size.toNat = used

section Writes

variable {sizes : Sizes} {used : Nat} {w : Writer}

/-- Behind a resync block that fits, rows are written. -/
theorem Ready.writes (ready : Ready sizes used w) (counter : UInt32) (row : Nat → Int16)
    (room : used + (16 * sizes.channels % 256) + 1 < sizes.streamSize.toNat)
    (fits : used + (5 + 4 * (sizes.channels % 256)) < sizes.streamSize.toNat) :
    Writes sizes (used + (5 + 4 * (sizes.channels % 256))) (w.use (.push counter row)).1 := by
  have sound := ready.toSound.counting counter
  have starts := ready.starts counter room
  have admitted := sound.admitted ready.flags (by
    show w.stream.size.toNat + _ + 1 < _
    rw [ready.unread]
    exact room)
  have notWritten := writesRow_of_startsBlock _ starts
  have length := ready.push counter row room
  have appends := pushSample_appends (w.counting counter) row
  have pushed : ((w.counting counter).pushSample row).1 =
      ((w.counting counter).encodedRow row).internalResync := by
    rw [Writer.pushSample, encodeRow_encoded, starts, notWritten, admitted]
    rfl
  refine ⟨ready.toSound.use _, ?_, ?_, ?_⟩
  · show ((w.counting counter).pushSample row).1.flags = 0
    rw [pushed, internalResync_eq]
    exact ready.flags
  · show ((w.counting counter).pushSample row).1.samplesTillSync ≠ 0
    rw [pushed, internalResync_eq]
    exact ready.period
  · have unread : (w.counting counter).stream.size.toNat = used := ready.unread
    have room : (w.counting counter).stream.size.toNat +
        ((w.pushes (.push counter row)).flatMap Item.bytes).length <
          (w.counting counter).stream.capacity_.toNat := by
      rw [length, sound.capacity, unread]
      exact fits
    obtain ⟨-, contents, -, -⟩ := RingFast.pushAll_spec sound.valid room
    show ((w.counting counter).pushSample row).1.stream.size.toNat = _
    rw [appends.stream, ← RingFast.contents_length]
    refine (congrArg List.length contents).trans ?_
    rw [List.length_append, length, RingFast.contents_length, unread]

/-- A row that is written takes a byte for each channel at least. -/
theorem Writes.push (writes : Writes sizes used w) (counter : UInt32) (row : Nat → Int16)
    (room : used + (16 * sizes.channels % 256) + 1 < sizes.streamSize.toNat) :
    sizes.channels ≤ ((w.pushes (.push counter row)).flatMap Item.bytes).length := by
  have sound := writes.toSound.counting counter
  have admitted := sound.admitted writes.flags (by
    show w.stream.size.toNat + _ + 1 < _
    rw [writes.unread]
    exact room)
  have written : (w.counting counter).writesRow = true := by
    have till : (w.counting counter).samplesTillSync ≠ 0 := writes.till
    rw [Writer.writesRow, admitted, decide_eq_false till]
    rfl
  have length := (encoded_length (w.counting counter) row (w.counting counter).channels).1
  rw [show w.pushes (.push counter row) = (w.counting counter).rowItems row from rfl,
    rowItems_writes _ row written, bytes_samples]
  rwa [sound.channels] at length ⊢

/-- A read of all that is unread leaves an empty ring. -/
theorem Writes.readAll (writes : Writes sizes used w) (some_ : used ≠ 0) {planned : UInt16}
    {type : StreamType} {stale : UInt16} (plan : w.planned stale = (planned, type))
    (all : planned.toNat = used) (buf : Nat → UInt8) :
    Writes sizes 0 (w.use (.read buf 65536 stale)).1 := by
  have unread := writes.unread
  have bound := planned.toNat_lt
  obtain ⟨out, reserved, splits⟩ := RingFast.readReserve_eq writes.valid (by omega)
  have within : planned.toNat ≤ w.stream.size.toNat := by omega
  obtain ⟨copied, -⟩ := copyRegions_spec writes.valid splits within buf
  have size := RingFast.readCommit_size writes.valid within
  have zero : ¬ planned = 0 := fun zero => some_ (by rw [← all, zero]; rfl)
  have read : w.readNext buf 65536 stale = w.commitRead type planned out buf := by
    simp only [Writer.readNext, plan, reserved]
    rw [if_neg fun both => both.2.elim (by omega) zero, if_neg (by omega)]
  have rest : (w.use (.read buf 65536 stale)).1.stream.size.toNat = 0 := by
    show (w.readNext buf 65536 stale).writer.stream.size.toNat = 0
    rw [read]
    show (w.stream.readCommit (copyRegions w.stream out planned buf).2).size.toNat = 0
    rw [copied, size]
    omega
  refine ⟨writes.toSound.use _, ?_, ?_, rest⟩
  · show (w.readNext buf 65536 stale).writer.flags = 0
    rw [read, Writer.commitRead]
    simp only [writes.flags]
    split <;> rfl
  · show (w.readNext buf 65536 stale).writer.samplesTillSync ≠ 0
    rw [read]
    exact writes.till

end Writes

/-! ### The condition -/

section NeverOverruns

variable {sizes : Sizes}

/-- Memories with nothing in them, and a sync period of one. -/
def zeroed : Memories where
  streamBuf := fun _ => 0
  markBuf := fun _ => ⟨0, 0⟩
  ccs := fun _ => ⟨0, 0⟩
  sampleCounter := 0
  syncPeriod := 1
  flags := 0

/-- A row, whatever is in it. -/
def zeroRow : Use := .push 0 fun _ => 0

/-- **The first block** can be read at once: as a control block, or as sample bytes where the mark
ring has no room for a mark. -/
theorem planned_first (room : (16 * sizes.channels % 256) + 1 < sizes.streamSize.toNat)
    (fits : 5 + 4 * (sizes.channels % 256) < sizes.streamSize.toNat)
    (short : 5 + 4 * (sizes.channels % 256) < 256) :
    ∃ planned type, ((sizes.writer zeroed).use zeroRow).1.planned 0 = (planned, type) ∧
      planned.toNat = 5 + 4 * (sizes.channels % 256) := by
  have ready := ready_start sizes zeroed (by decide)
  have starts := ready.starts 0 (by omega)
  have writes : Writes sizes (0 + (5 + 4 * (sizes.channels % 256)))
      ((sizes.writer zeroed).use zeroRow).1 :=
    ready.writes 0 (fun _ => 0) (by omega) (by omega)
  have unread := writes.unread
  rw [Nat.zero_add] at unread
  have length := ready.push 0 (fun _ => 0) (by omega)
  set w := ((sizes.writer zeroed).use zeroRow).1 with wDef
  set block := (((sizes.writer zeroed).counting 0).encodedRow fun _ => 0).resyncBlock with blockDef
  have items : (sizes.writer zeroed).pushes zeroRow = [.control block] :=
    rowItems_starts ((sizes.writer zeroed).counting 0) (fun _ => 0) starts
  have blockLength : block.length = 5 + 4 * (sizes.channels % 256) := by
    rw [← length]
    show _ = (((sizes.writer zeroed).pushes zeroRow).flatMap Item.bytes).length
    rw [items, List.flatMap_singleton]
    rfl
  have appends : Appends (sizes.writer zeroed) [.control block] w := by
    rw [← items]
    exact pushSample_appends ((sizes.writer zeroed).counting 0) fun _ => 0
  have validMarks : (sizes.writer zeroed).marks.Valid :=
    RingFast.new_valid zeroed.markBuf sizes.markPower
  have noMarks : (sizes.writer zeroed).marks.contents = [] :=
    RingFast.new_contents zeroed.markBuf sizes.markSize
  have marks : w.marks = ((sizes.writer zeroed).marks.push ⟨0, UInt8.ofNat block.length⟩).1 :=
    appends.marks
  have noneUnread : (sizes.writer zeroed).marks.size.toNat = 0 := RingFast.size_eq_zero noMarks
  rcases Nat.lt_or_ge 1 sizes.markSize.toNat with some_ | none_
  · have peeked : w.marks.peek = some ⟨0, UInt8.ofNat block.length⟩ := by
      rw [marks]
      exact RingFast.peek_push_first validMarks noMarks some_ _
    obtain ⟨-, -, tail, -⟩ := RingFast.pushAll_frame ready.valid
      (([.control block] : List Item).flatMap Item.bytes)
    rw [← appends.stream] at tail
    refine ⟨(UInt8.ofNat block.length).toUInt16, .control,
      planned_control writes.valid (by omega) peeked tail.symm 0, ?_⟩
    rw [UInt8.toNat_toUInt16, UInt8.toNat_ofNat', blockLength]
    omega
  · have full := RingFast.push_full validMarks
      (show ¬ (sizes.writer zeroed).marks.size.toNat + 1 < sizes.markSize.toNat by omega)
      ⟨0, UInt8.ofNat block.length⟩
    refine ⟨w.stream.size, .sample, ?_, unread⟩
    rw [Writer.planned, marks, full, RingFast.peek_eq validMarks, noMarks]
    rfl

/-- **A ring filled with flushes overruns** at the next row, if a resync block does not fit. -/
theorem block_fits (never : NeverOverruns sizes)
    (room : 16 * sizes.channels % 256 + 1 < sizes.streamSize.toNat) :
    5 + 4 * (sizes.channels % 256) < sizes.streamSize.toNat ∧
      5 + 4 * (sizes.channels % 256) ≤ max (16 * sizes.channels % 256 + 1) 16 := by
  -- fill the ring, except for what a row needs to be admitted, or a flush to be pushed
  set count := sizes.streamSize.toNat - 1 - max (16 * sizes.channels % 256 + 1) 16 with countDef
  have along := (EventMachine.along_append ..).mp
    (never zeroed (List.replicate count .flush ++ [zeroRow]))
  have ready := (ready_start sizes zeroed (by decide)).filled
    (show count = 0 ∨ 0 + count + 16 < sizes.streamSize.toNat by omega)
  rw [Nat.zero_add] at ready
  have safe := (ready.toSound.safe_iff zeroRow).mp along.2.1
  rw [ready.unread, zeroRow, ready.push 0 _ (by omega)] at safe
  omega

/-- **Behind a resync block, a row of many channels overruns**, for no reserve covers it. -/
theorem few_channels (never : NeverOverruns sizes)
    (room : 16 * sizes.channels % 256 + 1 < sizes.streamSize.toNat) : sizes.channels < 256 := by
  obtain ⟨fits, covered⟩ := block_fits never room
  by_contra many
  set block := 5 + 4 * (sizes.channels % 256) with blockDef
  set left := max (16 * sizes.channels % 256 + 1) 16 with leftDef
  rcases Nat.lt_or_ge (block + left) sizes.streamSize.toNat with large | small
  · -- a large ring is filled first, so that too little is left for the row
    set count := sizes.streamSize.toNat - 1 - left - block with countDef
    have along := (EventMachine.along_append ..).mp
      (never zeroed (List.replicate count .flush ++ [zeroRow, zeroRow]))
    have ready := (ready_start sizes zeroed (by decide)).filled
      (show count = 0 ∨ 0 + count + 16 < sizes.streamSize.toNat by omega)
    rw [Nat.zero_add] at ready
    have writes := ready.writes 0 (fun _ => 0) (by omega) (by omega)
    have safe := (writes.toSound.safe_iff zeroRow).mp along.2.2.1
    have length := writes.push 0 (fun _ => 0) (by omega)
    rw [writes.unread, zeroRow] at safe
    omega
  · -- a small ring has no room for the row at all
    obtain ⟨exponent, -, power⟩ := sizes.streamPower
    have below : sizes.streamSize.toNat ≤ 256 := by
      rw [power] at small ⊢
      have few : exponent < 9 := by
        by_contra many
        have large := Nat.pow_le_pow_right (show 0 < 2 by decide) (not_lt.mp many)
        omega
      exact Nat.pow_le_pow_right (by decide) (Nat.lt_succ_iff.mp few)
    obtain ⟨planned, type, plan, all⟩ := planned_first room fits (by omega)
    have along := never zeroed [zeroRow, .read (fun _ => 0) 65536 0, zeroRow]
    have ready := ready_start sizes zeroed (by decide)
    have writes := ready.writes 0 (fun _ => 0) (by omega) (by omega)
    rw [Nat.zero_add] at writes
    have drained := writes.readAll (by omega) plan all fun _ => 0
    have safe := (drained.toSound.safe_iff zeroRow).mp along.2.2.1
    have length := drained.push 0 (fun _ => 0) (by omega)
    rw [drained.unread, zeroRow] at safe
    omega

/-- **When the writer never overruns**: for every number of channels and all buffers that the
constructor accepts, every run is safe exactly if the reserve covers a resync block, or the ring
never has more free than the reserve, so that no row is ever accepted. -/
theorem neverOverruns_iff (sizes : Sizes) : NeverOverruns sizes ↔
    sizes.streamSize.toNat ≤ 16 * sizes.channels % 256 + 1 ∨
      4 * sizes.channels + 4 ≤ 16 * sizes.channels % 256 := by
  constructor
  · intro never
    by_contra neither
    rw [not_or, not_le, not_le] at neither
    obtain ⟨-, covered⟩ := block_fits never neither.1
    have few := few_channels never neither.1
    have positive := sizes.positive
    rw [Nat.mod_eq_of_lt few] at covered
    omega
  · intro covers memories uses
    exact EventMachine.along_of_invariant Writer.use (Sound sizes)
      (fun w use sound => sound.use use) (fun w use sound => sound.safe covers use)
      (sound_start sizes memories) uses

/-- Sixteen channels, for which nothing is reserved, and rings of 64 bytes. -/
def sixteenChannels : Sizes where
  channels := 16
  positive := by decide
  streamSize := 64
  streamPower := ⟨6, by decide, rfl⟩
  markSize := 64
  markPower := ⟨6, by decide, rfl⟩

/-- **A ring that is overrun**: the first row pushes a resync block of 69 bytes into an empty ring,
which takes 63. -/
theorem not_neverOverruns : ¬ ∀ sizes : Sizes, NeverOverruns sizes := by
  intro all
  have along := all sixteenChannels zeroed [zeroRow]
  have safe := ((sound_start sixteenChannels zeroed).safe_iff zeroRow).mp along.1
  exact absurd safe (by decide +kernel)

end NeverOverruns

end ForgeDrive.Daq
