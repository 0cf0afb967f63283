/-
**The chunks of the writer**: `readNext` cuts the stream exactly at the control blocks.

The traffic of a run is what was pushed onto the rings and the chunks that were read from them. The
rings hold what is pushed and not yet read (`Queued`), and every read takes from its front: a control
block as a whole, or sample bytes up to the next control block (`readNext_takes`), whatever the
buffer. `run_segments` puts the chunks of a run together.
-/

import ForgeDrive.Daq.Overrun

namespace ForgeDrive.Daq

open EventMachine (run Along)
open Circular (segment store)
open El (RingFast)

/-! ### The traffic -/

/-- What was pushed, in order. -/
def pushedItems (past : List Traffic) : List Item :=
  past.flatMap fun
    | .pushed items => items
    | .chunk _ _ => []

/-- What a chunk is made of: a control block, or sample bytes. -/
def chunkItems : StreamType → List UInt8 → List Item
  | .control, bytes => [.control bytes]
  | .sample, bytes => bytes.map .sample

/-- What the chunks are made of, in order. -/
def takenItems (past : List Traffic) : List Item :=
  past.flatMap fun
    | .pushed _ => []
    | .chunk type bytes => chunkItems type bytes

/-- The bytes of the chunks, in order. -/
def takenBytes (past : List Traffic) : List UInt8 :=
  past.flatMap fun
    | .pushed _ => []
    | .chunk _ bytes => bytes

/-- `copied` at the end of `readNext`; nothing is copied where it returns before. -/
def Writer.copied (w : Writer) (buf : Nat → UInt8) (size : Nat) (stale : UInt16) : UInt16 :=
  let planned := w.planned stale
  if planned.2 = .control ∧ (planned.1.toNat > size ∨ planned.1 = 0) then 0
  else
    let count := if planned.1.toNat > size then UInt16.ofNat size else planned.1
    match w.stream.readReserve with
    | none => 0
    | some out => (copyRegions w.stream out count buf).2

/-- **The chunks so far are segments of the stream**: with what is in the ring their bytes are the
bytes pushed, and item by item they are a beginning of what was pushed, a control chunk one whole
control block, a sample chunk sample bytes only. -/
structure Segmented (past : List Traffic) (w : Writer) : Prop where
  bytes : takenBytes past ++ w.stream.contents = (pushedItems past).flatMap Item.bytes
  items : takenItems past <+: pushedItems past

/-- A read returns the number of bytes it has copied, and changes nothing if that is none. -/
def ReadsExactly (w : Writer) : Prop :=
  ∀ (buf : Nat → UInt8) (size : Nat) (stale : UInt16),
    let result := w.readNext buf size stale
    result.returned = w.copied buf size stale ∧
      (result.returned = 0 → result.writer.stream = w.stream ∧ result.writer.marks = w.marks)

section Traffic

variable (first second : List Traffic)

theorem pushedItems_append :
    pushedItems (first ++ second) = pushedItems first ++ pushedItems second :=
  List.flatMap_append

theorem takenItems_append :
    takenItems (first ++ second) = takenItems first ++ takenItems second := List.flatMap_append

/-- A read pushes nothing. -/
theorem pushedItems_read (w : Writer) (buf : Nat → UInt8) (size : Nat) (stale : UInt16) :
    pushedItems (first ++ (w.use (.read buf size stale)).2) = pushedItems first := by
  have nothing : pushedItems (w.readNext buf size stale).chunks = [] := by
    rw [ReadResult.chunks]
    split <;> rfl
  rw [pushedItems_append]
  show pushedItems first ++ pushedItems (w.readNext buf size stale).chunks = _
  rw [nothing, List.append_nil]

theorem chunkItems_bytes (type : StreamType) (bytes : List UInt8) :
    (chunkItems type bytes).flatMap Item.bytes = bytes := by
  cases type with
  | control => exact List.append_nil bytes
  | sample => exact bytes_samples bytes

/-- The bytes of the chunks are those of what they are made of. -/
theorem takenBytes_eq (past : List Traffic) :
    takenBytes past = (takenItems past).flatMap Item.bytes := by
  induction past with
  | nil => rfl
  | cons event rest ih =>
    cases event with
    | pushed items => exact ih
    | chunk type bytes =>
      have bytesCons : takenBytes (.chunk type bytes :: rest) = bytes ++ takenBytes rest := rfl
      have itemsCons : takenItems (.chunk type bytes :: rest) =
          chunkItems type bytes ++ takenItems rest := rfl
      rw [bytesCons, itemsCons, List.flatMap_append, chunkItems_bytes, ih]

end Traffic

/-! ### Pushing onto the queue -/

/-- What one call pushes: sample bytes, or a control block that a mark can carry. -/
def Pushable (items : List Item) : Prop :=
  (∃ bytes : List UInt8, items = bytes.map .sample) ∨
    ∃ block : List UInt8, items = [.control block] ∧ block ≠ [] ∧ block.length < 256

section Push

variable {sizes : Sizes} {w : Writer}

theorem marked_samples (w : Writer) (bytes : List UInt8) :
    w.marked (bytes.map .sample) = w.marks := by
  cases bytes <;> rfl

/-- **What fits is appended to the queue.** -/
theorem Holds.append {queue items : List Item} {result : Writer}
    (holds : Holds w.stream w.marks queue) (appends : Appends w items result)
    (pushable : Pushable items)
    (fits : w.stream.size.toNat + (items.flatMap Item.bytes).length <
      w.stream.capacity_.toNat) : Holds result.stream result.marks (queue ++ items) := by
  rw [appends.stream, appends.marks]
  rcases pushable with ⟨bytes, rfl⟩ | ⟨block, rfl, some_, short⟩
  · rw [marked_samples]
    rw [bytes_samples] at fits ⊢
    exact holds.samples fits
  · rw [List.flatMap_singleton] at fits ⊢
    exact holds.control some_ short fits

theorem Sound.pushable (sound : Sound sizes w) (few : sizes.channels ≤ 62) (use : Use) :
    Pushable (w.pushes use) := by
  cases use with
  | read buf size stale => exact .inl ⟨[], rfl⟩
  | flush =>
    rw [show w.pushes .flush = w.flushItems from rfl, Writer.flushItems]
    split
    · exact .inl ⟨[], rfl⟩
    · exact .inr ⟨_, rfl, List.cons_ne_nil _ _, by decide⟩
  | push counter row =>
    have channels := (sound.counting counter).channels
    rw [show w.pushes (.push counter row) = (w.counting counter).rowItems row from rfl,
      Writer.rowItems]
    split
    · refine .inr ⟨_, rfl, List.cons_ne_nil _ _, ?_⟩
      rw [resyncBlock_length (by
        show (w.counting counter).channels ≤ 255
        omega)]
      show 5 + 4 * (w.counting counter).channels < 256
      omega
    · split
      · exact .inl ⟨_, rfl⟩
      · exact .inl ⟨[], rfl⟩

end Push

/-! ### Reading from the queue -/

/-- What a read takes: nothing, or a chunk from the front of the queue. -/
structure Takes (w : Writer) (queue : List Item) (result : ReadResult) (rest : List Item) :
    Prop where
  front : queue = takenItems result.chunks ++ rest
  holds : Holds result.writer.stream result.writer.marks rest
  nothing : result.returned = 0 → result.writer = w

section Read

variable {w : Writer} {queue : List Item}

theorem readCommit_zero {r : RingFast UInt8} (valid : r.Valid) : r.readCommit 0 = r := by
  have tail : (r.tail_ + 0) &&& r.mask_ = r.tail_ := by
    rw [← UInt16.toNat_inj, valid.advance]
    exact Nat.mod_eq_of_lt valid.tail
  rw [RingFast.readCommit, tail]

/-- A read of sample bytes into an empty buffer. -/
theorem readNext_empty {bytes : List UInt8} {behind : List Item}
    (holds : Holds w.stream w.marks (bytes.map .sample ++ behind)) (some_ : bytes ≠ [])
    {planned : UInt16} (length : planned.toNat = bytes.length) (stale : UInt16)
    (plan : w.planned stale = (planned, .sample)) (buf : Nat → UInt8) :
    (w.readNext buf 0 stale).returned = 0 ∧ (w.readNext buf 0 stale).writer = w := by
  have total := holds.size
  rw [List.flatMap_append, bytes_samples, List.length_append] at total
  have positive := List.length_pos_iff.mpr some_
  obtain ⟨out, reserved, splits⟩ := RingFast.readReserve_eq holds.valid (by omega)
  obtain ⟨copied, -⟩ := copyRegions_spec holds.valid splits
    (show (0 : UInt16).toNat ≤ w.stream.size.toNat from Nat.zero_le _) buf
  have read : w.readNext buf 0 stale = w.commitRead .sample 0 out buf := by
    simp only [Writer.readNext, plan, reserved]
    rw [if_neg fun both => StreamType.noConfusion both.1, if_pos (by omega)]
    rfl
  have notEmpty : ¬ w.stream.size = 0 := fun zero => by
    rw [zero] at total
    have zeroNat : (0 : UInt16).toNat = 0 := rfl
    omega
  rw [read]
  refine ⟨rfl, ?_⟩
  rw [Writer.commitRead, copied, readCommit_zero holds.valid]
  simp only [if_neg notEmpty]
  rfl

theorem Takes.of_nothing {result : ReadResult} (holds : Holds w.stream w.marks queue)
    (returned : result.returned = 0) (same : result.writer = w) : Takes w queue result queue := by
  refine ⟨?_, by rw [same]; exact holds, fun _ => same⟩
  rw [ReadResult.chunks, if_pos returned]
  rfl

theorem Takes.of_step {result : ReadResult} (holds : Holds w.stream w.marks queue)
    (step : ReadStep w queue result) : ∃ rest, Takes w queue result rest := by
  rcases step with ⟨-, returned, same⟩ | ⟨bytes, rest, split, returned, type, chunk, next⟩ |
    ⟨block, rest, split, returned, type, chunk, next⟩
  · exact ⟨queue, .of_nothing holds returned same⟩
  · refine ⟨rest, ?_, next.holds, fun zero => absurd zero returned⟩
    rw [split, ReadResult.chunks, if_neg returned, type, chunk]
    exact congrArg (· ++ rest) (List.append_nil _).symm
  · refine ⟨rest, ?_, next.holds, fun zero => absurd zero returned⟩
    rw [split, ReadResult.chunks, if_neg returned, type, chunk]
    rfl

/-- **A read takes from the front of the queue**, whatever the buffer. -/
theorem readNext_takes (holds : Holds w.stream w.marks queue) (buf : Nat → UInt8) (size : Nat)
    (stale : UInt16) : ∃ rest, Takes w queue (w.readNext buf size stale) rest := by
  rcases holds.front with ⟨rfl, plan⟩ | ⟨bytes, behind, rfl, some_, planned, length, plan⟩ |
    ⟨block, behind, rfl, planned, length, plan⟩
  · have read : w.readNext buf size stale = ⟨w, .sample, buf, 0⟩ :=
      readNext_nothing holds plan buf stale
    exact ⟨_, .of_nothing holds (by rw [read]) (by rw [read])⟩
  · rcases Nat.eq_zero_or_pos size with rfl | positive
    · obtain ⟨returned, same⟩ := readNext_empty holds some_ length stale (plan stale) buf
      exact ⟨_, .of_nothing holds returned same⟩
    · exact Takes.of_step holds (readNext_samples holds some_ positive length stale (plan stale) buf)
  · rcases Nat.lt_or_ge size block.length with short | fits
    · have read : w.readNext buf size stale = ⟨w, .control, buf, 0⟩ := by
        simp only [Writer.readNext, plan stale]
        rw [if_pos ⟨trivial, .inl (by omega)⟩]
      exact ⟨_, .of_nothing holds (by rw [read]) (by rw [read])⟩
    · exact Takes.of_step holds (readNext_control holds fits length stale (plan stale) buf)

/-- The plan of a read is within what is in the ring. -/
theorem Holds.planned_le (holds : Holds w.stream w.marks queue) (stale : UInt16) :
    (w.planned stale).1.toNat ≤ w.stream.size.toNat := by
  have total := holds.size
  rcases holds.front with ⟨-, plan⟩ | ⟨bytes, behind, rfl, -, planned, length, plan⟩ |
    ⟨block, behind, rfl, planned, length, plan⟩
  · rw [plan]
    exact Nat.zero_le _
  · rw [List.flatMap_append, bytes_samples, List.length_append] at total
    rw [plan, length]
    omega
  · have blockBytes : (Item.control block).bytes.length = block.length := rfl
    rw [List.flatMap_cons, List.length_append] at total
    rw [plan, length]
    omega

/-- **A read returns the number of bytes it has copied.** -/
theorem readNext_copied (holds : Holds w.stream w.marks queue) (buf : Nat → UInt8) (size : Nat)
    (stale : UInt16) : (w.readNext buf size stale).returned = w.copied buf size stale := by
  have within := holds.planned_le stale
  rw [Writer.readNext, Writer.copied]
  simp only
  split
  · rfl
  · rcases Nat.eq_zero_or_pos w.stream.size.toNat with empty | some_
    · rw [RingFast.readReserve_none empty]
    · obtain ⟨out, reserved, splits⟩ := RingFast.readReserve_eq holds.valid (Nat.ne_of_gt some_)
      have bound := (w.planned stale).1.toNat_lt
      have count : (if (w.planned stale).1.toNat > size then UInt16.ofNat size
          else (w.planned stale).1).toNat ≤ w.stream.size.toNat := by
        split
        · rw [UInt16.toNat_ofNat']
          omega
        · exact within
      rw [reserved]
      exact (copyRegions_spec holds.valid splits count buf).1.symm

end Read

/-! ### The run -/

/-- **The invariant of a run**: the rings hold what was pushed and is not yet read. -/
structure Queued (sizes : Sizes) (w : Writer) (past : List Traffic) : Prop extends
    Sound sizes w where
  queue : ∃ rest, Holds w.stream w.marks rest ∧ pushedItems past = takenItems past ++ rest

section Run

variable {sizes : Sizes} {w : Writer} {past : List Traffic}

theorem queued_start (slots : sizes.streamSize.toNat ≤ sizes.markSize.toNat)
    (memories : Memories) : Queued sizes (sizes.writer memories) [] := by
  refine ⟨sound_start sizes memories, [], ?_, rfl⟩
  exact ⟨RingFast.new_valid memories.streamBuf sizes.streamPower,
    RingFast.new_valid memories.markBuf sizes.markPower, slots,
    RingFast.new_contents memories.streamBuf _, RingFast.new_contents memories.markBuf _,
    fun _ member => absurd member List.not_mem_nil, fun _ member => absurd member List.not_mem_nil⟩

/-- A call that pushes what fits. -/
theorem Queued.push (queued : Queued sizes w past) (few : sizes.channels ≤ 15) (use : Use)
    {result : Writer} (appends : Appends w (w.pushes use) result) :
    Queued sizes result (past ++ [.pushed (w.pushes use)]) := by
  have sound := queued.toSound
  have positive := sizes.positive
  have safe := (sound.safe_iff use).mp (sound.safe (.inr (by omega)) use)
  rw [← sound.capacity] at safe
  obtain ⟨rest, holds, split⟩ := queued.queue
  refine ⟨sound.appends appends, rest ++ w.pushes use,
    holds.append appends (sound.pushable (few.trans (by decide)) use) safe, ?_⟩
  rw [pushedItems_append, takenItems_append, split]
  show _ ++ (w.pushes use ++ []) = (_ ++ []) ++ _
  rw [List.append_nil, List.append_nil, List.append_assoc]

theorem Queued.use (queued : Queued sizes w past) (few : sizes.channels ≤ 15) (use : Use) :
    Queued sizes (w.use use).1 (past ++ (w.use use).2) := by
  cases use with
  | flush => exact queued.push few .flush (flush_appends w)
  | push counter row =>
    have counted : Queued sizes (w.counting counter) past :=
      ⟨queued.toSound.counting counter, queued.queue⟩
    exact counted.push few (.push counter row)
      (pushSample_appends (w.counting counter) row)
  | read buf size stale =>
    obtain ⟨rest, holds, split⟩ := queued.queue
    obtain ⟨left, takes⟩ := readNext_takes holds buf size stale
    refine ⟨queued.toSound.readNext buf size stale, left, takes.holds, ?_⟩
    rw [pushedItems_read, split, takes.front, takenItems_append, List.append_assoc]
    rfl

/-- What is queued shows how the chunks were cut. -/
theorem Queued.segmented (queued : Queued sizes w past) : Segmented past w := by
  obtain ⟨rest, holds, split⟩ := queued.queue
  refine ⟨?_, rest, split.symm⟩
  rw [split, List.flatMap_append, takenBytes_eq, holds.contents]

theorem Queued.readsExactly (queued : Queued sizes w past) : ReadsExactly w := by
  obtain ⟨rest, holds, -⟩ := queued.queue
  intro buf size stale
  obtain ⟨left, takes⟩ := readNext_takes holds buf size stale
  refine ⟨readNext_copied holds buf size stale, fun returned => ?_⟩
  rw [takes.nothing returned]
  exact ⟨rfl, rfl⟩

/-- **The invariant along a run.** -/
theorem run_queued (few : sizes.channels ≤ 15)
    (slots : sizes.streamSize.toNat ≤ sizes.markSize.toNat) (memories : Memories)
    (uses : List Use) :
    Queued sizes (run Writer.use (sizes.writer memories) uses).1
      (run Writer.use (sizes.writer memories) uses).2 :=
  EventMachine.run_history_always Writer.use (Queued sizes)
    (fun _ use _ queued => queued.use few use) (queued_start slots memories) uses

/-- **`readNext` cuts the stream at the control blocks.** For 1 to 15 channels, all rings that the
constructor accepts with as many slots for marks as for bytes, and all calls in any order with any
buffers: the chunks are segments of the stream, and a read from the state reached returns the number
of bytes it copies, and changes nothing if it returns none. -/
theorem run_segments (few : sizes.channels ≤ 15)
    (slots : sizes.streamSize.toNat ≤ sizes.markSize.toNat) (memories : Memories)
    (uses : List Use) :
    let out := run Writer.use (sizes.writer memories) uses
    Segmented out.2 out.1 ∧ ReadsExactly out.1 := by
  have queued := run_queued few slots memories uses
  exact ⟨queued.segmented, queued.readsExactly⟩

theorem thirtyTwo_power : ∃ exponent ≤ 15, (32 : UInt16).toNat = 2 ^ exponent :=
  ⟨5, by decide, rfl⟩

/-- One channel, and rings of 32. -/
def oneChannelSizes : Sizes where
  channels := 1
  positive := Nat.one_pos
  streamSize := 32
  streamPower := thirtyTwo_power
  markSize := 32
  markPower := thirtyTwo_power

/-- A block, a row, and a FLUSH, read in pieces of four bytes at most, and once with nine. -/
theorem run_segments_oneChannel :
    let uses : List Use := [zeroRow, zeroRow, .flush, .read (fun _ => 0) 4 0,
      .read (fun _ => 0) 9 0, .read (fun _ => 0) 4 0]
    let out := run Writer.use (oneChannelSizes.writer zeroed) uses
    Segmented out.2 out.1 ∧ ReadsExactly out.1 :=
  run_segments (show oneChannelSizes.channels ≤ 15 by decide) (by decide) zeroed _

end Run

end ForgeDrive.Daq
