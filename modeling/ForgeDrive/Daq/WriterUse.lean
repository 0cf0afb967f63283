/-
**The writer in use**, for any number of channels: `pushSample`, `flush` and `readNext` in any
order, `sample_counter` being the caller's.

* `pushSample_appends`, `flush_appends` — what a call pushes onto the two rings;
* `readNext_cases` — what a read does to the writer;
* `Writer.use` — a call of any of the three, with what goes in and what comes out.
-/

import ForgeDrive.Daq.WriterSteps

namespace ForgeDrive.Daq

open Circular (segment store)
open El (RingFast)

/-! ### The loop over the channels -/

/-- The loop of `pushSample` apart from the rings: the channel states, and the bytes of the
residuals. Behind 256 channels it comes back to the states of the first ones. -/
def Writer.encoded (w : Writer) (row : Nat → Int16) (count : Nat) :
    (Nat → ChannelState) × List UInt8 :=
  (List.range count).foldl
    (fun done i =>
      let encoded := dodEncode (done.1 (i % 256)) (row i)
      (Function.update done.1 (i % 256) encoded.1, done.2 ++ residualBytes encoded.2))
    (w.ccs, [])

section Loop

variable (w : Writer) (row : Nat → Int16)

theorem encoded_succ (count : Nat) :
    w.encoded row (count + 1) =
      let done := w.encoded row count
      let encoded := dodEncode (done.1 (count % 256)) (row count)
      (Function.update done.1 (count % 256) encoded.1, done.2 ++ residualBytes encoded.2) := by
  rw [Writer.encoded, List.range_succ, List.foldl_append]
  rfl

theorem encodeChannels_encoded (write : Bool) (count : Nat) :
    (List.range count).foldl (Writer.encodeChannel write row) w =
      { w with
        ccs := (w.encoded row count).1
        stream := if write then w.stream.pushAll (w.encoded row count).2 else w.stream } := by
  induction count with
  | zero => cases write <;> rfl
  | succ count ih =>
    rw [List.range_succ, List.foldl_append, ih, List.foldl_cons, List.foldl_nil, encoded_succ]
    simp only [Writer.encodeChannel]
    cases write with
    | false => rfl
    | true => rw [if_pos rfl, if_pos rfl, if_pos rfl, RingFast.pushAll_append]

/-- A residual takes one to three bytes. -/
theorem encoded_length (count : Nat) :
    count ≤ (w.encoded row count).2.length ∧ (w.encoded row count).2.length ≤ 3 * count := by
  induction count with
  | zero => exact ⟨le_rfl, le_rfl⟩
  | succ count ih =>
    have one := residualBytes_length
      (dodEncode ((w.encoded row count).1 (count % 256)) (row count)).2
    rw [encoded_succ, List.length_append]
    omega

end Loop

/-! ### What a call pushes -/

/-- The writer at the end of the loop, when `pushSample` calls `internal_resync`. -/
def Writer.encodedRow (w : Writer) (row : Nat → Int16) : Writer :=
  { w with ccs := (w.encoded row w.channels).1 }

/-- What `pushSample` pushes: a resync block, or the residuals of the row, or nothing. -/
def Writer.rowItems (w : Writer) (row : Nat → Int16) : List Item :=
  if w.startsBlock then [.control (w.encodedRow row).resyncBlock]
  else if w.writesRow then (w.encoded row w.channels).2.map .sample
  else []

/-- What `flush` pushes. -/
def Writer.flushItems (w : Writer) : List Item :=
  if w.stream.free ≤ controlReserve.toUInt16 then [] else [.control [flushCode]]

/-- The mark ring behind a call that pushes a control block, or none. -/
def Writer.marked (w : Writer) : List Item → RingFast ControlMark
  | [.control bytes] => (w.marks.push ⟨w.stream.head, UInt8.ofNat bytes.length⟩).1
  | _ => w.marks

/-- The writer behind a call that pushes these items. -/
structure Appends (w : Writer) (items : List Item) (result : Writer) : Prop where
  stream : result.stream = w.stream.pushAll (items.flatMap Item.bytes)
  marks : result.marks = w.marked items
  channels : result.channels = w.channels
  reserve : result.reserve = w.reserve
  period : result.syncPeriod = w.syncPeriod

section Push

variable (w : Writer) (row : Nat → Int16)

/-- The tests of `pushSample` change the flags and the count only. -/
theorem admission_same : w.admission.1 =
    { w with
      flags := w.admission.1.flags
      samplesTillSync := w.admission.1.samplesTillSync } := by
  rcases admission_cases w with ⟨-, same⟩ | ⟨-, -, same⟩ | ⟨-, -, same⟩ <;> rw [same]

theorem encodeRow_encoded (write : Bool) : w.admission.1.encodeRow write row =
    { w.encodedRow row with
      flags := w.admission.1.flags
      samplesTillSync := w.admission.1.samplesTillSync
      stream := if write then w.stream.pushAll (w.encoded row w.channels).2 else w.stream } := by
  rw [admission_same, Writer.encodeRow, encodeChannels_encoded]
  rfl

/-- A row that begins a block is not written. -/
theorem writesRow_of_startsBlock (starts : w.startsBlock = true) : w.writesRow = false := by
  rw [Writer.startsBlock, Bool.and_eq_true] at starts
  rw [Writer.writesRow, starts.2, Bool.not_true, Bool.and_false]

theorem rowItems_starts (starts : w.startsBlock = true) :
    w.rowItems row = [.control (w.encodedRow row).resyncBlock] := if_pos starts

theorem rowItems_writes (writes : w.writesRow = true) :
    w.rowItems row = (w.encoded row w.channels).2.map .sample := by
  have starts : ¬ w.startsBlock = true := fun starts => by
    rw [writesRow_of_startsBlock w starts] at writes
    exact Bool.noConfusion writes
  rw [Writer.rowItems, if_neg starts, if_pos writes]

theorem rowItems_refused (starts : w.startsBlock = false) (writes : w.writesRow = false) :
    w.rowItems row = [] := by
  rw [Writer.rowItems, starts, writes]
  rfl

/-- **`internalResync`** pushes the resync block. -/
theorem internalResync_appends (w : Writer) :
    Appends w [.control w.resyncBlock] w.internalResync := by
  rw [internalResync_eq]
  refine ⟨?_, rfl, rfl, rfl, rfl⟩
  rw [List.flatMap_singleton, Item.bytes]

/-- **`pushSample`** pushes the items of the row. -/
theorem pushSample_appends : Appends w (w.rowItems row) (w.pushSample row).1 := by
  rw [Writer.pushSample, encodeRow_encoded]
  cases starts : w.startsBlock with
  | true =>
    have writes := writesRow_of_startsBlock w starts
    rw [rowItems_starts w row starts, writes, if_pos rfl, if_neg Bool.false_ne_true,
      if_neg Bool.false_ne_true]
    obtain ⟨stream, marks, channels, reserve, period⟩ :=
      internalResync_appends (w.encodedRow row)
    exact ⟨stream, marks, channels, reserve, period⟩
  | false =>
    rw [if_neg Bool.false_ne_true]
    cases writes : w.writesRow with
    | true =>
      rw [rowItems_writes w row writes, if_pos rfl, if_pos rfl]
      refine ⟨?_, ?_, rfl, rfl, rfl⟩
      · rw [bytes_samples]
      · show w.marks = _
        cases (w.encoded row w.channels).2 with
        | nil => rfl
        | cons byte rest => rfl
    | false =>
      rw [rowItems_refused w row starts writes, if_neg Bool.false_ne_true,
        if_neg Bool.false_ne_true]
      exact ⟨rfl, rfl, rfl, rfl, rfl⟩

/-- **`flush`** pushes a FLUSH, or nothing. -/
theorem flush_appends : Appends w w.flushItems w.flush.1 := by
  rw [Writer.flush, Writer.flushItems]
  split
  · exact ⟨rfl, rfl, rfl, rfl, rfl⟩
  · exact ⟨rfl, rfl, rfl, rfl, rfl⟩

/-- What is pushed by a row needs more room than is reserved. -/
theorem admission_room (admitted : w.admission.2 = true) :
    w.reserve.toNat < w.stream.free.toNat := by
  rcases admission_cases w with ⟨-, same⟩ | ⟨-, -, same⟩ | ⟨-, room, -⟩
  · rw [same] at admitted
    exact Bool.noConfusion admitted
  · rw [same] at admitted
    exact Bool.noConfusion admitted
  · exact room

end Push

/-- A mark at the tail is a plan to read a control block. -/
theorem planned_control {w : Writer} (valid : w.stream.Valid) (some_ : w.stream.size.toNat ≠ 0)
    {mark : ControlMark} (peeked : w.marks.peek = some mark) (front : mark.idx = w.stream.tail_)
    (stale : UInt16) : w.planned stale = (mark.size.toUInt16, .control) := by
  have place : mark.idx.toInt16.toUInt16.toNat =
      (w.stream.tail_.toNat + 0) % w.stream.capacity_.toNat := by
    rw [UInt16.toUInt16_toInt16, front, Nat.add_zero, Nat.mod_eq_of_lt valid.tail]
  obtain ⟨distance, measured, zero⟩ :=
    RingFast.distanceFromTail_eq valid place (Nat.pos_of_ne_zero some_)
  have distanceZero : distance = 0 := UInt16.toNat_inj.mp zero
  rw [Writer.planned, peeked]
  simp only [measured, Option.getD_some, distanceZero]
  rfl

/-- **What a read does**: nothing to the writer, or the end of `readNext` for what was planned. -/
theorem readNext_cases (w : Writer) (buf : Nat → UInt8) (size : Nat) (stale : UInt16) :
    (w.readNext buf size stale).writer = w ∨
      ∃ count out, w.readNext buf size stale =
        w.commitRead (w.planned stale).2 count out buf := by
  rw [Writer.readNext]
  simp only
  split
  · exact .inl rfl
  · cases w.stream.readReserve with
    | none => exact .inl rfl
    | some out => exact .inr ⟨_, out, rfl⟩

/-! ### The calls of the caller -/

/-- A call, with what the caller brings: the sample counter and the row, or the buffer; `stale` is
the indeterminate value of `dist_to_mark`. -/
inductive Use
  | push (counter : UInt32) (row : Nat → Int16)
  | flush
  | read (buf : Nat → UInt8) (size : Nat) (stale : UInt16)

/-- What goes into the rings and what comes out. -/
inductive Traffic
  | pushed (items : List Item)
  | chunk (type : StreamType) (bytes : List UInt8)

/-- The caller's sample counter. -/
def Writer.counting (w : Writer) (counter : UInt32) : Writer := { w with sampleCounter := counter }

/-- What a call pushes. -/
def Writer.pushes (w : Writer) : Use → List Item
  | .push counter row => (w.counting counter).rowItems row
  | .flush => w.flushItems
  | .read _ _ _ => []

/-- The chunk of a read, where it returned one. -/
def ReadResult.chunks (result : ReadResult) : List Traffic :=
  if result.returned = 0 then []
  else [.chunk result.type (segment result.buf 0 result.returned.toNat)]

/-- A call. -/
def Writer.use (w : Writer) : Use → Writer × List Traffic
  | .push counter row =>
    (((w.counting counter).pushSample row).1, [.pushed (w.pushes (.push counter row))])
  | .flush => (w.flush.1, [.pushed (w.pushes .flush)])
  | .read buf size stale =>
    let result := w.readNext buf size stale
    (result.writer, result.chunks)

/-- What the constructor asserts of the sizes. -/
structure Sizes where
  channels : Nat
  positive : 1 ≤ channels
  streamSize : UInt16
  streamPower : ∃ exponent ≤ 15, streamSize.toNat = 2 ^ exponent
  markSize : UInt16
  markPower : ∃ exponent ≤ 15, markSize.toNat = 2 ^ exponent

/-- What the constructor finds in the memories, and the sync period. -/
structure Memories where
  streamBuf : Nat → UInt8
  markBuf : Nat → ControlMark
  ccs : Nat → ChannelState
  sampleCounter : UInt32
  syncPeriod : UInt8
  flags : UInt8

/-- A writer as constructed. -/
def Sizes.writer (sizes : Sizes) (memories : Memories) : Writer :=
  .new memories.streamBuf sizes.streamSize memories.markBuf sizes.markSize memories.ccs
    sizes.channels memories.sampleCounter memories.syncPeriod memories.flags

end ForgeDrive.Daq
