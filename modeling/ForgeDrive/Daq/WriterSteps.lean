/-
**What `pushSample` and `flush` append to the queue.**

* `encodeRow_eq` — the loop over the channels, in closed form;
* `Sends.push` — a row is refused, or begins a block with a resync block, or its residuals are
  written;
* `Sends.flush` — a FLUSH is appended, if there is room for it.
-/

import ForgeDrive.Daq.WriterStream

namespace ForgeDrive.Daq

open El (RingFast)

/-! ### The loop over the channels -/

/-- The residual of a channel. -/
def Writer.residual (w : Writer) (row : Nat → Int16) (i : Nat) : Int16 :=
  (dodEncode (w.ccs i) (row i)).2

/-- The channel states after the first channels of a row. -/
def Writer.rowStates (w : Writer) (row : Nat → Int16) (count : Nat) : Nat → ChannelState :=
  fun i => if i < count then (dodEncode (w.ccs i) (row i)).1 else w.ccs i

/-- The bytes of the first residuals of a row. -/
def Writer.rowBytes (w : Writer) (row : Nat → Int16) (count : Nat) : List UInt8 :=
  (List.range count).flatMap fun i => residualBytes (w.residual row i)

section Row

variable (w : Writer) (row : Nat → Int16)

theorem rowBytes_succ (count : Nat) :
    w.rowBytes row (count + 1) = w.rowBytes row count ++ residualBytes (w.residual row count) := by
  rw [Writer.rowBytes, List.range_succ, List.flatMap_append, List.flatMap_singleton]
  rfl

theorem rowStates_succ (count : Nat) : w.rowStates row (count + 1) =
    Function.update (w.rowStates row count) count (dodEncode (w.ccs count) (row count)).1 := by
  funext i
  rcases eq_or_ne i count with rfl | other
  · rw [Function.update_self, Writer.rowStates, if_pos (Nat.lt_succ_self i)]
  · rw [Function.update_of_ne other, Writer.rowStates, Writer.rowStates]
    exact if_congr (by omega) rfl rfl

theorem encodeChannels_eq (write : Bool) {count : Nat} (few : count ≤ 256) :
    (List.range count).foldl (Writer.encodeChannel write row) w =
      { w with
        ccs := w.rowStates row count
        stream := if write then w.stream.pushAll (w.rowBytes row count) else w.stream } := by
  induction count with
  | zero => cases write <;> rfl
  | succ count ih =>
    have place : count % 256 = count := Nat.mod_eq_of_lt (by omega)
    have untouched : w.rowStates row count count = w.ccs count := if_neg (Nat.lt_irrefl count)
    rw [List.range_succ, List.foldl_append, ih (by omega), List.foldl_cons, List.foldl_nil,
      rowStates_succ, rowBytes_succ]
    simp only [Writer.encodeChannel, place, untouched]
    cases write with
    | false => rfl
    | true => rw [if_pos rfl, if_pos rfl, if_pos rfl, RingFast.pushAll_append]; rfl

/-- The writer after a row that is not written. -/
def Writer.skipped : Writer := { w with ccs := w.rowStates row w.channels }

/-- The states are then at the samples of the row. -/
theorem skipped_sample {i : Nat} (inside : i < w.channels) :
    ((w.skipped row).ccs i).sample = row i := by
  show (w.rowStates row w.channels i).sample = row i
  rw [Writer.rowStates, if_pos inside]
  rfl

/-- **The loop of `pushSample`** moves the channel states, and writes the residuals if asked to. -/
theorem encodeRow_eq (few : w.channels ≤ 256) (write : Bool) : w.encodeRow write row =
    { w.skipped row with
      stream := if write then w.stream.pushAll (w.rowBytes row w.channels) else w.stream } :=
  encodeChannels_eq w row write few

theorem residualBytes_length (dod : Int16) :
    1 ≤ (residualBytes dod).length ∧ (residualBytes dod).length ≤ 3 := by
  rw [residualBytes]
  split
  · exact ⟨Nat.le_refl 1, Nat.le_add_left 1 2⟩
  · simp only
    split
    · exact ⟨Nat.le_add_left 1 1, Nat.le_succ 2⟩
    · exact ⟨Nat.le_add_left 1 2, Nat.le_refl 3⟩

theorem rowBytes_length (count : Nat) :
    count ≤ (w.rowBytes row count).length ∧ (w.rowBytes row count).length ≤ 3 * count := by
  induction count with
  | zero => exact ⟨le_rfl, le_rfl⟩
  | succ count ih =>
    have one := residualBytes_length (w.residual row count)
    rw [rowBytes_succ, List.length_append]
    omega

end Row

/-! ### Resync blocks -/

/-- The bytes of a resync block. -/
def Writer.resyncBlock (w : Writer) : List UInt8 := resyncDod :: w.resyncBytes

theorem stateBytes_length (ccs : Nat → ChannelState) (count : Nat) :
    ((List.range count).flatMap fun i => stateBytes (ccs i)).length = 4 * count := by
  induction count with
  | zero => rfl
  | succ count ih =>
    rw [List.range_succ, List.flatMap_append, List.length_append, ih]
    rfl

theorem resyncBytes_count (w : Writer) :
    w.resyncBytes.length = 4 + 4 * w.channelCount.toNat := by
  rw [Writer.resyncBytes, List.length_append, stateBytes_length]
  rfl

theorem resyncBlock_count (w : Writer) :
    w.resyncBlock.length = 5 + 4 * w.channelCount.toNat := by
  rw [Writer.resyncBlock, List.length_cons, resyncBytes_count]
  omega

/-- The mark carries the length of the block, as a `uint8_t`. -/
theorem resync_size (w : Writer) :
    4 + 2 * 2 * w.channelCount + 1 = UInt8.ofNat w.resyncBlock.length := by
  rw [← UInt8.toNat_inj, resyncBlock_count, UInt8.toNat_add, UInt8.toNat_add, UInt8.toNat_mul,
    UInt8.toNat_ofNat']
  show ((4 + 4 * w.channelCount.toNat % 256) % 256 + 1) % 256 =
    (5 + 4 * w.channelCount.toNat) % 256
  omega

/-- **`internal_resync`** pushes a resync block, with its mark. -/
theorem internalResync_eq (w : Writer) : w.internalResync =
    { w with
      stream := w.stream.pushAll w.resyncBlock
      marks := (w.marks.push ⟨w.stream.head, UInt8.ofNat w.resyncBlock.length⟩).1
      samplesTillSync := w.syncPeriod } := by
  rw [Writer.internalResync, resync_size, ← RingFast.pushAll_cons]
  rfl

theorem channelCount_toNat {w : Writer} (few : w.channels ≤ 255) :
    w.channelCount.toNat = w.channels := by
  rw [Writer.channelCount, UInt8.toNat_ofNat']
  omega

theorem resyncBytes_length {w : Writer} (few : w.channels ≤ 255) :
    w.resyncBytes.length = 4 + 4 * w.channels := by
  rw [resyncBytes_count, channelCount_toNat few]

theorem resyncBlock_length {w : Writer} (few : w.channels ≤ 255) :
    w.resyncBlock.length = 5 + 4 * w.channels := by
  rw [resyncBlock_count, channelCount_toNat few]

/-! ### Pushing a row -/

/-- The writer and its queue, for so many channels. -/
structure Sends (c : Nat) (w : Writer) (queue : List Item) : Prop where
  positive : 1 ≤ c
  few : c ≤ 14
  channels : w.channels = c
  reserve : w.reserve.toNat = 16 * c
  holds : Holds w.stream w.marks queue
  paused : w.flags &&& backpressure ≠ 0 → w.samplesTillSync = 0

/-- What `pushSample` does with a row. -/
inductive PushStep (c : Nat) (w : Writer) (queue : List Item) (row : Nat → Int16)
    (result : Writer × Bool) : Prop
  | refused (returned : result.2 = false) (sends : Sends c result.1 queue)
      (till : result.1.samplesTillSync = 0) (period : result.1.syncPeriod = w.syncPeriod)
  | resync (returned : result.2 = true)
      (sends : Sends c result.1 (queue ++ [.control (w.skipped row).resyncBlock]))
      (till : result.1.samplesTillSync = w.syncPeriod) (period : result.1.syncPeriod = w.syncPeriod)
      (states : result.1.ccs = w.rowStates row c)
  | written (returned : result.2 = true) (writes : w.writesRow = true)
      (some_ : w.samplesTillSync ≠ 0)
      (sends : Sends c result.1 (queue ++ (w.rowBytes row c).map .sample))
      (till : result.1.samplesTillSync = w.samplesTillSync - 1)
      (period : result.1.syncPeriod = w.syncPeriod) (states : result.1.ccs = w.rowStates row c)

section Push

variable {c : Nat} {w : Writer} {queue : List Item}

/-- **What the tests decide**: a row is refused under backpressure, or for want of room, and then
there is backpressure; else it is accepted. -/
theorem admission_cases (w : Writer) :
    (w.flags &&& backpressure ≠ 0 ∧ w.admission = (w, false)) ∨
    (w.flags &&& backpressure = 0 ∧ w.stream.free ≤ w.reserve.toUInt16 ∧ w.admission =
      ({ w with flags := w.flags ||| backpressure, samplesTillSync := 0 }, false)) ∨
    (w.flags &&& backpressure = 0 ∧ w.reserve.toNat < w.stream.free.toNat ∧
      w.admission = (w, true)) := by
  rw [Writer.admission]
  by_cases pressed : w.flags &&& backpressure ≠ 0
  · exact .inl ⟨pressed, if_pos pressed⟩
  · rw [if_neg pressed]
    by_cases full : w.stream.free ≤ w.reserve.toUInt16
    · exact .inr (.inl ⟨not_not.mp pressed, full, if_pos full⟩)
    · have room := UInt16.lt_iff_toNat_lt.mp (UInt16.not_le.mp full)
      rw [UInt8.toNat_toUInt16] at room
      exact .inr (.inr ⟨not_not.mp pressed, room, if_neg full⟩)

theorem Sends.pushRefused (sends : Sends c w queue) (row : Nat → Int16)
    (refused : w.admission.2 = false) : PushStep c w queue row (w.pushSample row) := by
  have few := sends.few
  have channels := sends.channels
  have starts : w.startsBlock = false := by rw [Writer.startsBlock, refused, Bool.false_and]
  have writes : w.writesRow = false := by rw [Writer.writesRow, refused, Bool.false_and]
  -- both ways to be refused leave the count at zero
  have paused : ∃ flags, w.admission.1 = { w with flags := flags, samplesTillSync := 0 } := by
    rcases admission_cases w with ⟨flagged, same⟩ | ⟨-, -, same⟩ | ⟨-, -, same⟩
    · exact ⟨w.flags, by rw [same, ← sends.paused flagged]⟩
    · exact ⟨_, by rw [same]⟩
    · rw [same] at refused
      exact Bool.noConfusion refused
  obtain ⟨flags, admitted⟩ := paused
  have pushed : w.pushSample row =
      (({ w with flags := flags, samplesTillSync := 0 } : Writer).skipped row, false) := by
    rw [Writer.pushSample, starts, writes, refused, admitted,
      encodeRow_eq _ row (by show w.channels ≤ 256; omega)]
    rfl
  rw [pushed]
  exact .refused rfl ⟨sends.positive, few, channels, sends.reserve, sends.holds, fun _ => rfl⟩ rfl
    rfl

/-- What an accepted row finds: no backpressure, and more room than is reserved. -/
theorem Sends.admitted (sends : Sends c w queue) (admitted : w.admission.2 = true) :
    w.flags &&& backpressure = 0 ∧ 16 * c < w.stream.free.toNat ∧ w.admission.1 = w := by
  rcases admission_cases w with ⟨-, same⟩ | ⟨-, -, same⟩ | ⟨clear, room, same⟩
  · rw [same] at admitted
    exact Bool.noConfusion admitted
  · rw [same] at admitted
    exact Bool.noConfusion admitted
  · rw [sends.reserve] at room
    exact ⟨clear, room, by rw [same]⟩

theorem Sends.pushResync (sends : Sends c w queue) (row : Nat → Int16)
    (admitted : w.admission.2 = true) (till : w.samplesTillSync = 0) :
    PushStep c w queue row (w.pushSample row) := by
  obtain ⟨clear, room, same⟩ := sends.admitted admitted
  have few := sends.few
  have positive := sends.positive
  have channels := sends.channels
  have free := RingFast.free_toNat sends.holds.valid
  have starts : w.startsBlock = true := by
    rw [Writer.startsBlock, admitted, decide_eq_true till]
    rfl
  have writes : w.writesRow = false := by
    rw [Writer.writesRow, admitted, decide_eq_true till]
    rfl
  have fewSkipped : (w.skipped row).channels ≤ 255 := by
    show w.channels ≤ 255
    omega
  have pushed : w.pushSample row = ((w.skipped row).internalResync, true) := by
    rw [Writer.pushSample, starts, writes, same, admitted, encodeRow_eq w row (by omega)]
    rfl
  have count : (w.skipped row).channels = c := channels
  have length := resyncBlock_length fewSkipped
  have fits : (w.skipped row).stream.size.toNat + (w.skipped row).resyncBlock.length <
      (w.skipped row).stream.capacity_.toNat := by
    show w.stream.size.toNat + _ < w.stream.capacity_.toNat
    omega
  have before : Holds (w.skipped row).stream (w.skipped row).marks queue := sends.holds
  have some_ : (w.skipped row).resyncBlock ≠ [] := List.cons_ne_nil _ _
  have holds := before.control some_ (by omega) fits
  have stream : (w.skipped row).internalResync.stream =
      (w.skipped row).stream.pushAll (w.skipped row).resyncBlock := by
    rw [internalResync_eq]
  have marks : (w.skipped row).internalResync.marks = ((w.skipped row).marks.push
      ⟨(w.skipped row).stream.head, UInt8.ofNat (w.skipped row).resyncBlock.length⟩).1 := by
    rw [internalResync_eq]
  rw [← stream, ← marks] at holds
  rw [pushed]
  exact .resync rfl ⟨positive, few, channels, sends.reserve, holds,
    fun flagged => absurd clear flagged⟩ rfl rfl (by rw [← channels]; rfl)

theorem Sends.pushWritten (sends : Sends c w queue) (row : Nat → Int16)
    (admitted : w.admission.2 = true) (till : w.samplesTillSync ≠ 0) :
    PushStep c w queue row (w.pushSample row) := by
  obtain ⟨clear, room, same⟩ := sends.admitted admitted
  have few := sends.few
  have channels := sends.channels
  have free := RingFast.free_toNat sends.holds.valid
  have starts : w.startsBlock = false := by
    rw [Writer.startsBlock, admitted, decide_eq_false till]
    rfl
  have writes : w.writesRow = true := by
    rw [Writer.writesRow, admitted, decide_eq_false till]
    rfl
  have pushed : w.pushSample row =
      ({ w.skipped row with
          stream := w.stream.pushAll (w.rowBytes row c)
          samplesTillSync := w.samplesTillSync - 1 }, true) := by
    rw [Writer.pushSample, starts, writes, same, admitted, encodeRow_eq w row (by omega), channels]
    rfl
  have length := rowBytes_length w row c
  have fits : w.stream.size.toNat + (w.rowBytes row c).length < w.stream.capacity_.toNat := by
    omega
  have holds := sends.holds.samples fits
  rw [pushed]
  exact .written rfl writes till ⟨sends.positive, few, channels, sends.reserve, holds,
    fun flagged => absurd clear flagged⟩ rfl rfl (by rw [← channels]; rfl)

/-- **`pushSample`**, by what it does with the row. -/
theorem Sends.push (sends : Sends c w queue) (row : Nat → Int16) :
    PushStep c w queue row (w.pushSample row) := by
  cases admitted : w.admission.2 with
  | false => exact sends.pushRefused row admitted
  | true =>
    by_cases till : w.samplesTillSync = 0
    · exact sends.pushResync row admitted till
    · exact sends.pushWritten row admitted till

/-- **`flush`** appends a FLUSH, and ends the block. -/
theorem Sends.flush (sends : Sends c w queue) (flushed : w.flush.2 = true) :
    Sends c w.flush.1 (queue ++ [.control [flushCode]]) := by
  rw [Writer.flush] at flushed ⊢
  split at flushed
  · exact Bool.noConfusion flushed
  case isFalse room =>
    have more := UInt16.lt_iff_toNat_lt.mp (UInt16.not_le.mp room)
    have sixteen : controlReserve.toUInt16.toNat = 16 := rfl
    have free := RingFast.free_toNat sends.holds.valid
    have one : [flushCode].length = 1 := rfl
    have some_ : [flushCode] ≠ [] := List.cons_ne_nil _ _
    have holds := sends.holds.control some_ (by decide) (by omega)
    rw [if_neg room]
    exact ⟨sends.positive, sends.few, sends.channels, sends.reserve, holds, fun _ => rfl⟩

end Push

end ForgeDrive.Daq
