/-
**Rows that find the block full.**

`emitSample` answers `BLOCK_FULL` when the block has no room for a row, and `decodeSample` drops the
answer and returns `OK`; the index of the row parser then stays one beyond the channels.

`rowsReported_iff`: the rows that are lost are reported, and the block keeps whole rows and the
index stays below the channel count, exactly in the runs in which no row is lost: every row
completed by a byte finds room for it in the block.
-/

import ForgeDrive.Daq.IndexSafety

namespace ForgeDrive.Daq

open EventMachine (run run_concat_fst Along)

/-! ### The property -/

/-- The byte completes a row: it ends the residual of the last channel. -/
def CompletesRow (r : Reader) (byte : UInt8) : Prop :=
  EndsToken r byte ∧ r.currentChannel + 1 = r.channels

/-- **A row is dropped**: some byte of the chunk completes a row, and the samples of the block stay
as they are. -/
def Drops (r : Reader) (bytes : List UInt8) : Prop :=
  ∃ before byte after, bytes = before ++ byte :: after ∧
    CompletesRow (run Reader.decodeByte r before).1 byte ∧
    ((run Reader.decodeByte r before).1.decodeByte byte).1.block.samples =
      (run Reader.decodeByte r before).1.block.samples

/-- **Lost rows are reported**: a sample chunk, decoded by a synchronised reader, in which a row is
dropped is not answered with `OK`. And in every case the block holds whole rows, and the index is
that of a channel. -/
structure RowsReported (c : Nat) (r : Reader) (call : Call) : Prop where
  reported : call.type = .sample → r.inSync = true → Drops (r.begin_ call).1 call.bytes →
    .returned .ok ∉ (r.decode call).2
  rows : c ∣ (r.decode call).1.block.samples.length
  index : (r.decode call).1.currentChannel.toNat < c

/-! ### One chunk -/

/-- A reader between two calls: the index is that of a channel, and the block holds whole rows. -/
structure WholeRows (c : Nat) (r : Reader) : Prop where
  inside : Inside c r
  rows : c ∣ r.block.samples.length

theorem row_length (r : Reader) (count : Nat) : (r.row count).length = count := by
  rw [Reader.row, List.length_map, List.length_range]

/-- One byte, where a row it completes finds room. -/
theorem decodeByte_wholeRows {c : Nat} {r : Reader} (whole : WholeRows c r) {byte : UInt8}
    (fits : RowFits r byte) : WholeRows c (r.decodeByte byte).1 := by
  refine ⟨(decodeByte_inside whole.inside byte).2.1 fits, ?_⟩
  have frame := decodeToken_frame r byte
  by_cases last : (r.decodeToken byte).1.currentChannel = r.channels
  · rcases Nat.lt_or_ge r.block.available r.channels.toNat with full | room
    · rw [decodeByte_full last full, frame.block]
      exact whole.rows
    · rw [decodeByte_room last room]
      show c ∣ ((r.decodeToken byte).1.block.samples ++ _).length
      rw [List.length_append, row_length, frame.block, frame.channels, whole.inside.channels]
      exact Nat.dvd_add whole.rows (dvd_refl c)
  · rw [decodeByte_more last, frame.block]
    exact whole.rows

/-- A chunk whose completed rows find room. -/
theorem run_wholeRows {c : Nat} {r : Reader} (whole : WholeRows c r) {bytes : List UInt8}
    (fits : Along Reader.decodeByte RowFits r bytes) :
    WholeRows c (run Reader.decodeByte r bytes).1 := by
  induction bytes generalizing r with
  | nil => exact whole
  | cons byte rest ih => exact ih (decodeByte_wholeRows whole fits.1) fits.2

/-- Behind a byte that completes a row the index is one beyond the channels. -/
theorem token_completes {r : Reader} {byte : UInt8} (completes : CompletesRow r byte) :
    (r.decodeToken byte).1.currentChannel = r.channels := by
  obtain ⟨ends, last⟩ := completes
  rcases tokenStep r byte with ⟨within, -, -, -⟩ | ⟨-, -, index⟩
  · exact absurd ends within
  · rw [index, last]

/-- **A row is dropped exactly where it does not fit.** -/
theorem drops_iff {c : Nat} (positive : 1 ≤ c) {r : Reader} (channels : r.channels.toNat = c)
    (bytes : List UInt8) : Drops r bytes ↔ ¬ Along Reader.decodeByte RowFits r bytes := by
  rw [EventMachine.along_iff_every]
  constructor
  · rintro ⟨before, byte, after, split, ⟨ends, last⟩, kept⟩ every
    set t := (run Reader.decodeByte r before).1
    have room := every before byte after split ends last
    have same : t.channels = r.channels := (decodeSample_frame r before).channels
    rw [decodeByte_room (token_completes ⟨ends, last⟩) room] at kept
    have lengths := congrArg List.length kept
    have frame := decodeToken_frame t byte
    change ((t.decodeToken byte).1.block.samples ++ _).length = _ at lengths
    rw [List.length_append, row_length, frame.block, frame.channels, same, channels] at lengths
    omega
  · intro misfit
    by_contra none
    refine misfit fun before byte after split ends last => ?_
    by_contra full
    refine none ⟨before, byte, after, split, ⟨ends, last⟩, ?_⟩
    set t := (run Reader.decodeByte r before).1
    rw [decodeByte_full (token_completes ⟨ends, last⟩) (Nat.not_le.mp full),
      (decodeToken_frame _ byte).block]

/-! ### One call -/

section Call

variable {c : Nat} {r : Reader}

/-- A block with room for a row: the restart does not throw, and leaves one row in the block. -/
theorem begin_wholeRows (whole : WholeRows c r) (positive : 1 ≤ c) (room : c ≤ r.block.capacity)
    (call : Call) : (r.begin_ call).2.1 = false ∧ WholeRows c (r.begin_ call).1 := by
  have frame := begin_frame r call
  have channels := whole.inside.channels
  have inside : Inside c (r.begin_ call).1 :=
    ⟨by rw [frame.channels, channels], by rw [frame.index]; exact whole.inside.index⟩
  unfold Reader.begin_ at inside ⊢
  split at inside
  · rename_i restarts
    rw [if_pos restarts,
      syncUpdate_room _ (Nat.lt_of_lt_of_le positive room) (channels ▸ room)] at *
    refine ⟨rfl, inside, ?_⟩
    show c ∣ (r.syncSamples call.beyond r.channels.toNat).length
    rw [syncSamples_length, channels]
  · rename_i parsing
    rw [if_neg parsing]
    exact ⟨rfl, inside, whole.rows⟩

/-- A sample chunk that a synchronised reader decodes is answered with `OK`. -/
theorem decode_sample_ok {call : Call} (kind : call.type = .sample) (some_ : call.bytes ≠ [])
    (completes : (r.begin_ call).2.1 = false) (synced : (r.begin_ call).1.inSync = true) :
    .returned .ok ∈ (r.decode call).2 := by
  rw [decode_of_begun some_ completes, Reader.decodeBody]
  simp only [kind, if_pos synced, Reader.decodeSample]
  exact List.mem_append_right _ (List.mem_append_right _ (List.mem_singleton_self _))

/-- The block after a call holds whole rows, where the rows completed in it fit. -/
theorem decode_wholeRows (whole : WholeRows c r) (positive : 1 ≤ c) (room : c ≤ r.block.capacity)
    {call : Call} (fits : CallFits r call) : WholeRows c (r.decode call).1 := by
  obtain ⟨completes, begun⟩ := begin_wholeRows whole positive room call
  by_cases empty : call.bytes = []
  · rw [decode_empty r empty]
    exact whole
  · rw [decode_of_begun empty completes]
    show WholeRows c ((r.begin_ call).1.decodeBody call).1
    unfold Reader.decodeBody
    cases kind : call.type with
    | control =>
      have frame := decodeControl_frame (r.begin_ call).1 call
      exact ⟨⟨by rw [frame.channels]; exact begun.inside.channels,
        by rw [frame.index]; exact begun.inside.index⟩, by rw [frame.samples]; exact begun.rows⟩
    | sample =>
      by_cases synced : (r.begin_ call).1.inSync = true
      · simp only [if_pos synced]
        exact run_wholeRows begun (fits kind completes synced)
      · simp only [if_neg synced]
        exact begun

/-- **One call** reports what is lost exactly where nothing is: where every row completed in it
fits. -/
theorem rowsReported_call_iff (whole : WholeRows c r) (positive : 1 ≤ c)
    (room : c ≤ r.block.capacity) (call : Call) :
    RowsReported c r call ↔ CallFits r call := by
  obtain ⟨completes, begun⟩ := begin_wholeRows whole positive room call
  have inSync := (begin_frame r call).inSync
  have drops := drops_iff positive begun.inside.channels call.bytes
  constructor
  · intro reported kind _ synced
    by_contra misfit
    have some_ : call.bytes ≠ [] := by
      intro empty
      rw [empty] at misfit
      exact misfit trivial
    exact reported.reported kind (inSync ▸ synced) (drops.mpr misfit)
      (decode_sample_ok kind some_ completes synced)
  · intro fits
    have after := decode_wholeRows whole positive room fits
    refine ⟨fun kind synced dropped => ?_, after.rows, after.inside.index⟩
    exact absurd (fits kind completes (inSync.trans synced)) (drops.mp dropped)

end Call

/-! ### Every run -/

/-- **When lost rows are reported**: for every channel count of the index's range, every block with
room for a row, and every sequence of calls with arbitrary bytes and types — exactly if no row is
lost. -/
theorem rowsReported_iff {c : Nat} (positive : 1 ≤ c) (byte : c ≤ 255) {capacity : Nat}
    (room : c ≤ capacity) (scratchBuf : Nat → UInt8) (dodBuf : Nat → Int16)
    (ccs : Nat → ChannelState) (calls : List Call) :
    Along Reader.decode (RowsReported c) (.new scratchBuf dodBuf ccs c c capacity) calls ↔
      Along Reader.decode CallFits (.new scratchBuf dodBuf ccs c c capacity) calls := by
  refine EventMachine.along_congr _ (fun r => WholeRows c r ∧ r.block.capacity = capacity)
    (fun r call invariant => rowsReported_call_iff invariant.1 positive
      (room.trans invariant.2.ge) call)
    (fun r call invariant reported => ⟨⟨⟨?_, reported.index⟩, reported.rows⟩,
      (decode_size r call).2.trans invariant.2⟩) ?_ calls
  · rw [(decode_size r call).1]
    exact invariant.1.inside.channels
  · refine ⟨⟨⟨?_, positive⟩, Nat.dvd_zero c⟩, rfl⟩
    show (if c = c then UInt8.ofNat c else 0).toNat = c
    rw [if_pos rfl, UInt8.toNat_ofNat']
    omega

/-- One channel, a block of three samples: the row of the resync block and one more. -/
theorem rowsReported_iff_row :
    Along Reader.decode (RowsReported 1) (.new (fun _ => 0) (fun _ => 0) (fun _ => ⟨0, 0⟩) 1 1 3)
      [chunk .control [0xFF, 0, 0, 0, 1, 0, 5, 0, 1], chunk .sample [2]] :=
  (rowsReported_iff (le_refl 1) (by decide) (by decide) _ _ _ _).mpr
    ⟨fun kind => StreamType.noConfusion kind,
      fun _ _ _ => ⟨fun _ _ => by decide +kernel, trivial⟩, trivial⟩

/-- A block of two samples, and two rows behind the one of the resync block: the second finds no
room, and the call returns `OK`. -/
theorem not_always_rowsReported :
    ¬ ∀ (c capacity : Nat) (scratchBuf : Nat → UInt8) (dodBuf : Nat → Int16)
      (ccs : Nat → ChannelState) (calls : List Call), 1 ≤ c → c ≤ 14 → c ≤ capacity →
      Along Reader.decode (RowsReported c) (.new scratchBuf dodBuf ccs c c capacity) calls := by
  intro always
  have run := always 1 2 (fun _ => 0) (fun _ => 0) (fun _ => ⟨0, 0⟩)
    [chunk .control [0xFF, 0, 0, 0, 1, 0, 5, 0, 1], chunk .sample [2, 2]] (by decide) (by decide)
    (by decide)
  exact absurd run.2.1.index (by decide +kernel)

end ForgeDrive.Daq
