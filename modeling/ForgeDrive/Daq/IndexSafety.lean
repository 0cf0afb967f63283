/-
**The write index of the reader.**

`current_channel` is advanced by every token and set back only by `emitSample`, which returns
without doing so when the block is full.

`indexSafe_iff`: all writes to `dod_buf` and the index after every call stay below the channel count
exactly when no row is completed without room for it in the block, or the channel count is beyond
the range of the 8 bit index.
-/

import ForgeDrive.Daq.ReaderSteps

namespace ForgeDrive.Daq

open EventMachine (run run_cons Along along_cons)

/-! ### The property and the condition -/

/-- **The call is index-safe**: every write to `dod_buf` is below the channel count, and so is the
index after the call. -/
structure CallSafe (c : Nat) (r : Reader) (call : Call) : Prop where
  writes : ∀ index, .dodWrite index ∈ (r.decode call).2 → index < c
  index : (r.decode call).1.currentChannel.toNat < c

/-- A byte that ends the last residual of a row finds room for the row in the block. -/
def RowFits (r : Reader) (byte : UInt8) : Prop :=
  EndsToken r byte → r.currentChannel + 1 = r.channels → r.channels.toNat ≤ r.block.available

/-- Every byte of a sample chunk that is decoded does. -/
def CallFits (r : Reader) (call : Call) : Prop :=
  call.type = .sample → (r.begin_ call).2.1 = false → (r.begin_ call).1.inSync = true →
    Along Reader.decodeByte RowFits (r.begin_ call).1 call.bytes

/-! ### One byte -/

/-- The index is that of a channel. -/
structure Inside (c : Nat) (r : Reader) : Prop where
  channels : r.channels.toNat = c
  index : r.currentChannel.toNat < c

/-- The index is one beyond the channels, and the block is full. -/
structure Stuck (c : Nat) (r : Reader) : Prop where
  channels : r.channels.toNat = c
  index : r.currentChannel.toNat = c
  full : r.block.available < c

/-- **One byte, from an index inside**: what it writes is inside, and so is the index, unless the
byte completes a row without room. -/
theorem decodeByte_inside {c : Nat} {r : Reader} (inside : Inside c r) (byte : UInt8) :
    (∀ index, .dodWrite index ∈ (r.decodeByte byte).2 → index < c) ∧
      (RowFits r byte → Inside c (r.decodeByte byte).1) ∧
      (¬ RowFits r byte → Stuck c (r.decodeByte byte).1) := by
  obtain ⟨channelsEq, indexLt⟩ := inside
  have frame := decodeToken_frame r byte
  have channels : (r.decodeToken byte).1.channels.toNat = c := by rw [frame.channels, channelsEq]
  rcases tokenStep r byte with ⟨within, events, index, _⟩ | ⟨ends, events, index⟩
  case quiet =>
    have fits : RowFits r byte := fun ends => absurd ends within
    have more : (r.decodeToken byte).1.currentChannel ≠ r.channels := by
      rw [index, Ne, ← UInt8.toNat_inj]
      omega
    rw [decodeByte_more more, events]
    exact ⟨fun _ member => absurd member List.not_mem_nil,
      fun _ => ⟨channels, by rw [index]; exact indexLt⟩, fun full => absurd fits full⟩
  case writes =>
    have next := index_succ (r := r) (by omega)
    have here : ∀ written, .dodWrite written ∈ (r.decodeToken byte).2 → written < c := by
      intro written member
      rw [events, List.mem_singleton, Event.dodWrite.injEq] at member
      rw [member]
      exact indexLt
    by_cases last : r.currentChannel + 1 = r.channels
    · have lastToken := index.trans last
      rcases Nat.lt_or_ge r.block.available r.channels.toNat with full | room
      · have misfit : ¬ RowFits r byte := fun fits => Nat.not_le.mpr full (fits ends last)
        rw [decodeByte_full lastToken full]
        refine ⟨here, fun fits => absurd fits misfit, fun _ => ⟨channels, ?_, ?_⟩⟩
        · rw [lastToken, channelsEq]
        · rw [frame.block, ← channelsEq]
          exact full
      · rw [decodeByte_room lastToken room]
        exact ⟨here, fun _ => ⟨channels, Nat.zero_lt_of_lt indexLt⟩,
          fun misfit => absurd (fun _ _ => room) misfit⟩
    · have fits : RowFits r byte := fun _ same => absurd same last
      rw [decodeByte_more (by rw [index]; exact last)]
      refine ⟨here, fun _ => ⟨channels, ?_⟩, fun misfit => absurd fits misfit⟩
      rw [← UInt8.toNat_inj] at last
      rw [index]
      omega

/-- One byte, from an index beyond: it is written there, or nothing changes. -/
theorem decodeByte_stuck {c : Nat} {r : Reader} (stuck : Stuck c r) (byte : UInt8) :
    .dodWrite c ∈ (r.decodeByte byte).2 ∨ Stuck c (r.decodeByte byte).1 := by
  obtain ⟨channelsEq, indexEq, full⟩ := stuck
  have frame := decodeToken_frame r byte
  rcases tokenStep r byte with ⟨_, _, index, _⟩ | ⟨_, events, index⟩
  case quiet =>
    have last : (r.decodeToken byte).1.currentChannel = r.channels := by
      rw [index, ← UInt8.toNat_inj, channelsEq, indexEq]
    rw [decodeByte_full last (by rw [channelsEq]; exact full)]
    right
    exact ⟨by rw [frame.channels, channelsEq], by rw [index, indexEq],
      by rw [frame.block]; exact full⟩
  case writes =>
    left
    rw [Reader.decodeByte, events, indexEq]
    exact List.mem_singleton_self _

/-! ### One chunk -/

theorem run_stuck {c : Nat} {r : Reader} (stuck : Stuck c r) (bytes : List UInt8) :
    .dodWrite c ∈ (run Reader.decodeByte r bytes).2 ∨
      (run Reader.decodeByte r bytes).1.currentChannel.toNat = c := by
  induction bytes generalizing r with
  | nil => exact .inr stuck.index
  | cons byte rest ih =>
    rw [run_cons]
    rcases decodeByte_stuck stuck byte with written | stuck
    · exact .inl (List.mem_append_left _ written)
    · rcases ih stuck with later | index
      · exact .inl (List.mem_append_right _ later)
      · exact .inr index

/-- **One chunk, from an index inside**, stays inside exactly when every completed row fits. -/
theorem run_inside_iff {c : Nat} {r : Reader} (inside : Inside c r) (bytes : List UInt8) :
    ((∀ index, .dodWrite index ∈ (run Reader.decodeByte r bytes).2 → index < c) ∧
        (run Reader.decodeByte r bytes).1.currentChannel.toNat < c) ↔
      Along Reader.decodeByte RowFits r bytes := by
  induction bytes generalizing r with
  | nil =>
    exact ⟨fun _ => trivial,
      fun _ => ⟨fun _ member => (List.not_mem_nil member).elim, inside.index⟩⟩
  | cons byte rest ih =>
    obtain ⟨here, keep, leave⟩ := decodeByte_inside inside byte
    rw [run_cons, along_cons]
    by_cases fits : RowFits r byte
    · rw [← ih (keep fits)]
      simp only [List.mem_append, or_imp, forall_and]
      exact ⟨fun safe => ⟨fits, safe.1.2, safe.2⟩, fun safe => ⟨⟨here, safe.2.1⟩, safe.2.2⟩⟩
    · refine ⟨fun safe => ?_, fun along => absurd along.1 fits⟩
      rcases run_stuck (leave fits) rest with written | index
      · exact absurd (safe.1 c (List.mem_append_right _ written)) (Nat.lt_irrefl c)
      · exact absurd safe.2 (by rw [index]; exact Nat.lt_irrefl c)

/-! ### One call -/

/-- Before a chunk is decoded, nothing is written. -/
theorem begin_quiet (r : Reader) (call : Call) (index : Nat) :
    .dodWrite index ∉ (r.begin_ call).2.2 := by
  rcases begin_events r call with none_ | restarted
  · rw [none_]
    exact List.not_mem_nil
  · rw [restarted]
    simp

theorem decodeControl_quiet (r : Reader) (call : Call) (index : Nat) :
    .dodWrite index ∉ (r.decodeControl call).2 := by
  obtain ⟨error, answered⟩ := decodeControl_events r call
  rw [answered]
  simp

/-- Events that are not writes, around those that may be. -/
theorem writes_append {c : Nat} {before during : List Event}
    (quiet : ∀ index, .dodWrite index ∉ before) :
    (∀ index, .dodWrite index ∈ before ++ during → index < c) ↔
      ∀ index, .dodWrite index ∈ during → index < c := by
  simp only [List.mem_append, quiet, false_or]

/-- **One call, from an index inside**, is safe exactly when every row completed in it fits. -/
theorem callSafe_iff {c : Nat} {r : Reader} (inside : Inside c r) (call : Call) :
    CallSafe c r call ↔ CallFits r call := by
  have frame := begin_frame r call
  have quiet := begin_quiet r call
  have insideBegun : Inside c (r.begin_ call).1 :=
    ⟨by rw [frame.channels]; exact inside.channels, by rw [frame.index]; exact inside.index⟩
  by_cases empty : call.bytes = []
  · have same := decode_empty r empty
    refine ⟨fun _ _ _ _ => by rw [empty]; exact trivial, fun _ => ⟨?_, ?_⟩⟩
    · rw [same]
      simp
    · rw [same]
      exact inside.index
  · by_cases thrown : (r.begin_ call).2.1 = true
    · have same := decode_of_thrown empty thrown
      refine ⟨fun _ _ completes => absurd (thrown.symm.trans completes) (by decide),
        fun _ => ⟨?_, ?_⟩⟩
      · rw [same, writes_append quiet]
        simp
      · rw [same]
        exact insideBegun.index
    · have completes : (r.begin_ call).2.1 = false := eq_false_of_ne_true thrown
      have same := decode_of_begun empty completes
      -- only a sample chunk moves the index
      have parts : CallSafe c r call ↔
          (∀ index, .dodWrite index ∈ ((r.begin_ call).1.decodeBody call).2 → index < c) ∧
            ((r.begin_ call).1.decodeBody call).1.currentChannel.toNat < c := by
        rw [← writes_append quiet]
        exact ⟨fun safe => ⟨by have := safe.writes; rwa [same] at this,
            by have := safe.index; rwa [same] at this⟩,
          fun both => ⟨by rw [same]; exact both.1, by rw [same]; exact both.2⟩⟩
      rw [parts]
      unfold CallFits Reader.decodeBody
      cases call.type with
      | control =>
        refine ⟨fun _ kind => StreamType.noConfusion kind, fun _ => ⟨fun index member => ?_, ?_⟩⟩
        · exact absurd member (decodeControl_quiet _ _ _)
        · show ((r.begin_ call).1.decodeControl call).1.currentChannel.toNat < c
          rw [(decodeControl_frame _ _).index]
          exact insideBegun.index
      | sample =>
        by_cases synced : (r.begin_ call).1.inSync = true
        · simp only [if_pos synced]
          rw [completes, synced, ← run_inside_iff insideBegun]
          simp [Reader.decodeSample]
        · simp only [if_neg synced]
          refine ⟨fun _ _ _ inSync => absurd inSync synced, fun _ => ⟨by simp, insideBegun.index⟩⟩

/-- A byte writes at an index of 8 bits, whatever the channel count. -/
theorem decodeByte_write {r : Reader} {byte : UInt8} {index : Nat}
    (member : .dodWrite index ∈ (r.decodeByte byte).2) : index < 256 := by
  rcases tokenStep r byte with ⟨_, events, _, _⟩ | ⟨_, events, _⟩
  · rw [Reader.decodeByte, events] at member
    exact absurd member List.not_mem_nil
  · rw [Reader.decodeByte, events, List.mem_singleton, Event.dodWrite.injEq] at member
    rw [member]
    exact r.currentChannel.toNat_lt

theorem decodeBody_write {r : Reader} {call : Call} {index : Nat}
    (member : .dodWrite index ∈ (r.decodeBody call).2) : index < 256 := by
  unfold Reader.decodeBody at member
  split at member
  · exact absurd member (decodeControl_quiet _ _ _)
  · split at member
    · simp only [Reader.decodeSample, List.mem_append, List.mem_singleton, reduceCtorEq,
        or_false] at member
      obtain ⟨_, _, _, _, emitted⟩ := (EventMachine.mem_run_iff _ _ _ _).mp member
      exact decodeByte_write emitted
    · simp at member

/-- Beyond the range of the index, every call is safe. -/
theorem callSafe_of_wide {c : Nat} (wide : 255 < c) (r : Reader) (call : Call) :
    CallSafe c r call := by
  refine ⟨fun index member => ?_, ?_⟩
  · by_cases empty : call.bytes = []
    · rw [decode_empty r empty] at member
      simp at member
    · by_cases thrown : (r.begin_ call).2.1 = true
      · rw [decode_of_thrown empty thrown] at member
        simp [begin_quiet] at member
      · rw [decode_of_begun empty (eq_false_of_ne_true thrown)] at member
        simp only [List.mem_append, begin_quiet, false_or] at member
        have bound := decodeBody_write member
        omega
  · have bound := (r.decode call).1.currentChannel.toNat_lt
    omega

/-! ### Every run -/

/-- **The write index is safe exactly when every completed row fits.** For every channel count, and
every sequence of calls with arbitrary bytes and types: all writes to `dod_buf`, and the index after
each call, are below the channel count if and only if no byte of the run completes a row without
room for it in the block, or the count is beyond the range of the index. -/
theorem indexSafe_iff {c : Nat} (positive : 1 ≤ c) (scratchBuf : Nat → UInt8) (dodBuf : Nat → Int16)
    (ccs : Nat → ChannelState) (capacity : Nat) (calls : List Call) :
    Along Reader.decode (CallSafe c) (.new scratchBuf dodBuf ccs c c capacity) calls ↔
      255 < c ∨ Along Reader.decode CallFits (.new scratchBuf dodBuf ccs c c capacity) calls := by
  by_cases wide : 255 < c
  · exact ⟨fun _ => .inl wide, fun _ =>
      EventMachine.along_of_forall _ (callSafe_of_wide wide) _ calls⟩
  · rw [or_iff_right wide]
    refine EventMachine.along_congr _ (Inside c)
      (fun _ call inside => callSafe_iff inside call) (fun r call inside safe => ?_) ?_ calls
    · exact ⟨by rw [(decode_size r call).1]; exact inside.channels, safe.index⟩
    · refine ⟨?_, positive⟩
      show (if c = c then UInt8.ofNat c else 0).toNat = c
      rw [if_pos rfl, UInt8.toNat_ofNat']
      omega

/-- One channel, three samples: a resync block and one row are within what the block takes. -/
theorem indexSafe_iff_row :
    Along Reader.decode (CallSafe 1) (.new (fun _ => 0) (fun _ => 0) (fun _ => ⟨0, 0⟩) 1 1 3)
      [chunk .control [0xFF, 0, 0, 0, 1, 0, 5, 0, 1], chunk .sample [2]] :=
  (indexSafe_iff (le_refl 1) _ _ _ 3 _).mpr (.inr ⟨fun kind => StreamType.noConfusion kind,
    fun _ _ _ => ⟨fun _ _ => by decide +kernel, trivial⟩, trivial⟩)

/-- **A full block**: one channel, three samples. The rows behind the third sample are written at
index 0, then 1, then 2. -/
theorem indexSafe_fails :
    ¬ ∀ (scratchBuf : Nat → UInt8) (dodBuf : Nat → Int16) (ccs : Nat → ChannelState)
      (calls : List Call),
      Along Reader.decode (CallSafe 1) (.new scratchBuf dodBuf ccs 1 1 3) calls := by
  intro safe
  have run := safe (fun _ => 0) (fun _ => 0) (fun _ => ⟨0, 0⟩)
    [chunk .control [0xFF, 0, 0, 0, 1, 0, 5, 0, 1], chunk .sample [2, 2, 2, 2, 2]]
  exact absurd (run.2.1.writes 2 (by decide +kernel)) (by decide)

end ForgeDrive.Daq
