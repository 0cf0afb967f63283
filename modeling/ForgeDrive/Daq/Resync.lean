/-
**What a resync block does not restore.**

Two readers with different pasts are given the same resync block and the same sample chunks. The
restart reads the samples and the channel states from the block and the parser state is set back,
but `current_channel`, `state_rem`, and the residuals already in `dod_buf` stay as they were.

`resynchronises_iff`: the two readers agree from the first byte behind the block on exactly when they
agree in these (and, for a block without room for one row, in what is left of the restart that threw).
-/

import ForgeDrive.Daq.ReaderSteps

namespace ForgeDrive.Daq

open EventMachine (run run_cons run_append_fst)
open Circular (store)

/-! ### The property and the condition -/

/-- A reader that earlier calls have left. -/
def Reached (c capacity : Nat) (r : Reader) : Prop :=
  ∃ scratchBuf dodBuf ccs calls,
    r = (run Reader.decode (.new scratchBuf dodBuf ccs c c capacity) calls).1

/-- The same samples, channel states, and parser position. -/
structure SamePosition (c : Nat) (r other : Reader) : Prop where
  samples : other.block.samples = r.block.samples
  ccs : ∀ i < c, other.ccs i = r.ccs i
  state : other.state = r.state
  stateRem : other.stateRem = r.stateRem
  index : other.currentChannel = r.currentChannel

/-- **A resync block resynchronises**: after any well-formed block and any sample chunks, of which one
at least is not empty, both readers hold the same. An empty chunk is not decoded, and the restart is
left for the next one. -/
def Resynchronises (c : Nat) (r other : Reader) : Prop :=
  ∀ block chunks, resyncs r.channels block = true → (∀ chunk ∈ chunks, chunk.type = .sample) →
    (∃ chunk ∈ chunks, chunk.bytes ≠ []) →
    SamePosition c (run Reader.decode r (block :: chunks)).1
      (run Reader.decode other (block :: chunks)).1

/-- **What the readers have to agree in** already. -/
structure SameRest (c capacity : Nat) (r other : Reader) : Prop where
  index : other.currentChannel = r.currentChannel
  stateRem : other.stateRem = r.stateRem
  dods : 2 * c ≤ capacity → r.currentChannel.toNat ≤ c →
    ∀ i < r.currentChannel.toNat, other.dodBuf i = r.dodBuf i
  ccs : ∀ i, capacity ≤ i → i < c → other.ccs i = r.ccs i
  inSync : 0 < capacity → capacity < c → other.inSync = r.inSync
  scratch : 0 < capacity → capacity < c → r.inSync = true →
    ∀ beyond, ∀ i < capacity, other.scratchState beyond i = r.scratchState beyond i

/-! ### Two readers on the same bytes -/

/-- The readers agree in all that decoding reads. -/
structure Aligned (c : Nat) (r other : Reader) : Prop where
  channels : r.channels.toNat = c
  channelsOther : other.channels = r.channels
  index : other.currentChannel = r.currentChannel
  state : other.state = r.state
  stateRem : other.stateRem = r.stateRem
  samples : other.block.samples = r.block.samples
  capacity : other.block.capacity = r.block.capacity
  ccs : ∀ i < c, other.ccs i = r.ccs i
  scratch : ∀ i < 2, other.scratchBuf i = r.scratchBuf i
  dods : c ≤ r.block.available → r.currentChannel.toNat ≤ c →
    ∀ i < r.currentChannel.toNat, other.dodBuf i = r.dodBuf i

namespace Aligned

variable {c : Nat} {r other : Reader}

theorem samePosition (aligned : Aligned c r other) : SamePosition c r other :=
  ⟨aligned.samples, aligned.ccs, aligned.state, aligned.stateRem, aligned.index⟩

theorem available (aligned : Aligned c r other) : other.block.available = r.block.available := by
  rw [SampleBlock.available, SampleBlock.available, aligned.samples, aligned.capacity]

/-- A step within a token. -/
theorem within (aligned : Aligned c r other) (state : ReaderState) (stateRem : UInt8)
    {scratch scratchOther : Nat → UInt8} (same : ∀ i < 2, scratchOther i = scratch i) :
    Aligned c { r with state := state, stateRem := stateRem, scratchBuf := scratch }
      { other with state := state, stateRem := stateRem, scratchBuf := scratchOther } :=
  ⟨aligned.channels, aligned.channelsOther, aligned.index, rfl, rfl, aligned.samples,
    aligned.capacity, aligned.ccs, same, aligned.dods⟩

/-- The same byte stored in both scratch arrays. -/
theorem store (aligned : Aligned c r other) (index : Nat) (byte : UInt8) :
    ∀ i < 2, Function.update other.scratchBuf index byte i =
      Function.update r.scratchBuf index byte i := by
  intro i inside
  rw [Function.update_apply, Function.update_apply, aligned.scratch i inside]

theorem writeDod (aligned : Aligned c r other) (value : Int16) :
    Aligned c (r.writeDod value).1 (other.writeDod value).1 := by
  refine ⟨aligned.channels, aligned.channelsOther, ?_, aligned.state, aligned.stateRem,
    aligned.samples, aligned.capacity, aligned.ccs, aligned.scratch, fun room within i inside => ?_⟩
  · show other.currentChannel + 1 = r.currentChannel + 1
    rw [aligned.index]
  · have next : (r.currentChannel + 1).toNat = (r.currentChannel.toNat + 1) % 256 :=
      UInt8.toNat_add _ _
    have bound := r.currentChannel.toNat_lt
    have step : (r.writeDod value).1.currentChannel.toNat = (r.currentChannel + 1).toNat := rfl
    rw [step, next] at within inside
    show Function.update other.dodBuf other.currentChannel.toNat value i =
      Function.update r.dodBuf r.currentChannel.toNat value i
    rw [aligned.index, Function.update_apply, Function.update_apply]
    refine ite_congr rfl (fun _ => rfl) fun before => ?_
    exact aligned.dods room (by omega) i (by omega)

theorem scratchValue (aligned : Aligned c r other) : other.scratchValue = r.scratchValue := by
  rw [Reader.scratchValue, Reader.scratchValue, aligned.scratch 0 (by decide),
    aligned.scratch 1 (by decide)]

theorem finishToken (aligned : Aligned c r other) :
    Aligned c r.finishToken.1 other.finishToken.1 := by
  have counted : Aligned c { r with stateRem := r.stateRem - 1 }
      { other with stateRem := r.stateRem - 1 } :=
    aligned.state ▸ aligned.within r.state (r.stateRem - 1) aligned.scratch
  simp only [Reader.finishToken, aligned.stateRem]
  split
  · rw [counted.scratchValue]
    exact (counted.writeDod _).within .dod (r.stateRem - 1) counted.scratch
  · exact counted

theorem decodeDod (aligned : Aligned c r other) (byte : UInt8) :
    Aligned c (r.decodeDod byte).1 (other.decodeDod byte).1 := by
  unfold Reader.decodeDod
  split
  · split
    · exact aligned.within .large16 2 aligned.scratch
    · exact aligned
  · split
    · exact aligned.within .virtualBits 1 (aligned.store 0 _)
    · exact aligned.writeDod _

theorem decodeToken (aligned : Aligned c r other) (byte : UInt8) :
    Aligned c (r.decodeToken byte).1 (other.decodeToken byte).1 := by
  have stored : ∀ index, Aligned c
      { r with scratchBuf := Function.update r.scratchBuf index byte }
      { other with scratchBuf := Function.update other.scratchBuf index byte } := fun index =>
    ⟨aligned.channels, aligned.channelsOther, aligned.index, aligned.state, aligned.stateRem,
      aligned.samples, aligned.capacity, aligned.ccs, aligned.store index byte, aligned.dods⟩
  unfold Reader.decodeToken
  rw [aligned.state]
  split
  · exact aligned.decodeDod byte
  · have place : (2 - other.stateRem).toNat = (2 - r.stateRem).toNat := by rw [aligned.stateRem]
    rw [Reader.decodeLarge16, Reader.decodeLarge16, place]
    exact (stored _).finishToken
  · exact (stored 1).finishToken
  · exact aligned

/-- A row completed with room: both decode the same residuals. -/
theorem rowEmitted (aligned : Aligned c r other) (last : r.currentChannel = r.channels)
    (room : c ≤ r.block.available) : Aligned c r.rowEmitted other.rowEmitted := by
  have channels := aligned.channels
  have dods : ∀ i < c, other.dodBuf i = r.dodBuf i := by
    have all := aligned.dods room (by rw [last, channels])
    rwa [last, channels] at all
  have row : other.row c = r.row c := by
    apply List.map_congr_left
    intro i member
    have inside := List.mem_range.mp member
    rw [aligned.ccs i inside, dods i inside]
  have channelsOther : other.channels.toNat = c := by rw [aligned.channelsOther, channels]
  refine ⟨channels, aligned.channelsOther, rfl, aligned.state, aligned.stateRem, ?_,
    aligned.capacity, fun i inside => ?_, aligned.scratch,
    fun _ _ i inside => absurd inside (Nat.not_lt_zero i)⟩
  · show other.block.samples ++ other.row other.channels.toNat =
      r.block.samples ++ r.row r.channels.toNat
    rw [aligned.samples, channelsOther, channels, row]
  · show other.rowStates other.channels.toNat i = r.rowStates r.channels.toNat i
    rw [Reader.rowStates, Reader.rowStates, channelsOther, channels, if_pos inside, if_pos inside,
      aligned.ccs i inside, dods i inside]

/-- **One byte keeps two readers aligned.** -/
theorem decodeByte (aligned : Aligned c r other) (byte : UInt8) :
    Aligned c (r.decodeByte byte).1 (other.decodeByte byte).1 := by
  have token := aligned.decodeToken byte
  have frame := decodeToken_frame r byte
  have channelsOther := aligned.channelsOther
  by_cases last : (r.decodeToken byte).1.currentChannel = r.channels
  · have lastOther : (other.decodeToken byte).1.currentChannel = other.channels := by
      rw [token.index, channelsOther, last]
    rcases Nat.lt_or_ge r.block.available r.channels.toNat with full | room
    · rw [decodeByte_full last full, decodeByte_full lastOther
        (by rw [aligned.available, channelsOther]; exact full)]
      exact token
    · rw [decodeByte_room last room, decodeByte_room lastOther
        (by rw [aligned.available, channelsOther]; exact room)]
      apply token.rowEmitted (by rw [frame.channels]; exact last)
      rw [frame.block, ← aligned.channels]
      exact room
  · rw [decodeByte_more last, decodeByte_more (by rw [token.index, channelsOther]; exact last)]
    exact token

theorem run (aligned : Aligned c r other) (bytes : List UInt8) :
    Aligned c (EventMachine.run Reader.decodeByte r bytes).1
      (EventMachine.run Reader.decodeByte other bytes).1 :=
  EventMachine.run_related _ _ (Aligned c) (fun _ _ byte aligned => aligned.decodeByte byte) aligned
    bytes

end Aligned

/-! ### The block and the restart -/

/-- The reader after a resync block was stashed. -/
def Reader.stashed (r : Reader) (call : Call) : Reader :=
  { r with
    scratchBuf := store r.scratchBuf 0 (call.bytes.tail ++ [call.past])
    block := { r.block with ready := if r.inSync then true else r.block.ready }
    inSync := true
    state := .sample }

/-- The reader after the restart from its scratch array. -/
def Reader.restarted (r : Reader) (beyond : Nat → UInt8) : Reader :=
  { r.resynced beyond r.channels.toNat with
    block := { (r.resynced beyond r.channels.toNat).block with ready := false }
    state := .dod }

section Block

variable {r : Reader} {block : Call}

theorem expectedSize_toNat {channels : UInt8} (few : channels.toNat ≤ 14) :
    (expectedSize channels).toNat = 5 + 4 * channels.toNat := by
  rw [expectedSize, UInt8.toNat_add, UInt8.toNat_add, UInt8.toNat_mul]
  show ((4 + 4 * channels.toNat % 256) % 256 + 1) % 256 = _
  omega

theorem resyncs_length {channels : UInt8} (few : channels.toNat ≤ 14)
    (wellFormed_ : resyncs channels block = true) :
    block.bytes.length = 5 + 4 * channels.toNat := by
  simp only [resyncs, wellFormed, Bool.and_eq_true, decide_eq_true_eq] at wellFormed_
  rw [wellFormed_.2.1, expectedSize_toNat few]

theorem resyncs_some {channels : UInt8} (wellFormed_ : resyncs channels block = true) :
    block.bytes ≠ [] := by
  intro empty
  rw [(rejected_of_empty channels empty).2] at wellFormed_
  exact Bool.false_ne_true wellFormed_

/-- **A resync block** is stashed, unless a restart before it throws. -/
theorem decode_resync (wellFormed_ : resyncs r.channels block = true)
    (begun : (r.begin_ block).2.1 = false) :
    (r.decode block).1 = (r.begin_ block).1.stashed block := by
  have same := (begin_frame r block).channels
  have control : block.type = .control := (resyncs_iff.mp wellFormed_).1
  have fits : wellFormed (r.begin_ block).1.channels block.bytes.length = true := by
    rw [same]
    exact (resyncs_iff.mp wellFormed_).2.2
  have body : (r.begin_ block).1.decodeBody block = (r.begin_ block).1.decodeControl block := by
    rw [Reader.decodeBody, control]
  rw [decode_of_begun (resyncs_some wellFormed_) begun, body]
  rcases controlStep (r.begin_ block).1 control with ⟨_, notResync, _⟩ | ⟨_, _, taken⟩ |
    ⟨_, notResync, _⟩
  · rw [same, wellFormed_] at notResync
    exact absurd notResync.symm Bool.false_ne_true
  · rw [taken, Reader.decodeResyncDod, if_pos fits]
    rfl
  · rw [same, wellFormed_] at notResync
    exact absurd notResync.symm Bool.false_ne_true

/-- What was stashed is read back: the scratch arrays of two readers agree. -/
theorem stashed_scratch (other : Reader) {i : Nat} (inside : i < block.bytes.length) :
    (other.stashed block).scratchBuf i = (r.stashed block).scratchBuf i := by
  have length : i < (block.bytes.tail ++ [block.past]).length := by
    rw [List.length_append, List.length_tail, List.length_singleton]
    omega
  have first := Circular.store_apply_of_lt r.scratchBuf 0 length
  have second := Circular.store_apply_of_lt other.scratchBuf 0 length
  rw [Nat.zero_add] at first second
  exact second.trans first.symm

/-- A channel state of the scratch array is read from its own four bytes. -/
theorem scratchState_congr {other : Reader} (beyond beyondOther : Nat → UInt8) {bound : Nat}
    (few : bound ≤ scratchSize)
    (agree : ∀ i < bound, other.scratchBuf i = r.scratchBuf i) {i : Nat}
    (inside : 8 + 4 * i ≤ bound) :
    other.scratchState beyondOther i = r.scratchState beyond i := by
  have size : scratchSize = 64 := rfl
  have cell : ∀ index < bound, other.scratchAt beyondOther index = r.scratchAt beyond index := by
    intro index below
    rw [Reader.scratchAt, Reader.scratchAt, Nat.mod_eq_of_lt (by omega), if_pos (by omega),
      if_pos (by omega), agree index below]
  rw [Reader.scratchState, Reader.scratchState, cell _ (by omega), cell _ (by omega),
    cell _ (by omega), cell _ (by omega)]

/-- Two readers that stashed one block restart from the same channel states. -/
theorem stashed_scratchState (other : Reader) {channels : UInt8} (few : channels.toNat ≤ 14)
    (wellFormed_ : resyncs channels block = true) (beyond : Nat → UInt8) {i : Nat}
    (inside : i < channels.toNat) :
    (other.stashed block).scratchState beyond i = (r.stashed block).scratchState beyond i := by
  have length := resyncs_length few wellFormed_
  have size : scratchSize = 64 := rfl
  exact scratchState_congr beyond beyond (show block.bytes.length ≤ scratchSize by omega)
    (fun index below => stashed_scratch other below) (by omega)

end Block

/-! ### Sample chunks -/

/-- Without a restart ahead, sample chunks are decoded byte by byte. -/
theorem run_parsing {r : Reader} (synced : r.inSync = true) (parsing : r.state ≠ .sample)
    {chunks : List Call} (samples : ∀ chunk ∈ chunks, chunk.type = .sample) :
    (run Reader.decode r chunks).1 =
      (run Reader.decodeByte r (chunks.flatMap Call.bytes)).1 := by
  induction chunks generalizing r with
  | nil => rfl
  | cons chunk rest ih =>
    rw [List.forall_mem_cons] at samples
    have frame := decodeSample_frame r chunk.bytes
    have same : (r.decode chunk).1 = (run Reader.decodeByte r chunk.bytes).1 := by
      by_cases empty : chunk.bytes = []
      · rw [decode_empty r empty, empty]
        rfl
      · have begun := begin_of_parsing parsing chunk
        rw [decode_of_begun empty (by rw [begun]), begun]
        show (r.decodeBody chunk).1 = _
        rw [Reader.decodeBody, samples.1]
        simp only [if_pos synced, Reader.decodeSample]
    rw [run_cons, List.flatMap_cons, run_append_fst, ← same]
    refine ih ?_ ?_ samples.2
    · rw [same]
      exact frame.inSync.trans synced
    · rw [same, Ne]
      exact fun other => parsing (frame.parsing.mp other)

/-- **The first bytes behind a resync block** restart the block. -/
theorem run_waiting {r : Reader} (synced : r.inSync = true) (state : r.state = .sample)
    (positive : 0 < r.block.capacity) (room : r.channels.toNat ≤ r.block.capacity)
    {skipped rest : List Call} {call : Call} (empty : ∀ chunk ∈ skipped, chunk.bytes = [])
    (some_ : call.bytes ≠ []) (sample : call.type = .sample)
    (samples : ∀ chunk ∈ rest, chunk.type = .sample) :
    (run Reader.decode r (skipped ++ call :: rest)).1 =
      (run Reader.decodeByte (r.restarted call.beyond)
        ((call :: rest).flatMap Call.bytes)).1 := by
  induction skipped with
  | nil =>
    have begun : r.begin_ call = (r.restarted call.beyond, false, [.restarted]) :=
      (if_pos ⟨synced, state⟩).trans (syncUpdate_room call.beyond positive room)
    have parsing : (r.restarted call.beyond).state ≠ .sample := ReaderState.noConfusion
    have again := begin_of_parsing parsing call
    have same : (r.decode call).1 = ((r.restarted call.beyond).decode call).1 := by
      rw [decode_of_begun some_ (by rw [begun]), begun, decode_of_begun some_ (by rw [again]),
        again]
    rw [List.nil_append, run_cons, same,
      ← run_parsing (r := r.restarted call.beyond) synced parsing
        (List.forall_mem_cons.mpr ⟨sample, samples⟩)]
    rfl
  | cons chunk skipped ih =>
    rw [List.forall_mem_cons] at empty
    rw [List.cons_append, run_cons, decode_empty r empty.1]
    exact ih empty.2

/-- The first chunk with a byte. -/
theorem exists_first_some {chunks : List Call} (some_ : ∃ chunk ∈ chunks, chunk.bytes ≠ []) :
    ∃ skipped call rest, chunks = skipped ++ call :: rest ∧ call.bytes ≠ [] ∧
      ∀ chunk ∈ skipped, chunk.bytes = [] := by
  induction chunks with
  | nil =>
    obtain ⟨chunk, member, -⟩ := some_
    exact absurd member List.not_mem_nil
  | cons head rest ih =>
    by_cases empty : head.bytes = []
    · have later : ∃ chunk ∈ rest, chunk.bytes ≠ [] := by
        obtain ⟨chunk, member, nonempty⟩ := some_
        rcases List.mem_cons.mp member with rfl | member
        · exact absurd empty nonempty
        · exact ⟨chunk, member, nonempty⟩
      obtain ⟨skipped, call, behind, split, nonempty, skippedEmpty⟩ := ih later
      exact ⟨head :: skipped, call, behind, by rw [split]; rfl, nonempty,
        List.forall_mem_cons.mpr ⟨empty, skippedEmpty⟩⟩
    · exact ⟨[], head, rest, rfl, empty, fun _ member => absurd member List.not_mem_nil⟩

/-! ### A block with room for a row -/

/-- The reader at the first byte behind a resync block. -/
def Reader.resumed (r : Reader) (block : Call) (beyond : Nat → UInt8) : Reader :=
  ((r.begin_ block).1.stashed block).restarted beyond

/-- What it has kept, and what is new. -/
structure Resumed (c capacity : Nat) (r result : Reader) : Prop where
  channels : result.channels.toNat = c
  index : result.currentChannel = r.currentChannel
  stateRem : result.stateRem = r.stateRem
  dodBuf : result.dodBuf = r.dodBuf
  state : result.state = .dod
  capacity : result.block.capacity = capacity
  length : result.block.samples.length = c

section Room

variable {c capacity : Nat} {r other : Reader} {block : Call}

theorem begin_room (positive : 0 < r.block.capacity) (room : r.channels.toNat ≤ r.block.capacity)
    (call : Call) : (r.begin_ call).2.1 = false := by
  unfold Reader.begin_
  split
  · rw [syncUpdate_room _ positive room]
  · rfl

theorem resumed (channels : r.channels.toNat = c) (size : r.block.capacity = capacity)
    (block : Call) (beyond : Nat → UInt8) : Resumed c capacity r (r.resumed block beyond) := by
  have frame := begin_frame r block
  have count : (r.begin_ block).1.channels.toNat = c := by rw [frame.channels, channels]
  refine ⟨count, frame.index, frame.stateRem, frame.dodBuf, rfl, frame.capacity.trans size, ?_⟩
  exact (syncSamples_length _ beyond _).trans count

theorem run_resync_room (positive : 1 ≤ c) (channels : r.channels.toNat = c)
    (size : r.block.capacity = capacity) (room : c ≤ capacity)
    (wellFormed_ : resyncs r.channels block = true) {skipped rest : List Call} {call : Call}
    (empty : ∀ chunk ∈ skipped, chunk.bytes = []) (some_ : call.bytes ≠ [])
    (sample : call.type = .sample) (samples : ∀ chunk ∈ rest, chunk.type = .sample) :
    (run Reader.decode r (block :: (skipped ++ call :: rest))).1 =
      (run Reader.decodeByte (r.resumed block call.beyond)
        ((call :: rest).flatMap Call.bytes)).1 := by
  have frame := begin_frame r block
  have begun := begin_room (r := r) (by omega) (by omega) block
  rw [run_cons, decode_resync wellFormed_ begun]
  refine run_waiting rfl rfl ?_ ?_ empty some_ sample samples
  · show 0 < (r.begin_ block).1.block.capacity
    rw [frame.capacity]
    omega
  · show (r.begin_ block).1.channels.toNat ≤ (r.begin_ block).1.block.capacity
    rw [frame.channels, frame.capacity]
    omega

/-- The samples and the channel states at the first byte are those of the block. -/
theorem resumed_congr (few : c ≤ 14) (channels : r.channels.toNat = c)
    (channelsOther : other.channels = r.channels) (wellFormed_ : resyncs r.channels block = true)
    (beyond : Nat → UInt8) :
    (other.resumed block beyond).block.samples = (r.resumed block beyond).block.samples ∧
      ∀ i < c, (other.resumed block beyond).ccs i = (r.resumed block beyond).ccs i := by
  have count : (r.begin_ block).1.channels.toNat = c := by
    rw [(begin_frame r block).channels, channels]
  have countOther : (other.begin_ block).1.channels.toNat = c := by
    rw [(begin_frame other block).channels, channelsOther, channels]
  have states : ∀ i < c, ((other.begin_ block).1.stashed block).scratchState beyond i =
      ((r.begin_ block).1.stashed block).scratchState beyond i := fun i inside =>
    stashed_scratchState _ (by rw [channels]; exact few) wellFormed_ beyond
      (by rw [channels]; exact inside)
  refine ⟨?_, fun i inside => ?_⟩
  · show Reader.syncSamples _ beyond (other.begin_ block).1.channels.toNat =
      Reader.syncSamples _ beyond (r.begin_ block).1.channels.toNat
    rw [count, countOther]
    apply List.map_congr_left
    intro i member
    rw [states i (List.mem_range.mp member)]
  · show Reader.syncStates _ beyond (other.begin_ block).1.channels.toNat i =
      Reader.syncStates _ beyond (r.begin_ block).1.channels.toNat i
    rw [count, countOther, syncStates_of_lt _ _ inside, syncStates_of_lt _ _ inside,
      states i inside]

/-- **Readers that agree in the rest** are aligned at the first byte. -/
theorem aligned_resumed (positive : 1 ≤ c) (few : c ≤ 14) (channels : r.channels.toNat = c)
    (channelsOther : other.channels = r.channels) (size : r.block.capacity = capacity)
    (sizeOther : other.block.capacity = capacity) (same : SameRest c capacity r other)
    (wellFormed_ : resyncs r.channels block = true) (beyond : Nat → UInt8) :
    Aligned c (r.resumed block beyond) (other.resumed block beyond) := by
  have first := resumed channels size block beyond
  have second := resumed (by rw [channelsOther, channels]) sizeOther block beyond
  have length := resyncs_length (by rw [channels]; exact few) wellFormed_
  obtain ⟨samples, ccs⟩ := resumed_congr few channels channelsOther wellFormed_ beyond
  refine ⟨first.channels, ?_, ?_, rfl, ?_, samples, ?_, ccs, ?_, fun free within i inside => ?_⟩
  · exact (begin_frame other block).channels.trans
      (channelsOther.trans (begin_frame r block).channels.symm)
  · rw [first.index, second.index, same.index]
  · rw [first.stateRem, second.stateRem, same.stateRem]
  · rw [first.capacity, second.capacity]
  · exact fun i inside => stashed_scratch _ (by omega)
  · rw [SampleBlock.available, first.capacity, first.length] at free
    rw [first.index] at within inside
    rw [first.dodBuf, second.dodBuf]
    exact same.dods (by omega) within i inside

/-- **Enough**: readers that agree in the rest are resynchronised. -/
theorem resynchronises_of_room (positive : 1 ≤ c) (few : c ≤ 14) (room : c ≤ capacity)
    (channels : r.channels.toNat = c) (channelsOther : other.channels = r.channels)
    (size : r.block.capacity = capacity) (sizeOther : other.block.capacity = capacity)
    (same : SameRest c capacity r other) : Resynchronises c r other := by
  intro block chunks wellFormed_ samples some_
  obtain ⟨skipped, call, rest, rfl, nonempty, empty⟩ := exists_first_some some_
  have sample : call.type = .sample :=
    samples call (List.mem_append_right _ List.mem_cons_self)
  have samplesRest : ∀ chunk ∈ rest, chunk.type = .sample := fun chunk member =>
    samples chunk (List.mem_append_right _ (List.mem_cons_of_mem _ member))
  rw [run_resync_room positive channels size room wellFormed_ empty nonempty sample samplesRest,
    run_resync_room positive (by rw [channelsOther, channels]) sizeOther room
      (by rw [channelsOther]; exact wellFormed_) empty nonempty sample samplesRest]
  exact ((aligned_resumed positive few channels channelsOther size sizeOther same wellFormed_
    call.beyond).run _).samePosition

end Room

/-! ### What one byte or one row tells -/

/-- A byte that is no code of the stream: the reader skips it, but ends a row that is complete. -/
def skippedByte : UInt8 := 0xFA

section Tell

variable {c : Nat} {t : Reader}

theorem decodeToken_skipped (state : t.state = .dod) : t.decodeToken skippedByte = (t, []) := by
  unfold Reader.decodeToken
  rw [state]
  rfl

theorem decodeToken_zero (state : t.state = .dod) : t.decodeToken 0 = t.writeDod 0 := by
  unfold Reader.decodeToken
  rw [state]
  rfl

theorem decodeByte_skipped (state : t.state = .dod) :
    (t.decodeByte skippedByte).1 =
      if t.currentChannel = t.channels ∧ t.channels.toNat ≤ t.block.available then t.rowEmitted
      else t := by
  have token := decodeToken_skipped state
  by_cases last : t.currentChannel = t.channels
  · have lastToken : (t.decodeToken skippedByte).1.currentChannel = t.channels := by
      rw [token]
      exact last
    rcases Nat.lt_or_ge t.block.available t.channels.toNat with full | room
    · rw [decodeByte_full lastToken full, token, if_neg fun both => Nat.not_le.mpr full both.2]
    · rw [decodeByte_room lastToken room, token, if_pos ⟨last, room⟩]
  · rw [decodeByte_more (by rw [token]; exact last), token, if_neg fun both => last both.1]

/-- The rest of a row, written as zeros. -/
theorem run_zeros {t : Reader} (state : t.state = .dod) (channels : t.channels.toNat = c)
    (room : c ≤ t.block.available) {count : Nat} (left : t.currentChannel.toNat + (count + 1) = c) :
    (run Reader.decodeByte t (List.replicate (count + 1) 0)).1.block.samples =
      t.block.samples ++ { t with
        dodBuf := fun i => if i < t.currentChannel.toNat then t.dodBuf i else 0 }.row c := by
  induction count generalizing t with
  | zero =>
    have token := decodeToken_zero state
    have next := index_succ (r := t) (by omega)
    have last : (t.decodeToken 0).1.currentChannel = t.channels := by
      rw [token]
      show t.currentChannel + 1 = t.channels
      rw [← UInt8.toNat_inj]
      omega
    rw [List.replicate_succ, run_cons, decodeByte_room last (by omega), token]
    show t.block.samples ++ (t.writeDod 0).1.row t.channels.toNat = _
    rw [channels]
    refine congrArg _ (List.map_congr_left fun i member => ?_)
    have inside := List.mem_range.mp member
    show (dodDecode (t.ccs i) (Function.update t.dodBuf t.currentChannel.toNat 0 i)).2 =
      (dodDecode (t.ccs i) (if i < t.currentChannel.toNat then t.dodBuf i else 0)).2
    rw [Function.update_apply]
    by_cases at_ : i = t.currentChannel.toNat
    · rw [if_pos at_, if_neg (by omega)]
    · rw [if_neg at_, if_pos (by omega)]
  | succ count ih =>
    have token := decodeToken_zero state
    have next := index_succ (r := t) (by omega)
    have more : (t.decodeToken 0).1.currentChannel ≠ t.channels := by
      rw [token]
      show t.currentChannel + 1 ≠ t.channels
      rw [Ne, ← UInt8.toNat_inj]
      omega
    have written := ih (t := (t.writeDod 0).1) state channels room
      (show (t.currentChannel + 1).toNat + (count + 1) = c by omega)
    rw [List.replicate_succ, run_cons, decodeByte_more more, token]
    refine written.trans (congrArg _ (List.map_congr_left fun i _ => ?_))
    show (dodDecode (t.ccs i) (if i < (t.currentChannel + 1).toNat then
        Function.update t.dodBuf t.currentChannel.toNat 0 i else 0)).2 =
      (dodDecode (t.ccs i) (if i < t.currentChannel.toNat then t.dodBuf i else 0)).2
    rw [Function.update_apply, next]
    rcases lt_trichotomy i t.currentChannel.toNat with before | at_ | behind
    · rw [if_pos (by omega), if_neg (by omega), if_pos before]
    · rw [if_pos (by omega), if_pos at_, if_neg (by omega)]
    · rw [if_neg (by omega), if_neg (by omega)]

variable {other r : Reader} {capacity : Nat}

/-- **One skipped byte** tells the index and the count of bytes missing. -/
theorem sameIndex {s : Reader} (positive : 1 ≤ c) (channels : other.channels = t.channels)
    (first : Resumed c capacity r t) (second : Resumed c capacity s other)
    (same : SamePosition c (t.decodeByte skippedByte).1 (other.decodeByte skippedByte).1) :
    other.currentChannel = t.currentChannel ∧ other.stateRem = t.stateRem := by
  have rowLength : ∀ s : Reader, s.channels.toNat = c →
      s.rowEmitted.block.samples.length = s.block.samples.length + c := by
    intro s count
    show (s.block.samples ++ s.row s.channels.toNat).length = _
    rw [List.length_append, Reader.row, List.length_map, List.length_range, count]
  have available : t.block.available = capacity - c := by
    rw [SampleBlock.available, first.capacity, first.length]
  have availableOther : other.block.available = capacity - c := by
    rw [SampleBlock.available, second.capacity, second.length]
  have length := congrArg List.length same.samples
  have index := same.index
  have stateRem := same.stateRem
  rw [decodeByte_skipped first.state, decodeByte_skipped second.state, available, availableOther,
    first.channels, second.channels] at length index stateRem
  split at length
  case isTrue emittedOther =>
    rw [if_pos emittedOther] at index stateRem
    split at length
    case isTrue emitted =>
      rw [if_pos emitted] at stateRem
      exact ⟨by rw [emittedOther.1, emitted.1, channels], stateRem⟩
    case isFalse =>
      rw [rowLength other second.channels, second.length, first.length] at length
      omega
  case isFalse kept =>
    rw [if_neg kept] at index stateRem
    split at length
    case isTrue =>
      rw [rowLength t first.channels, second.length, first.length] at length
      omega
    case isFalse keptFirst =>
      rw [if_neg keptFirst] at index stateRem
      exact ⟨index, stateRem⟩

/-- One skipped byte and zeros complete the row in `dod_buf`. -/
theorem run_rest {t : Reader} (resumed : Resumed c capacity r t) (room : 2 * c ≤ capacity)
    (within : t.currentChannel.toNat ≤ c) :
    (run Reader.decodeByte t
        (skippedByte :: List.replicate (c - t.currentChannel.toNat) 0)).1.block.samples =
      t.block.samples ++ { t with
        dodBuf := fun i => if i < t.currentChannel.toNat then t.dodBuf i else 0 }.row c := by
  have channels := resumed.channels
  have available : t.block.available = capacity - c := by
    rw [SampleBlock.available, resumed.capacity, resumed.length]
  rw [run_cons, decodeByte_skipped resumed.state]
  rcases Nat.eq_or_lt_of_le within with whole | open_
  · have last : t.currentChannel = t.channels := by rw [← UInt8.toNat_inj, whole, channels]
    rw [whole, Nat.sub_self, List.replicate_zero, if_pos ⟨last, by omega⟩]
    show t.block.samples ++ t.row t.channels.toNat = _
    rw [channels]
    refine congrArg _ (List.map_congr_left fun i member => ?_)
    show (dodDecode (t.ccs i) (t.dodBuf i)).2 =
      (dodDecode (t.ccs i) (if i < c then t.dodBuf i else 0)).2
    rw [if_pos (List.mem_range.mp member)]
  · have more : t.currentChannel ≠ t.channels := by
      rw [Ne, ← UInt8.toNat_inj]
      omega
    obtain ⟨count, left⟩ : ∃ count, c - t.currentChannel.toNat = count + 1 :=
      ⟨c - t.currentChannel.toNat - 1, by omega⟩
    rw [if_neg fun both => more both.1, left]
    exact run_zeros resumed.state channels (by omega) (by omega)

theorem dodDecode_injective (state : ChannelState) {first second : Int16}
    (same : (dodDecode state first).2 = (dodDecode state second).2) : first = second := by
  have sums : first + state.delta + state.sample = second + state.delta + state.sample := same
  rwa [Int16.add_left_inj, Int16.add_left_inj] at sums

/-- **The rest of a row** tells the residuals that were there before the block. -/
theorem sameDods {s : Reader} (first : Resumed c capacity r t) (second : Resumed c capacity s other)
    (room : 2 * c ≤ capacity) (index : other.currentChannel = t.currentChannel)
    (within : t.currentChannel.toNat ≤ c) (samples : other.block.samples = t.block.samples)
    (ccs : ∀ i < c, other.ccs i = t.ccs i)
    (same : SamePosition c
      (run Reader.decodeByte t
        (skippedByte :: List.replicate (c - t.currentChannel.toNat) 0)).1
      (run Reader.decodeByte other
        (skippedByte :: List.replicate (c - t.currentChannel.toNat) 0)).1) :
    ∀ i < t.currentChannel.toNat, other.dodBuf i = t.dodBuf i := by
  have rows := same.samples
  have restOther := run_rest second room (by rw [index]; exact within)
  rw [index] at restOther
  rw [run_rest first room within, restOther, samples, List.append_cancel_left_eq] at rows
  intro i before
  have cell := List.map_inj_left.mp rows i (List.mem_range.mpr (by omega))
  simp only [if_pos before, ccs i (by omega)] at cell
  exact dodDecode_injective _ cell

end Tell

/-- A resync block of one repeated byte. -/
def syncBlock (c : Nat) (byte : UInt8) : Call :=
  chunk .control (resyncDod :: List.replicate (4 + 4 * c) byte)

section Converse

variable {c capacity : Nat} {r other : Reader}

theorem resyncs_syncBlock {channels : UInt8} (count : channels.toNat = c) (few : c ≤ 14)
    (byte : UInt8) : resyncs channels (syncBlock c byte) = true := by
  have size : scratchSize = 64 := rfl
  have length : (syncBlock c byte).bytes.length = 5 + 4 * c := by
    show (resyncDod :: List.replicate (4 + 4 * c) byte).length = _
    rw [List.length_cons, List.length_replicate]
    omega
  simp only [resyncs, wellFormed, length, expectedSize_toNat (by omega : channels.toNat ≤ 14),
    count, Bool.and_eq_true, decide_eq_true_eq]
  exact ⟨⟨rfl, rfl⟩, trivial, by omega⟩

/-- **Necessary**: resynchronised readers agree in the rest. -/
theorem sameRest_of_room (positive : 1 ≤ c) (few : c ≤ 14) (room : c ≤ capacity)
    (channels : r.channels.toNat = c) (channelsOther : other.channels = r.channels)
    (size : r.block.capacity = capacity) (sizeOther : other.block.capacity = capacity)
    (resynchronised : Resynchronises c r other) : SameRest c capacity r other := by
  have wellFormed_ := resyncs_syncBlock channels few 0
  have countOther : other.channels.toNat = c := by rw [channelsOther, channels]
  set beyond : Nat → UInt8 := fun _ => 0 with beyondDef
  have first := resumed channels size (syncBlock c 0) beyond
  have second := resumed countOther sizeOther (syncBlock c 0) beyond
  obtain ⟨samples, ccs⟩ := resumed_congr few channels channelsOther wellFormed_ beyond
  have channelsSame : (other.resumed (syncBlock c 0) beyond).channels =
      (r.resumed (syncBlock c 0) beyond).channels := by
    rw [← UInt8.toNat_inj, first.channels, second.channels]
  -- what the readers hold after one chunk of these bytes
  have tell : ∀ bytes, bytes ≠ [] → SamePosition c
      (run Reader.decodeByte (r.resumed (syncBlock c 0) beyond) bytes).1
      (run Reader.decodeByte (other.resumed (syncBlock c 0) beyond) bytes).1 := by
    intro bytes some_
    have same := resynchronised (syncBlock c 0) [chunk .sample bytes] wellFormed_
      (fun call member => by rw [List.mem_singleton.mp member]; rfl)
      ⟨_, List.mem_singleton_self _, some_⟩
    have all : ∀ s : Reader, s.channels.toNat = c → s.block.capacity = capacity →
        (run Reader.decode s [syncBlock c 0, chunk .sample bytes]).1 =
          (run Reader.decodeByte (s.resumed (syncBlock c 0) beyond) bytes).1 := by
      intro s count sizeHere
      have decoded : (run Reader.decode s (syncBlock c 0 :: ([] ++ [chunk .sample bytes]))).1 =
          (run Reader.decodeByte (s.resumed (syncBlock c 0) (chunk .sample bytes).beyond)
            ([chunk .sample bytes].flatMap Call.bytes)).1 :=
        run_resync_room positive count sizeHere room (resyncs_syncBlock count few 0)
          (fun _ member => absurd member List.not_mem_nil) some_ rfl
          (fun _ member => absurd member List.not_mem_nil)
      rw [List.flatMap_cons, List.flatMap_nil, List.append_nil] at decoded
      exact decoded
    rw [all r channels size, all other countOther sizeOther] at same
    exact same
  obtain ⟨index, stateRem⟩ := sameIndex positive channelsSame first second
    (tell [skippedByte] (List.cons_ne_nil _ _))
  refine ⟨?_, ?_, fun double within i before => ?_, fun i behind inside => by omega,
    fun _ full => by omega, fun _ full => by omega⟩
  · rw [← first.index, ← second.index, index]
  · rw [← first.stateRem, ← second.stateRem, stateRem]
  · have dods := sameDods first second double index (by rw [first.index]; exact within) samples ccs
      (tell _ (List.cons_ne_nil _ _)) i (by rw [first.index]; exact before)
    rwa [first.dodBuf, second.dodBuf] at dods

end Converse

/-! ### A block without room for a row -/

section Small

variable {c capacity : Nat} {r other : Reader} {block : Call}

/-- The reader behind a resync block, which it may have refused by throwing again. -/
structure Behind (c capacity : Nat) (block : Call) (r result : Reader) : Prop where
  channels : result.channels.toNat = c
  size : result.block.capacity = capacity
  inSync : result.inSync = true
  state : result.state = .sample
  index : result.currentChannel = r.currentChannel
  stateRem : result.stateRem = r.stateRem
  ccs : ∀ i, capacity ≤ i → result.ccs i = r.ccs i
  refused : 0 < capacity → r.inSync = true → result.scratchBuf = r.scratchBuf
  stashed : r.inSync = false → result.scratchBuf = (r.stashed block).scratchBuf

theorem behind_block (small : capacity < c) (channels : r.channels.toNat = c)
    (size : r.block.capacity = capacity) (blocked : 0 < capacity → Blocked r)
    (wellFormed_ : resyncs r.channels block = true) :
    Behind c capacity block r (r.decode block).1 := by
  have frame := begin_frame r block
  have ccs : ∀ i, capacity ≤ i → (r.begin_ block).1.ccs i = r.ccs i := by
    rw [← size]
    exact frame.ccs
  by_cases begun : (r.begin_ block).2.1 = true
  · rw [decode_of_thrown (resyncs_some wellFormed_) begun]
    -- only a restart of a block with some room throws
    have restarts : r.inSync = true ∧ r.state = .sample := by
      by_contra no
      rw [Reader.begin_, if_neg no] at begun
      exact Bool.false_ne_true begun
    have same : r.begin_ block = r.syncUpdate block.beyond := if_pos restarts
    have positive : 0 < r.block.capacity := by
      by_contra zero
      rw [same, syncUpdate_zero _ (by omega)] at begun
      exact Bool.false_ne_true begun
    rw [syncUpdate_throws _ positive (by omega)] at same
    rw [same] at frame ccs ⊢
    exact ⟨channels, size, restarts.1, restarts.2, frame.index, frame.stateRem, ccs,
      fun _ _ => rfl, fun unsynced => absurd (unsynced.symm.trans restarts.1) Bool.false_ne_true⟩
  · rw [decode_resync wellFormed_ (eq_false_of_ne_true begun)]
    refine ⟨by rw [← channels, ← frame.channels]; rfl, frame.capacity.trans size, rfl, rfl,
      frame.index, frame.stateRem, ccs, fun positive synced => ?_, fun unsynced => ?_⟩
    · have waiting := (blocked positive).state.resolve_left (by rw [synced]; exact Bool.noConfusion)
      have same : r.begin_ block = r.syncUpdate block.beyond := if_pos ⟨synced, waiting⟩
      rw [same, syncUpdate_throws _ (by omega) (by omega)] at begun
      exact absurd rfl begun
    · rw [begin_of_unsynced unsynced]

/-- Bytes that come while the restart is due are skipped. -/
theorem run_waiting_bytes (state : r.state = .sample)
    (full : r.block.available < r.channels.toNat) (bytes : List UInt8) :
    (run Reader.decodeByte r bytes).1 = r := by
  induction bytes with
  | nil => rfl
  | cons byte rest ih =>
    have token : r.decodeToken byte = (r, []) := by
      unfold Reader.decodeToken
      rw [state]
    have same : (r.decodeByte byte).1 = r := by
      by_cases last : r.currentChannel = r.channels
      · rw [decodeByte_full (by rw [token]; exact last) full, token]
      · rw [decodeByte_more (by rw [token]; exact last), token]
    rw [run_cons, same, ih]

/-- **A restart without room** reads what fits and stays due. -/
theorem decode_due (small : r.block.capacity < r.channels.toNat) (synced : r.inSync = true)
    (state : r.state = .sample) {call : Call} (sample : call.type = .sample)
    (some_ : call.bytes ≠ []) :
    (r.decode call).1 = r.resynced call.beyond r.block.capacity := by
  have same : r.begin_ call = r.syncUpdate call.beyond := if_pos ⟨synced, state⟩
  rcases Nat.eq_zero_or_pos r.block.capacity with zero | positive
  · rw [syncUpdate_zero _ zero] at same
    rw [decode_of_begun some_ (by rw [same]), same, zero]
    show ((r.resynced call.beyond 0).decodeBody call).1 = _
    have stays : (run Reader.decodeByte (r.resynced call.beyond 0) call.bytes).1 =
        r.resynced call.beyond 0 :=
      run_waiting_bytes (r := r.resynced call.beyond 0) state
        (show r.block.capacity - _ < r.channels.toNat by omega) call.bytes
    have inSync : (r.resynced call.beyond 0).inSync = true := synced
    rw [Reader.decodeBody, sample]
    simp only [if_pos inSync, Reader.decodeSample, stays]
  · rw [syncUpdate_throws _ positive small] at same
    rw [decode_of_thrown some_ (by rw [same]), same]

/-- Two readers whose restart is due and reads the same. -/
structure Due (c capacity : Nat) (r other : Reader) : Prop where
  channels : r.channels.toNat = c
  channelsOther : other.channels.toNat = c
  size : r.block.capacity = capacity
  sizeOther : other.block.capacity = capacity
  inSync : r.inSync = true
  inSyncOther : other.inSync = true
  state : r.state = .sample
  stateOther : other.state = .sample
  index : other.currentChannel = r.currentChannel
  stateRem : other.stateRem = r.stateRem
  ccs : ∀ i, capacity ≤ i → i < c → other.ccs i = r.ccs i
  scratch : ∀ beyond, ∀ i < capacity, other.scratchState beyond i = r.scratchState beyond i

theorem Due.decode (small : capacity < c) (due : Due c capacity r other) {call : Call}
    (sample : call.type = .sample) (some_ : call.bytes ≠ []) :
    Due c capacity (r.decode call).1 (other.decode call).1 ∧
      SamePosition c (r.decode call).1 (other.decode call).1 := by
  have channels := due.channels
  have channelsOther := due.channelsOther
  have size := due.size
  have sizeOther := due.sizeOther
  rw [decode_due (by omega) due.inSync due.state sample some_,
    decode_due (by omega) due.inSyncOther due.stateOther sample some_, size, sizeOther]
  have outside : ∀ i, capacity ≤ i → i < c →
      other.syncStates call.beyond capacity i = r.syncStates call.beyond capacity i := by
    intro i behind inside
    rw [syncStates_of_le _ _ behind, syncStates_of_le _ _ behind, due.ccs i behind inside]
  have all : ∀ i < c,
      other.syncStates call.beyond capacity i = r.syncStates call.beyond capacity i := by
    intro i inside
    rcases Nat.lt_or_ge i capacity with read | behind
    · rw [syncStates_of_lt _ _ read, syncStates_of_lt _ _ read, due.scratch _ i read]
    · exact outside i behind inside
  have samples : other.syncSamples call.beyond capacity = r.syncSamples call.beyond capacity :=
    List.map_congr_left fun i member => by rw [due.scratch _ i (List.mem_range.mp member)]
  exact ⟨⟨channels, channelsOther, size, sizeOther, due.inSync, due.inSyncOther, due.state,
      due.stateOther, due.index, due.stateRem, outside, due.scratch⟩,
    ⟨samples, all, due.stateOther.trans due.state.symm, due.stateRem, due.index⟩⟩

theorem Due.run (small : capacity < c) (due : Due c capacity r other) {chunks : List Call}
    (samples : ∀ chunk ∈ chunks, chunk.type = .sample)
    (same : (∃ chunk ∈ chunks, chunk.bytes ≠ []) ∨ SamePosition c r other) :
    SamePosition c (run Reader.decode r chunks).1
      (EventMachine.run Reader.decode other chunks).1 := by
  induction chunks generalizing r other with
  | nil =>
    apply same.resolve_left
    rintro ⟨chunk, member, -⟩
    exact absurd member List.not_mem_nil
  | cons chunk rest ih =>
    rw [List.forall_mem_cons] at samples
    rw [run_cons, run_cons]
    by_cases empty : chunk.bytes = []
    · rw [decode_empty r empty, decode_empty other empty]
      refine ih due samples.2 (same.imp_left ?_)
      rintro ⟨found, member, some_⟩
      rcases List.mem_cons.mp member with rfl | member
      · exact absurd empty some_
      · exact ⟨found, member, some_⟩
    · obtain ⟨dueNext, sameNext⟩ := due.decode small samples.1 empty
      exact ih dueNext samples.2 (.inr sameNext)

theorem scratchState_of_eq {s : Reader} (same : s.scratchBuf = r.scratchBuf) (beyond : Nat → UInt8)
    (i : Nat) : s.scratchState beyond i = r.scratchState beyond i := by
  simp only [Reader.scratchState, Reader.scratchAt, same]

/-- **Enough**: readers that agree in the rest are resynchronised. -/
theorem resynchronises_of_small (few : c ≤ 14) (small : capacity < c)
    (channels : r.channels.toNat = c) (channelsOther : other.channels = r.channels)
    (size : r.block.capacity = capacity) (sizeOther : other.block.capacity = capacity)
    (blocked : 0 < capacity → Blocked r) (blockedOther : 0 < capacity → Blocked other)
    (same : SameRest c capacity r other) : Resynchronises c r other := by
  intro block chunks wellFormed_ samples some_
  have first := behind_block small channels size blocked wellFormed_
  have second := behind_block small (by rw [channelsOther, channels]) sizeOther blockedOther
    (by rw [channelsOther]; exact wellFormed_)
  refine Due.run small ⟨first.channels, second.channels, first.size, second.size, first.inSync,
    second.inSync, first.state, second.state, ?_, ?_, fun i behind inside => ?_,
    fun beyond i inside => ?_⟩ samples (.inl some_)
  · rw [first.index, second.index, same.index]
  · rw [first.stateRem, second.stateRem, same.stateRem]
  · rw [first.ccs i behind, second.ccs i behind, same.ccs i behind inside]
  · have positive : 0 < capacity := Nat.zero_lt_of_lt inside
    have synced := same.inSync positive small
    cases inSync : r.inSync with
    | true =>
      rw [scratchState_of_eq (first.refused positive inSync),
        scratchState_of_eq (second.refused positive (synced.trans inSync)),
        same.scratch positive small inSync beyond i inside]
    | false =>
      rw [scratchState_of_eq (first.stashed inSync),
        scratchState_of_eq (second.stashed (synced.trans inSync))]
      exact stashed_scratchState other (by rw [channels]; exact few) wellFormed_ beyond
        (by omega)

/-- What one chunk behind a resync block leaves. -/
theorem run_small (small : capacity < c) (channels : r.channels.toNat = c)
    (size : r.block.capacity = capacity) (blocked : 0 < capacity → Blocked r)
    (wellFormed_ : resyncs r.channels block = true) {call : Call} (sample : call.type = .sample)
    (some_ : call.bytes ≠ []) :
    (run Reader.decode r [block, call]).1 = (r.decode block).1.resynced call.beyond capacity := by
  have first := behind_block small channels size blocked wellFormed_
  have count := first.channels
  have room := first.size
  show ((r.decode block).1.decode call).1 = _
  rw [decode_due (by omega) first.inSync first.state sample some_, room]

/-- The first channel state of a block of one repeated byte. -/
theorem stashed_syncBlock (positive : 1 ≤ c) (byte : UInt8) (beyond : Nat → UInt8) :
    ((r.stashed (syncBlock c byte)).scratchState beyond 0).sample = (word byte byte).toInt16 := by
  have cell : ∀ index < 2, (r.stashed (syncBlock c byte)).scratchBuf (4 + index) = byte := by
    intro index inside
    have length : 4 + index < (List.replicate (4 + 4 * c) byte ++ [(0 : UInt8)]).length := by
      rw [List.length_append, List.length_replicate]
      omega
    have stored := Circular.store_apply_of_lt r.scratchBuf 0 length
    rw [Nat.zero_add, List.getElem_append_left (by rw [List.length_replicate]; omega),
      List.getElem_replicate] at stored
    exact stored
  have high := cell 0 (by decide)
  have low := cell 1 (by decide)
  show (word ((r.stashed (syncBlock c byte)).scratchBuf 4)
    ((r.stashed (syncBlock c byte)).scratchBuf 5)).toInt16 = _
  rw [high, low]

/-- Whether a reader has refused a block shows in what two different blocks leave. -/
theorem refused_iff (few : c ≤ 14) (some_ : 0 < capacity) (small : capacity < c)
    (channels : r.channels.toNat = c) (size : r.block.capacity = capacity)
    (blocked : 0 < capacity → Blocked r) (beyond : Nat → UInt8) :
    ((r.decode (syncBlock c 0)).1.scratchState beyond 0 =
      (r.decode (syncBlock c 1)).1.scratchState beyond 0) ↔ r.inSync = true := by
  have zero := behind_block small channels size blocked (resyncs_syncBlock channels few 0)
  have one := behind_block small channels size blocked (resyncs_syncBlock channels few 1)
  constructor
  · intro same
    by_contra unsynced
    have fresh := eq_false_of_ne_true unsynced
    rw [scratchState_of_eq (zero.stashed fresh), scratchState_of_eq (one.stashed fresh)] at same
    have samples := congrArg ChannelState.sample same
    rw [stashed_syncBlock (by omega), stashed_syncBlock (by omega)] at samples
    exact absurd samples (by decide)
  · intro synced
    rw [scratchState_of_eq (zero.refused some_ synced),
      scratchState_of_eq (one.refused some_ synced)]

/-- **Necessary**: resynchronised readers agree in the rest. -/
theorem sameRest_of_small (few : c ≤ 14) (small : capacity < c)
    (channels : r.channels.toNat = c) (channelsOther : other.channels = r.channels)
    (size : r.block.capacity = capacity) (sizeOther : other.block.capacity = capacity)
    (blocked : 0 < capacity → Blocked r) (blockedOther : 0 < capacity → Blocked other)
    (resynchronised : Resynchronises c r other) : SameRest c capacity r other := by
  have countOther : other.channels.toNat = c := by rw [channelsOther, channels]
  have behind : ∀ byte, Behind c capacity (syncBlock c byte) r (r.decode (syncBlock c byte)).1 :=
    fun byte => behind_block small channels size blocked (resyncs_syncBlock channels few byte)
  have behindOther : ∀ byte,
      Behind c capacity (syncBlock c byte) other (other.decode (syncBlock c byte)).1 :=
    fun byte => behind_block small countOther sizeOther blockedOther
      (resyncs_syncBlock countOther few byte)
  -- what the readers hold after one byte
  have tell : ∀ byte beyond, SamePosition c
      ((r.decode (syncBlock c byte)).1.resynced beyond capacity)
      ((other.decode (syncBlock c byte)).1.resynced beyond capacity) := by
    intro byte beyond
    have some_ : ([0] : List UInt8) ≠ [] := List.cons_ne_nil _ _
    have same := resynchronised (syncBlock c byte) [⟨[0], .sample, 0, beyond⟩]
      (resyncs_syncBlock channels few byte)
      (fun call member => by rw [List.mem_singleton.mp member])
      ⟨_, List.mem_singleton_self _, some_⟩
    rwa [run_small small channels size blocked (resyncs_syncBlock channels few byte) rfl some_,
      run_small small countOther sizeOther blockedOther (resyncs_syncBlock countOther few byte) rfl
        some_] at same
  have states : ∀ byte beyond, ∀ i < capacity,
      (other.decode (syncBlock c byte)).1.scratchState beyond i =
        (r.decode (syncBlock c byte)).1.scratchState beyond i := by
    intro byte beyond i inside
    have cell : (other.decode (syncBlock c byte)).1.syncStates beyond capacity i =
        (r.decode (syncBlock c byte)).1.syncStates beyond capacity i :=
      (tell byte beyond).ccs i (by omega)
    rwa [syncStates_of_lt _ _ inside, syncStates_of_lt _ _ inside] at cell
  have one := tell 0 fun _ => 0
  have synced : 0 < capacity → other.inSync = r.inSync := by
    intro positive
    rw [Bool.eq_iff_iff, ← refused_iff few positive small channels size blocked fun _ => 0,
      ← refused_iff few positive small countOther sizeOther blockedOther fun _ => 0,
      states 0 _ 0 positive, states 1 _ 0 positive]
  refine ⟨?_, ?_, fun double => by omega, fun i outside inside => ?_, fun positive _ =>
    synced positive, fun positive _ inSync beyond i inside => ?_⟩
  · rw [← (behind 0).index, ← (behindOther 0).index]
    exact one.index
  · rw [← (behind 0).stateRem, ← (behindOther 0).stateRem]
    exact one.stateRem
  · have cell : (other.decode (syncBlock c 0)).1.syncStates (fun _ => 0) capacity i =
        (r.decode (syncBlock c 0)).1.syncStates (fun _ => 0) capacity i := one.ccs i inside
    rwa [syncStates_of_le _ _ outside, syncStates_of_le _ _ outside, (behind 0).ccs i outside,
      (behindOther 0).ccs i outside] at cell
  · rw [← scratchState_of_eq ((behind 0).refused positive inSync),
      ← scratchState_of_eq ((behindOther 0).refused positive ((synced positive).trans inSync))]
    exact states 0 beyond i inside

end Small

/-! ### The result -/

theorem Reached.size {c capacity : Nat} (few : c ≤ 14) {r : Reader}
    (reached : Reached c capacity r) :
    r.channels = UInt8.ofNat c ∧ r.channels.toNat = c ∧ r.block.capacity = capacity := by
  obtain ⟨scratchBuf, dodBuf, ccs, calls, rfl⟩ := reached
  have kept := EventMachine.run_invariant Reader.decode (fun r : Reader =>
      r.channels = UInt8.ofNat c ∧ r.block.capacity = capacity)
    (fun r call same => ⟨(decode_size r call).1.trans same.1, (decode_size r call).2.trans same.2⟩)
    (show (Reader.new scratchBuf dodBuf ccs c c capacity).channels = UInt8.ofNat c ∧
      (Reader.new scratchBuf dodBuf ccs c c capacity).block.capacity = capacity from
      ⟨if_pos rfl, rfl⟩) calls
  refine ⟨kept.1, ?_, kept.2⟩
  rw [kept.1, UInt8.toNat_ofNat']
  omega

theorem Reached.blocked {c capacity : Nat} (few : c ≤ 14) (small : capacity < c) {r : Reader}
    (reached : Reached c capacity r) (positive : 0 < capacity) : Blocked r := by
  obtain ⟨scratchBuf, dodBuf, ccs, calls, rfl⟩ := reached
  have count : (Reader.new scratchBuf dodBuf ccs c c capacity).channels.toNat = c := by
    show (if c = c then UInt8.ofNat c else 0).toNat = c
    rw [if_pos rfl, UInt8.toNat_ofNat']
    omega
  exact EventMachine.run_invariant Reader.decode Blocked
    (fun _ call blocked => decode_blocked blocked call)
    ⟨rfl, positive, by rw [count]; exact small, .inl rfl⟩ calls

/-- **When a resync block resynchronises.** For every channel count from 1 to 14 and every two
reachable readers: after every well-formed resync block and every sequence of sample chunks that are
not all empty both hold the same samples, channel states and parser position, if and only if they
agree before it in the index, the count of missing bytes and the residuals of the row begun (and,
where the block has no room for one row, in what the restart that throws leaves). -/
theorem resynchronises_iff {c capacity : Nat} (positive : 1 ≤ c) (few : c ≤ 14) {r other : Reader}
    (reached : Reached c capacity r) (reachedOther : Reached c capacity other) :
    Resynchronises c r other ↔ SameRest c capacity r other := by
  obtain ⟨same, channels, size⟩ := reached.size few
  obtain ⟨sameOther, _, sizeOther⟩ := reachedOther.size few
  have channelsOther : other.channels = r.channels := sameOther.trans same.symm
  rcases Nat.lt_or_ge capacity c with small | room
  · have blocked := reached.blocked few small
    have blockedOther := reachedOther.blocked few small
    exact ⟨sameRest_of_small few small channels channelsOther size sizeOther blocked blockedOther,
      resynchronises_of_small few small channels channelsOther size sizeOther blocked
        blockedOther⟩
  · exact ⟨sameRest_of_room positive few room channels channelsOther size sizeOther,
      resynchronises_of_room positive few room channels channelsOther size sizeOther⟩

/-- A reader of two channels with room for four rows. -/
def freshReader : Reader := .new (fun _ => 0) (fun _ => 0) (fun _ => ⟨0, 0⟩) 2 2 8

/-- One that was given a whole row before. -/
theorem resynchronises_iff_row : Resynchronises 2 freshReader
    (run Reader.decode freshReader [syncBlock 2 0, chunk .sample [2, 4]]).1 :=
  (resynchronises_iff (by decide) (by decide) ⟨_, _, _, [], rfl⟩ ⟨_, _, _, _, rfl⟩).mpr
    ⟨by decide +kernel, by decide +kernel, fun _ _ i before => absurd before (Nat.not_lt_zero i),
      fun i behind inside => by omega, fun _ full => by omega, fun _ full => by omega⟩

/-- **A row cut short**: two channels. A reader that lost the second residual of a row takes the
first residual behind the next resync block for it. -/
theorem resynchronises_fails : ¬ ∀ {r other : Reader}, Reached 2 8 r → Reached 2 8 other →
    Resynchronises 2 r other := by
  intro all
  have same := @all freshReader (run Reader.decode freshReader [syncBlock 2 0, chunk .sample [2]]).1
    ⟨_, _, _, [], rfl⟩ ⟨_, _, _, _, rfl⟩ (syncBlock 2 0) [chunk .sample [2, 4]] (by decide +kernel)
    (fun call member => by rw [List.mem_singleton.mp member]; rfl)
    ⟨_, List.mem_singleton_self _, List.cons_ne_nil _ _⟩
  exact absurd same.index (by decide +kernel)

end ForgeDrive.Daq
