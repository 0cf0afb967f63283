/-
**What each step of the reader does.**

One statement for each function of the reader, in closed form, so that what is proved about runs
does not open the functions again.

* `tokenStep` — a byte writes `dod_buf` at most once, at the index, and moves the index by one;
* `emitSample_room`, `emitSample_full` — a completed row;
* `syncUpdate_room`, `syncUpdate_throws`, `syncUpdate_zero` — the restart after a resync block;
* `decode_of_begun`, `decode_of_thrown` — a call.
-/

import ForgeDrive.Daq.Reader

namespace ForgeDrive.Daq

open EventMachine (run run_cons)

/-! ### One byte -/

/-- The byte is the last of a residual. -/
def EndsToken (r : Reader) (byte : UInt8) : Prop :=
  match r.state with
  | .dod => byte ≤ virtualBitsStart
  | .large16 => r.stateRem = 1
  | .virtualBits => r.stateRem = 1
  | .sample => False

/-- What the tokens leave alone: everything but the parser position, `dod_buf` and the scratch
array. -/
structure TokenFrame (r result : Reader) : Prop where
  channels : result.channels = r.channels
  block : result.block = r.block
  ccs : result.ccs = r.ccs
  inSync : result.inSync = r.inSync
  parsing : result.state = .sample ↔ r.state = .sample

/-- What a byte does to the index: nothing, or one write at the index and one step. -/
inductive TokenStep (r : Reader) (byte : UInt8) (result : Reader × List Event) : Prop
  | quiet (within : ¬ EndsToken r byte) (events : result.2 = [])
      (index : result.1.currentChannel = r.currentChannel) (dods : result.1.dodBuf = r.dodBuf)
  | writes (ends : EndsToken r byte) (events : result.2 = [.dodWrite r.currentChannel.toNat])
      (index : result.1.currentChannel = r.currentChannel + 1)

/-- Below the channel count, the index does not wrap. -/
theorem index_succ {r : Reader} (below : r.currentChannel.toNat < r.channels.toNat) :
    (r.currentChannel + 1).toNat = r.currentChannel.toNat + 1 := by
  have bound := r.channels.toNat_lt
  rw [UInt8.toNat_add]
  show (r.currentChannel.toNat + 1) % 256 = _
  omega

theorem finishToken_frame (r : Reader) (scratch : Nat → UInt8) (parsing : r.state ≠ .sample) :
    TokenFrame r ({ r with scratchBuf := scratch } : Reader).finishToken.1 := by
  simp only [Reader.finishToken]
  split
  · exact ⟨rfl, rfl, rfl, rfl, fun other => ReaderState.noConfusion other,
      fun other => absurd other parsing⟩
  · exact ⟨rfl, rfl, rfl, rfl, Iff.rfl⟩

theorem decodeToken_frame (r : Reader) (byte : UInt8) : TokenFrame r (r.decodeToken byte).1 := by
  unfold Reader.decodeToken
  split
  case h_1 state =>
    have parsing : r.state ≠ .sample := by rw [state]; exact ReaderState.noConfusion
    unfold Reader.decodeDod
    split
    · split
      · exact ⟨rfl, rfl, rfl, rfl, fun other => ReaderState.noConfusion other,
          fun other => absurd other parsing⟩
      · exact ⟨rfl, rfl, rfl, rfl, Iff.rfl⟩
    · split
      · exact ⟨rfl, rfl, rfl, rfl, fun other => ReaderState.noConfusion other,
          fun other => absurd other parsing⟩
      · exact ⟨rfl, rfl, rfl, rfl, Iff.rfl⟩
  case h_2 state => exact finishToken_frame r _ (by rw [state]; exact ReaderState.noConfusion)
  case h_3 state => exact finishToken_frame r _ (by rw [state]; exact ReaderState.noConfusion)
  case h_4 state => exact ⟨rfl, rfl, rfl, rfl, Iff.rfl⟩

theorem finishToken_step {r : Reader} {byte : UInt8} (ends : EndsToken r byte ↔ r.stateRem = 1)
    (scratch : Nat → UInt8) : TokenStep r byte { r with scratchBuf := scratch }.finishToken := by
  have last : r.stateRem - 1 = 0 ↔ r.stateRem = 1 := UInt8.sub_eq_iff_eq_add
  simp only [Reader.finishToken]
  split
  case isTrue done => exact .writes (ends.mpr (last.mp done)) rfl rfl
  case isFalse more => exact .quiet (fun one => more (last.mpr (ends.mp one))) rfl rfl rfl

/-- **One byte** writes at most once, at the index. -/
theorem tokenStep (r : Reader) (byte : UInt8) : TokenStep r byte (r.decodeToken byte) := by
  unfold Reader.decodeToken
  split
  case h_1 state =>
    have ends : EndsToken r byte ↔ byte ≤ virtualBitsStart := by unfold EndsToken; rw [state]
    unfold Reader.decodeDod
    split
    case isTrue escape =>
      have within : ¬ EndsToken r byte := fun small =>
        absurd (UInt8.lt_of_lt_of_le escape (ends.mp small)) (by decide)
      split
      · exact .quiet within rfl rfl rfl
      · exact .quiet within rfl rfl rfl
    case isFalse =>
      split
      case isTrue virtual =>
        exact .quiet (fun small => UInt8.not_le.mpr virtual (ends.mp small)) rfl rfl rfl
      case isFalse plain => exact .writes (ends.mpr (UInt8.not_lt.mp plain)) rfl rfl
  case h_2 state => exact finishToken_step (by unfold EndsToken; rw [state]) _
  case h_3 state => exact finishToken_step (by unfold EndsToken; rw [state]) _
  case h_4 state => exact .quiet (by unfold EndsToken; rw [state]; exact id) rfl rfl rfl

/-! ### One row -/

/-- The first samples of the row in `dod_buf`. -/
def Reader.row (r : Reader) (count : Nat) : List Int16 :=
  (List.range count).map fun i => (dodDecode (r.ccs i) (r.dodBuf i)).2

/-- The channel states after the first samples of the row in `dod_buf`. -/
def Reader.rowStates (r : Reader) (count : Nat) : Nat → ChannelState :=
  fun i => if i < count then (dodDecode (r.ccs i) (r.dodBuf i)).1 else r.ccs i

theorem emitChannels_eq (r : Reader) (count : Nat) :
    (List.range count).foldl Reader.emitChannel r =
      { r with
        ccs := r.rowStates count
        block := { r.block with samples := r.block.samples ++ r.row count } } := by
  induction count with
  | zero =>
    have samples : r.block.samples ++ r.row 0 = r.block.samples := List.append_nil _
    rw [samples]
    rfl
  | succ count ih =>
    have samples : r.row (count + 1) =
        r.row count ++ [(dodDecode (r.ccs count) (r.dodBuf count)).2] := by
      rw [Reader.row, List.range_succ, List.map_append]
      rfl
    have states : r.rowStates (count + 1) =
        Function.update (r.rowStates count) count (dodDecode (r.ccs count) (r.dodBuf count)).1 := by
      funext i
      rcases eq_or_ne i count with rfl | other
      · rw [Function.update_self, Reader.rowStates, if_pos (Nat.lt_succ_self i)]
      · rw [Function.update_of_ne other, Reader.rowStates, Reader.rowStates]
        exact if_congr (by omega) rfl rfl
    have untouched : r.rowStates count count = r.ccs count := if_neg (Nat.lt_irrefl count)
    rw [List.range_succ, List.foldl_append, ih, samples, states, ← List.append_assoc]
    simp only [List.foldl_cons, List.foldl_nil, Reader.emitChannel, untouched]

/-- The reader after a row was completed with room for it. -/
def Reader.rowEmitted (r : Reader) : Reader :=
  { r with
    currentChannel := 0
    ccs := r.rowStates r.channels.toNat
    block := { r.block with samples := r.block.samples ++ r.row r.channels.toNat } }

/-- **A completed row with room** is decoded into the block, and the index set back. -/
theorem emitSample_room {r : Reader} (room : r.channels.toNat ≤ r.block.available) :
    r.emitSample = r.rowEmitted := by
  rw [Reader.emitSample, if_neg (Nat.not_lt.mpr room), emitChannels_eq, Reader.rowEmitted]

/-- **A completed row without room** changes nothing, the index included. -/
theorem emitSample_full {r : Reader} (full : r.block.available < r.channels.toNat) :
    r.emitSample = r := if_pos full

section Row

variable {r : Reader} {byte : UInt8}

theorem decodeByte_more (more : (r.decodeToken byte).1.currentChannel ≠ r.channels) :
    r.decodeByte byte = r.decodeToken byte := by
  rw [← (decodeToken_frame r byte).channels] at more
  simp only [Reader.decodeByte, if_neg more]

theorem decodeByte_full (last : (r.decodeToken byte).1.currentChannel = r.channels)
    (full : r.block.available < r.channels.toNat) : r.decodeByte byte = r.decodeToken byte := by
  have frame := decodeToken_frame r byte
  rw [← frame.channels] at last
  rw [← frame.channels, ← frame.block] at full
  simp only [Reader.decodeByte, if_pos last, emitSample_full full]

theorem decodeByte_room (last : (r.decodeToken byte).1.currentChannel = r.channels)
    (room : r.channels.toNat ≤ r.block.available) :
    r.decodeByte byte = ((r.decodeToken byte).1.rowEmitted, (r.decodeToken byte).2) := by
  have frame := decodeToken_frame r byte
  rw [← frame.channels] at last
  rw [← frame.channels, ← frame.block] at room
  simp only [Reader.decodeByte, if_pos last, emitSample_room room]

end Row

/-! ### The restart -/

/-- The first samples of the scratch array. -/
def Reader.syncSamples (r : Reader) (beyond : Nat → UInt8) (count : Nat) : List Int16 :=
  (List.range count).map fun i => (r.scratchState beyond i).sample

/-- The channel states after the first of the scratch array were read. -/
def Reader.syncStates (r : Reader) (beyond : Nat → UInt8) (count : Nat) : Nat → ChannelState :=
  fun i => if i < count then r.scratchState beyond i else r.ccs i

/-- The reader after the first states of the scratch array were read. -/
def Reader.resynced (r : Reader) (beyond : Nat → UInt8) (count : Nat) : Reader :=
  { r with
    ccs := r.syncStates beyond count
    block := { r.block with counter := r.scratchCounter, samples := r.syncSamples beyond count } }

theorem syncStates_of_lt (r : Reader) (beyond : Nat → UInt8) {count i : Nat} (inside : i < count) :
    r.syncStates beyond count i = r.scratchState beyond i := if_pos inside

theorem syncStates_of_le (r : Reader) (beyond : Nat → UInt8) {count i : Nat} (behind : count ≤ i) :
    r.syncStates beyond count i = r.ccs i := if_neg (Nat.not_lt.mpr behind)

theorem syncSamples_length (r : Reader) (beyond : Nat → UInt8) (count : Nat) :
    (r.syncSamples beyond count).length = count := by
  rw [Reader.syncSamples, List.length_map, List.length_range]

theorem syncChannel_room {r : Reader} (beyond : Nat → UInt8) {count : Nat}
    (room : count < r.block.capacity) :
    Reader.syncChannel beyond (r.resynced beyond count, false) count =
      (r.resynced beyond (count + 1), false) := by
  have length := syncSamples_length r beyond count
  have open_ :
      (false || decide ((r.syncSamples beyond count).length = r.block.capacity)) = false := by
    rw [Bool.false_or, decide_eq_false_iff_not, length]
    exact Nat.ne_of_lt room
  have samples : r.syncSamples beyond (count + 1) =
      r.syncSamples beyond count ++ [(r.scratchState beyond count).sample] := by
    rw [Reader.syncSamples, List.range_succ, List.map_append]
    rfl
  have states : r.syncStates beyond (count + 1) =
      Function.update (r.syncStates beyond count) count (r.scratchState beyond count) := by
    funext i
    rcases eq_or_ne i count with rfl | other
    · rw [Function.update_self, syncStates_of_lt r beyond (Nat.lt_succ_self i)]
    · rw [Function.update_of_ne other, Reader.syncStates, Reader.syncStates]
      exact if_congr (by omega) rfl rfl
  rw [Reader.resynced, Reader.resynced, samples, states]
  exact if_neg (by rw [open_]; exact Bool.false_ne_true)

/-- Once the block is full, nothing more is read. -/
theorem syncChannel_full {r : Reader} (beyond : Nat → UInt8) (thrown : Bool) (i : Nat) :
    Reader.syncChannel beyond (r.resynced beyond r.block.capacity, thrown) i =
      (r.resynced beyond r.block.capacity, true) := by
  have closed : decide ((r.syncSamples beyond r.block.capacity).length = r.block.capacity) = true :=
    decide_eq_true (syncSamples_length r beyond r.block.capacity)
  apply if_pos
  show (thrown || decide ((r.syncSamples beyond r.block.capacity).length = r.block.capacity)) = true
  rw [closed, Bool.or_true]

theorem syncChannels_eq (r : Reader) (beyond : Nat → UInt8) (count : Nat) :
    (List.range count).foldl (Reader.syncChannel beyond) (r.resynced beyond 0, false) =
      (r.resynced beyond (min count r.block.capacity), decide (r.block.capacity < count)) := by
  induction count with
  | zero => rw [Nat.zero_min]; rfl
  | succ count ih =>
    rw [List.range_succ, List.foldl_append, ih, List.foldl_cons, List.foldl_nil]
    by_cases room : count < r.block.capacity
    · rw [Nat.min_eq_left (Nat.le_of_lt room), Nat.min_eq_left room, decide_eq_false (by omega),
        decide_eq_false (by omega)]
      exact syncChannel_room beyond room
    · rw [Nat.min_eq_right (by omega), Nat.min_eq_right (by omega),
        decide_eq_true (p := r.block.capacity < count + 1) (by omega)]
      exact syncChannel_full beyond _ count

variable {r : Reader} (beyond : Nat → UInt8)

/-- **The restart**: the block begins again with the samples of the scratch array. -/
theorem syncUpdate_room (positive : 0 < r.block.capacity)
    (room : r.channels.toNat ≤ r.block.capacity) :
    r.syncUpdate beyond =
      ({ r.resynced beyond r.channels.toNat with
        block := { (r.resynced beyond r.channels.toNat).block with ready := false }
        state := .dod }, false, [.restarted]) := by
  have synced := syncChannels_eq r beyond r.channels.toNat
  rw [Nat.min_eq_left room, decide_eq_false (by omega)] at synced
  have start : r.resynced beyond 0 =
      { r with block := { r.block with counter := r.scratchCounter, samples := [] } } := rfl
  rw [start] at synced
  simp only [Reader.syncUpdate, if_neg (Nat.ne_of_gt positive), synced]
  rfl

/-- **A block without room for one row**: the exception leaves the restart. -/
theorem syncUpdate_throws (positive : 0 < r.block.capacity)
    (full : r.block.capacity < r.channels.toNat) :
    r.syncUpdate beyond = (r.resynced beyond r.block.capacity, true, []) := by
  have synced := syncChannels_eq r beyond r.channels.toNat
  rw [Nat.min_eq_right (by omega), decide_eq_true full] at synced
  have start : r.resynced beyond 0 =
      { r with block := { r.block with counter := r.scratchCounter, samples := [] } } := rfl
  rw [start] at synced
  simp only [Reader.syncUpdate, if_neg (Nat.ne_of_gt positive), synced]
  rfl

/-- **A block without room at all**: the restart returns early. -/
theorem syncUpdate_zero (zero : r.block.capacity = 0) :
    r.syncUpdate beyond = (r.resynced beyond 0, false, []) := if_pos zero

/-- What the restart leaves alone. -/
structure SyncFrame (r result : Reader) : Prop where
  channels : result.channels = r.channels
  index : result.currentChannel = r.currentChannel
  stateRem : result.stateRem = r.stateRem
  dodBuf : result.dodBuf = r.dodBuf
  inSync : result.inSync = r.inSync
  capacity : result.block.capacity = r.block.capacity
  ccs : ∀ i, r.block.capacity ≤ i → result.ccs i = r.ccs i

theorem begin_frame (r : Reader) (call : Call) : SyncFrame r (r.begin_ call).1 := by
  unfold Reader.begin_
  split
  · rcases Nat.eq_zero_or_pos r.block.capacity with zero | positive
    · rw [syncUpdate_zero _ zero]
      exact ⟨rfl, rfl, rfl, rfl, rfl, rfl,
        fun i _ => syncStates_of_le r call.beyond (Nat.zero_le i)⟩
    · rcases Nat.lt_or_ge r.block.capacity r.channels.toNat with full | room
      · rw [syncUpdate_throws _ positive full]
        exact ⟨rfl, rfl, rfl, rfl, rfl, rfl, fun i behind => syncStates_of_le r call.beyond behind⟩
      · rw [syncUpdate_room _ positive room]
        exact ⟨rfl, rfl, rfl, rfl, rfl, rfl, fun i behind =>
          syncStates_of_le r call.beyond (room.trans behind)⟩
  · exact ⟨rfl, rfl, rfl, rfl, rfl, rfl, fun _ _ => rfl⟩

/-- Before a chunk is decoded, nothing but a restart happens. -/
theorem begin_events (r : Reader) (call : Call) :
    (r.begin_ call).2.2 = [] ∨ (r.begin_ call).2.2 = [.restarted] := by
  unfold Reader.begin_
  split
  · rcases Nat.eq_zero_or_pos r.block.capacity with zero | positive
    · rw [syncUpdate_zero _ zero]
      exact .inl rfl
    · rcases Nat.lt_or_ge r.block.capacity r.channels.toNat with full | room
      · rw [syncUpdate_throws _ positive full]
        exact .inl rfl
      · rw [syncUpdate_room _ positive room]
        exact .inr rfl
  · exact .inl rfl

theorem begin_of_parsing {r : Reader} (parsing : r.state ≠ .sample) (call : Call) :
    r.begin_ call = (r, false, []) := if_neg fun both => parsing both.2

theorem begin_of_unsynced {r : Reader} (unsynced : r.inSync = false) (call : Call) :
    r.begin_ call = (r, false, []) := if_neg fun both => by
  rw [unsynced] at both
  exact Bool.false_ne_true both.1

/-! ### Calls -/

theorem decode_empty (r : Reader) {call : Call} (empty : call.bytes = []) :
    r.decode call = (r, [.returned .ok]) := if_pos empty

theorem decode_of_thrown {r : Reader} {call : Call} (some_ : call.bytes ≠ [])
    (thrown : (r.begin_ call).2.1 = true) :
    r.decode call = ((r.begin_ call).1, (r.begin_ call).2.2 ++ [.vectorFull]) := by
  rw [Reader.decode, if_neg some_]
  exact if_pos thrown

theorem decode_of_begun {r : Reader} {call : Call} (some_ : call.bytes ≠ [])
    (begun : (r.begin_ call).2.1 = false) :
    r.decode call = (((r.begin_ call).1.decodeBody call).1,
      (r.begin_ call).2.2 ++ ((r.begin_ call).1.decodeBody call).2) := by
  rw [Reader.decode, if_neg some_]
  exact if_neg (by rw [begun]; exact Bool.false_ne_true)

/-- A FLUSH. -/
def flushes (call : Call) : Bool := call.type = .control && call.bytes.head? = some flushCode

/-- A resync block that is accepted. -/
def resyncs (channels : UInt8) (call : Call) : Bool :=
  call.type = .control && call.bytes.head? = some resyncDod && wellFormed channels call.bytes.length

theorem resyncs_iff {channels : UInt8} {call : Call} :
    resyncs channels call = true ↔ call.type = .control ∧ call.bytes.head? = some resyncDod ∧
      wellFormed channels call.bytes.length = true := by
  simp only [resyncs, Bool.and_eq_true, decide_eq_true_eq, and_assoc]

/-- An empty chunk, and the control bytes it does not have. -/
theorem rejected_of_empty (channels : UInt8) {call : Call} (empty : call.bytes = []) :
    flushes call = false ∧ resyncs channels call = false := by
  simp [flushes, resyncs, empty]

theorem rejected_of_sample (channels : UInt8) {call : Call} (sample : call.type = .sample) :
    flushes call = false ∧ resyncs channels call = false := by
  simp [flushes, resyncs, sample]

/-- A control chunk, by the way it is taken. -/
inductive ControlStep (r : Reader) (call : Call) : Prop
  | flush (isFlush : flushes call = true) (notResync : resyncs r.channels call = false)
      (same : r.decodeControl call = r.decodeFlush)
  | resync (notFlush : flushes call = false) (isResync : resyncs r.channels call = true)
      (same : r.decodeControl call = r.decodeResyncDod call)
  | rejected (notFlush : flushes call = false) (notResync : resyncs r.channels call = false)
      (same : (r.decodeControl call).1 = r)

theorem controlStep (r : Reader) {call : Call} (control : call.type = .control) :
    ControlStep r call := by
  have different : resyncDod ≠ flushCode := by decide
  by_cases resync : call.bytes.head? = some resyncDod
  · have notFlush : flushes call = false := by
      simp [flushes, resync, different]
    have same : r.decodeControl call = r.decodeResyncDod call := if_pos resync
    by_cases wf : wellFormed r.channels call.bytes.length = true
    · exact .resync notFlush (by simp [resyncs, control, resync, wf]) same
    · refine .rejected notFlush (by simp [resyncs, wf]) ?_
      rw [same, Reader.decodeResyncDod, if_neg wf]
  · have notResync : resyncs r.channels call = false := by simp [resyncs, resync]
    by_cases flush : call.bytes.head? = some flushCode
    · refine .flush (by simp [flushes, control, flush]) notResync ?_
      rw [Reader.decodeControl, if_neg resync, if_pos flush]
    · refine .rejected (by simp [flushes, flush]) notResync ?_
      rw [Reader.decodeControl, if_neg resync, if_neg flush]

/-- What a control block leaves alone. -/
structure ControlFrame (r result : Reader) : Prop where
  channels : result.channels = r.channels
  index : result.currentChannel = r.currentChannel
  samples : result.block.samples = r.block.samples
  capacity : result.block.capacity = r.block.capacity

theorem decodeControl_frame (r : Reader) (call : Call) :
    ControlFrame r (r.decodeControl call).1 := by
  unfold Reader.decodeControl Reader.decodeResyncDod Reader.decodeFlush
  split
  · split <;> exact ⟨rfl, rfl, rfl, rfl⟩
  · split
    · simp only
      split <;> exact ⟨rfl, rfl, rfl, rfl⟩
    · exact ⟨rfl, rfl, rfl, rfl⟩

/-- A control block is answered, and does nothing else that is recorded. -/
theorem decodeControl_events (r : Reader) (call : Call) :
    ∃ error, (r.decodeControl call).2 = [.returned error] := by
  unfold Reader.decodeControl Reader.decodeResyncDod Reader.decodeFlush
  split
  · split <;> exact ⟨_, rfl⟩
  · split <;> exact ⟨_, rfl⟩

/-- What a sample chunk leaves alone, and how the block grows. -/
structure ChunkFrame (r result : Reader) : Prop where
  channels : result.channels = r.channels
  inSync : result.inSync = r.inSync
  parsing : result.state = .sample ↔ r.state = .sample
  ready : result.block.ready = r.block.ready
  capacity : result.block.capacity = r.block.capacity
  samples : r.block.samples <+: result.block.samples

theorem decodeByte_frame (r : Reader) (byte : UInt8) : ChunkFrame r (r.decodeByte byte).1 := by
  have frame := decodeToken_frame r byte
  have kept : ChunkFrame r (r.decodeToken byte).1 :=
    ⟨frame.channels, frame.inSync, frame.parsing, by rw [frame.block], by rw [frame.block],
      frame.block ▸ List.prefix_rfl⟩
  by_cases last : (r.decodeToken byte).1.currentChannel = r.channels
  · rcases Nat.lt_or_ge r.block.available r.channels.toNat with full | room
    · rw [decodeByte_full last full]
      exact kept
    · rw [decodeByte_room last room]
      exact ⟨kept.channels, kept.inSync, kept.parsing, kept.ready, kept.capacity,
        kept.samples.trans (List.prefix_append _ _)⟩
  · rw [decodeByte_more last]
    exact kept

theorem decodeSample_frame (r : Reader) (bytes : List UInt8) :
    ChunkFrame r (r.decodeSample bytes).1 := by
  refine EventMachine.run_invariant _ (ChunkFrame r) (fun result byte kept => ?_)
    ⟨rfl, rfl, Iff.rfl, rfl, rfl, List.prefix_rfl⟩ bytes
  have more := decodeByte_frame result byte
  exact ⟨more.channels.trans kept.channels, more.inSync.trans kept.inSync,
    more.parsing.trans kept.parsing, more.ready.trans kept.ready,
    more.capacity.trans kept.capacity, kept.samples.trans more.samples⟩

/-- The channel count and the capacity never change. -/
theorem decode_size (r : Reader) (call : Call) :
    (r.decode call).1.channels = r.channels ∧
      (r.decode call).1.block.capacity = r.block.capacity := by
  have begun := begin_frame r call
  by_cases empty : call.bytes = []
  · rw [decode_empty r empty]
    exact ⟨rfl, rfl⟩
  · by_cases thrown : (r.begin_ call).2.1 = true
    · rw [decode_of_thrown empty thrown]
      exact ⟨begun.channels, begun.capacity⟩
    · rw [decode_of_begun empty (eq_false_of_ne_true thrown), ← begun.channels, ← begun.capacity]
      unfold Reader.decodeBody
      split
      · have frame := decodeControl_frame (r.begin_ call).1 call
        exact ⟨frame.channels, frame.capacity⟩
      · split
        · have frame := decodeSample_frame (r.begin_ call).1 call.bytes
          exact ⟨frame.channels, frame.capacity⟩
        · exact ⟨rfl, rfl⟩

/-! ### A block without room for a row -/

/-- Not synchronised, or behind a resync block, whose restart throws. -/
structure Blocked (r : Reader) : Prop where
  ready : r.block.ready = false
  positive : 0 < r.block.capacity
  full : r.block.capacity < r.channels.toNat
  state : r.inSync = false ∨ r.state = .sample

theorem decode_blocked {r : Reader} (blocked : Blocked r) (call : Call) :
    Blocked (r.decode call).1 := by
  by_cases empty : call.bytes = []
  · rw [decode_empty r empty]
    exact blocked
  · cases synced : r.inSync with
    | true =>
      have waiting := blocked.state.resolve_left (by rw [synced]; exact Bool.noConfusion)
      have begun : r.begin_ call = r.syncUpdate call.beyond := if_pos ⟨synced, waiting⟩
      rw [syncUpdate_throws call.beyond blocked.positive blocked.full] at begun
      rw [decode_of_thrown empty (by rw [begun]), begun]
      exact ⟨blocked.ready, blocked.positive, blocked.full, .inr waiting⟩
    | false =>
      have begun := begin_of_unsynced synced call
      rw [decode_of_begun empty (by rw [begun]), begun]
      unfold Reader.decodeBody
      split
      case h_1 kind =>
        rcases controlStep r kind with ⟨_, _, taken⟩ | ⟨_, isResync, taken⟩ | ⟨_, _, taken⟩
        · rw [taken, Reader.decodeFlush, if_neg (by rw [synced]; exact Bool.false_ne_true)]
          exact blocked
        · rw [taken, Reader.decodeResyncDod]
          split
          · exact ⟨(if_neg (by rw [synced]; exact Bool.false_ne_true)).trans blocked.ready,
              blocked.positive, blocked.full, .inr rfl⟩
          · exact blocked
        · rw [taken]
          exact blocked
      case h_2 =>
        rw [if_neg (by rw [synced]; exact Bool.false_ne_true)]
        exact blocked

end ForgeDrive.Daq
