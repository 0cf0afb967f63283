/-
**What the reader makes of what the writer has sent.**

* `decodeAndGet_bytes` — a chunk of sample bytes is taken as its bytes would be, one by one;
* `run_row` — the residuals of a row, none of which is `Misread`, append the row to the block and
  move the channel states as the writer has moved its own;
* `scratchState_resyncBlock`, `scratchCounter_resyncBlock` — a resync block carries the channel
  states of the writer, and its counter.
-/

import ForgeDrive.Daq.HandOut
import ForgeDrive.Daq.Resync
import ForgeDrive.Daq.WriterSteps
import Mathlib.Data.Nat.Bitwise

namespace ForgeDrive.Daq

open EventMachine (run run_cons run_append_fst)

/-! ### What is handed out -/

/-- The samples handed out. -/
def handed (events : List Event) : List Int16 :=
  events.flatMap fun
    | .handedOut span => span
    | _ => []

theorem handed_append (first second : List Event) :
    handed (first ++ second) = handed first ++ handed second := List.flatMap_append

theorem handed_quiet {events : List Event} (quiet : ∀ event ∈ events, event.Quiet) :
    handed events = [] := by
  apply List.flatMap_eq_nil_iff.mpr
  intro event member
  have isQuiet := quiet event member
  cases event with
  | handedOut span => exact isQuiet.elim
  | _ => rfl

/-- `decode` alone hands nothing out. -/
theorem handed_decode (r : Reader) (call : Call) : handed (r.decode call).2 = [] := by
  have before : handed (r.begin_ call).2.2 = [] := by
    rcases begin_events r call with events | events
    · rw [events]; rfl
    · rw [events]; rfl
  by_cases empty : call.bytes = []
  · rw [decode_empty r empty]
    rfl
  · by_cases thrown : (r.begin_ call).2.1 = true
    · rw [decode_of_thrown empty thrown, handed_append, before]
      rfl
    · rw [decode_of_begun empty (eq_false_of_ne_true thrown), handed_append, before,
        List.nil_append]
      unfold Reader.decodeBody
      split
      · exact handed_quiet (quiet_answer (decodeControl_events _ call))
      · split
        · exact handed_quiet (decodeSample_quiet _ call.bytes)
        · rfl

section Calls

variable {channels : UInt8} {r : Reader} {call : Call}

theorem Between.decodeAndGet (between : Between channels r) :
    Between channels (r.decodeAndGet call).1 := by
  obtain ⟨same, capacity⟩ := decode_size r call
  have room := between.room
  rw [← capacity] at room
  cases ready : (r.decode call).1.block.ready with
  | true =>
    rw [decodeAndGet_of_ready ready]
    exact ⟨between.positive, room, same.trans between.channels, rfl⟩
  | false =>
    rw [decodeAndGet_of_not_ready ready]
    exact ⟨between.positive, room, same.trans between.channels, ready⟩

/-- Before a chunk, the block has room for a restart, and is not ready behind one. -/
theorem Between.begin_ (between : Between channels r) (call : Call) :
    (r.begin_ call).2.1 = false ∧ (r.begin_ call).1.block.ready = false := by
  have room : r.channels.toNat ≤ r.block.capacity := by
    rw [between.channels]
    exact between.room
  have positive : 0 < r.block.capacity := between.positive.trans_le between.room
  refine ⟨begin_room positive room call, ?_⟩
  unfold Reader.begin_
  split
  · rw [syncUpdate_room _ positive room]
  · exact between.ready

/-- Nothing is handed out after a sample chunk. -/
theorem Between.decodeAndGet_sample (between : Between channels r) (sample : call.type = .sample) :
    r.decodeAndGet call = r.decode call := by
  apply decodeAndGet_of_not_ready
  obtain ⟨begun, notReady⟩ := between.begin_ call
  by_cases empty : call.bytes = []
  · rw [decode_empty r empty]
    exact between.ready
  · rw [decode_of_begun empty begun, Reader.decodeBody, sample]
    simp only
    split
    · exact (decodeSample_frame _ call.bytes).ready.trans notReady
    · exact notReady

theorem Between.run_samples (between : Between channels r) {calls : List Call}
    (samples : ∀ call ∈ calls, call.type = .sample) :
    (run Reader.decodeAndGet r calls).1 = (run Reader.decode r calls).1 ∧
      handed (run Reader.decodeAndGet r calls).2 = [] := by
  induction calls generalizing r with
  | nil => exact ⟨rfl, rfl⟩
  | cons call rest ih =>
    rw [List.forall_mem_cons] at samples
    have same := between.decodeAndGet_sample samples.1
    have next : Between channels (r.decodeAndGet call).1 := between.decodeAndGet
    rw [same] at next
    obtain ⟨states, nothing⟩ := ih next samples.2
    rw [run_cons, run_cons, same, handed_append, handed_decode, nothing, states]
    exact ⟨rfl, rfl⟩

/-- Before the first resync block, sample chunks are answered and dropped. -/
theorem run_unsynced (unsynced : r.inSync = false) {calls : List Call}
    (samples : ∀ call ∈ calls, call.type = .sample) : (run Reader.decode r calls).1 = r := by
  induction calls with
  | nil => rfl
  | cons call rest ih =>
    rw [List.forall_mem_cons] at samples
    have same : (r.decode call).1 = r := by
      by_cases empty : call.bytes = []
      · rw [decode_empty r empty]
      · have begun := begin_of_unsynced unsynced call
        rw [decode_of_begun empty (by rw [begun]), begun]
        show (r.decodeBody call).1 = r
        rw [Reader.decodeBody, samples.1]
        simp only [unsynced, Bool.false_eq_true, if_false]
    rw [run_cons, same]
    exact ih samples.2

end Calls

/-! ### The block that is open -/

/-- The reader at the next chunk: behind a resync block, it is restarted. -/
def Reader.opened (r : Reader) (beyond : Nat → UInt8) : Reader :=
  if r.state = .sample then r.restarted beyond else r

/-- The rows of the block that is open. -/
def Reader.openRows (r : Reader) : List Int16 :=
  if r.inSync then (r.opened fun _ => 0).block.samples else []

section Opened

variable {r : Reader}

theorem opened_parsing (parsing : r.state ≠ .sample) (beyond : Nat → UInt8) :
    r.opened beyond = r := if_neg parsing

theorem opened_waiting (waiting : r.state = .sample) (beyond : Nat → UInt8) :
    r.opened beyond = r.restarted beyond := if_pos waiting

theorem scratchState_beyond (beyond other : Nat → UInt8) {i : Nat} (few : i < 14) :
    r.scratchState other i = r.scratchState beyond i :=
  scratchState_congr beyond other (show 64 ≤ scratchSize from le_rfl) (fun _ _ => rfl) (by omega)

/-- What is behind the scratch array does not count. -/
theorem opened_beyond (few : r.channels.toNat ≤ 14) (beyond other : Nat → UInt8) :
    (r.opened other).block.samples = (r.opened beyond).block.samples ∧
      ∀ i < r.channels.toNat, (r.opened other).ccs i = (r.opened beyond).ccs i := by
  by_cases waiting : r.state = .sample
  · rw [opened_waiting waiting, opened_waiting waiting]
    refine ⟨List.map_congr_left fun i member => ?_, fun i inside => ?_⟩
    · have inside := List.mem_range.mp member
      rw [scratchState_beyond beyond other (by omega)]
    · show r.syncStates other r.channels.toNat i = r.syncStates beyond r.channels.toNat i
      rw [syncStates_of_lt _ _ inside, syncStates_of_lt _ _ inside,
        scratchState_beyond beyond other (by omega)]
  · rw [opened_parsing waiting, opened_parsing waiting]
    exact ⟨rfl, fun _ _ => rfl⟩

/-- **Sample chunks** go to the block that is open. -/
theorem run_opened {channels : UInt8} (between : Between channels r) (synced : r.inSync = true)
    {calls : List Call} (samples : ∀ call ∈ calls, call.type = .sample)
    (some_ : ∃ call ∈ calls, call.bytes ≠ []) :
    ∃ call ∈ calls, (run Reader.decode r calls).1 =
      (run Reader.decodeByte (r.opened call.beyond) (calls.flatMap Call.bytes)).1 := by
  by_cases waiting : r.state = .sample
  · obtain ⟨skipped, call, rest, rfl, nonempty, empty⟩ := exists_first_some some_
    have positive : 0 < r.block.capacity := between.positive.trans_le between.room
    have room : r.channels.toNat ≤ r.block.capacity := by
      rw [between.channels]
      exact between.room
    have sample := samples call (by simp)
    have later := fun chunk member => samples chunk
      (List.mem_append_right skipped (List.mem_cons_of_mem call member))
    have none_ : skipped.flatMap Call.bytes = [] := List.flatMap_eq_nil_iff.mpr empty
    refine ⟨call, by simp, ?_⟩
    rw [opened_waiting waiting, List.flatMap_append, none_, List.nil_append]
    exact run_waiting synced waiting positive room empty nonempty sample later
  · obtain ⟨call, member, -⟩ := some_
    refine ⟨call, member, ?_⟩
    rw [opened_parsing waiting]
    exact run_parsing synced waiting samples

end Opened

/-! ### A chunk of sample bytes -/

/-- A chunk of one sample byte. -/
def byteCall (beyond : Nat → UInt8) (byte : UInt8) : Call := ⟨[byte], .sample, 0, beyond⟩

theorem byteCalls_bytes (beyond : Nat → UInt8) (bytes : List UInt8) :
    (bytes.map (byteCall beyond)).flatMap Call.bytes = bytes := by
  induction bytes with
  | nil => rfl
  | cons byte rest ih => rw [List.map_cons, List.flatMap_cons, ih]; rfl

/-- **A chunk of sample bytes** is taken as its bytes are, one by one. -/
theorem decodeAndGet_bytes {channels : UInt8} {r : Reader} (between : Between channels r)
    {call : Call} (sample : call.type = .sample) :
    (r.decodeAndGet call).1 =
        (run Reader.decodeAndGet r (call.bytes.map (byteCall call.beyond))).1 ∧
      handed (r.decodeAndGet call).2 =
        handed (run Reader.decodeAndGet r (call.bytes.map (byteCall call.beyond))).2 := by
  have one : ∀ chunk ∈ [call], chunk.type = .sample := fun chunk member => by
    rw [List.mem_singleton.mp member, sample]
  have all : ∀ chunk ∈ call.bytes.map (byteCall call.beyond), chunk.type = .sample := by
    intro chunk member
    obtain ⟨byte, -, rfl⟩ := List.mem_map.mp member
    rfl
  have whole : (run Reader.decode r [call]).1 = (r.decode call).1 := rfl
  have bytesOne : [call].flatMap Call.bytes = call.bytes := by rw [List.flatMap_singleton]
  obtain ⟨states, nothing⟩ := between.run_samples all
  rw [between.decodeAndGet_sample sample, states, nothing, handed_decode]
  refine ⟨?_, rfl⟩
  by_cases empty : call.bytes = []
  · rw [decode_empty r empty, empty]
    rfl
  · cases synced : r.inSync with
    | false => rw [← whole, run_unsynced synced one, run_unsynced synced all]
    | true =>
      obtain ⟨byte, member⟩ := List.exists_mem_of_ne_nil _ empty
      obtain ⟨first, memberFirst, wholeRun⟩ := run_opened between synced one
        ⟨call, List.mem_singleton_self call, empty⟩
      obtain ⟨second, memberSecond, bytesRun⟩ := run_opened between synced all
        ⟨_, List.mem_map_of_mem member, List.cons_ne_nil _ _⟩
      obtain ⟨_, -, rfl⟩ := List.mem_map.mp memberSecond
      rw [← whole, wholeRun, bytesRun, List.mem_singleton.mp memberFirst, bytesOne, byteCalls_bytes]
      rfl

/-! ### Control blocks -/

section Control

variable {channels : UInt8} {r : Reader} {call : Call}

theorem begin_opened (between : Between channels r) (synced : r.inSync = true) (call : Call) :
    (r.begin_ call).1 = r.opened call.beyond := by
  unfold Reader.begin_
  by_cases waiting : r.state = .sample
  · have positive : 0 < r.block.capacity := between.positive.trans_le between.room
    rw [if_pos ⟨synced, waiting⟩, opened_waiting waiting,
      syncUpdate_room _ positive (by rw [between.channels]; exact between.room)]
    rfl
  · rw [if_neg fun both => waiting both.2, opened_parsing waiting]

/-- **A resync block** closes the block that is open, and begins the next one. -/
theorem decodeAndGet_resync (between : Between channels r) (few : r.channels.toNat ≤ 14)
    (wellFormed_ : resyncs r.channels call = true) :
    (r.decodeAndGet call).1 =
        { (r.begin_ call).1.stashed call with
          block := { (r.begin_ call).1.block with ready := false } } ∧
      handed (r.decodeAndGet call).2 = r.openRows := by
  obtain ⟨begun, notReady⟩ := between.begin_ call
  have frame := begin_frame r call
  have decoded := decode_resync wellFormed_ begun
  cases synced : r.inSync with
  | true =>
    have ready : (r.decode call).1.block.ready = true := by
      rw [decoded]
      exact if_pos (frame.inSync.trans synced)
    have samples := (opened_beyond few call.beyond fun _ => 0).1
    rw [decodeAndGet_of_ready ready, handed_append, handed_decode, decoded]
    refine ⟨rfl, ?_⟩
    show [] ++ ((r.begin_ call).1.block.samples ++ []) = r.openRows
    rw [begin_opened between synced, List.nil_append, List.append_nil, Reader.openRows, synced,
      ← samples]
    rfl
  | false =>
    have unsynced : ((r.begin_ call).1.inSync : Bool) = false := frame.inSync.trans synced
    have stashed : (if (r.begin_ call).1.inSync then true else (r.begin_ call).1.block.ready) =
        false := by rw [unsynced, notReady]; rfl
    have notReadyNext : (r.decode call).1.block.ready = false := by
      rw [decoded]
      exact stashed
    rw [decodeAndGet_of_not_ready notReadyNext, handed_decode, decoded, Reader.openRows, synced]
    refine ⟨?_, rfl⟩
    rw [Reader.stashed, stashed]

theorem decodeBody_flush (r : Reader) (control : call.type = .control)
    (bytes : call.bytes = [flushCode]) : r.decodeBody call = r.decodeFlush := by
  rw [Reader.decodeBody, control]
  show r.decodeControl call = _
  rw [Reader.decodeControl, bytes, if_neg (by decide), if_pos (by decide)]

/-- **A FLUSH** hands out the block that is open. -/
theorem decodeAndGet_flush (between : Between channels r) (few : r.channels.toNat ≤ 14)
    (control : call.type = .control) (bytes : call.bytes = [flushCode]) :
    handed (r.decodeAndGet call).2 = r.openRows := by
  obtain ⟨begun, notReady⟩ := between.begin_ call
  have frame := begin_frame r call
  have some_ : call.bytes ≠ [] := by rw [bytes]; exact List.cons_ne_nil _ _
  have decoded := decode_of_begun some_ begun
  rw [decodeBody_flush _ control bytes] at decoded
  cases synced : r.inSync with
  | true =>
    have flushed : (r.begin_ call).1.decodeFlush.1 =
        { (r.begin_ call).1 with block := { (r.begin_ call).1.block with ready := true } } :=
      if_pos (frame.inSync.trans synced)
    have samples := (opened_beyond few call.beyond fun _ => 0).1
    rw [decodeAndGet_of_ready (by rw [decoded, flushed]), handed_append, handed_decode, decoded,
      flushed]
    show [] ++ ((r.begin_ call).1.block.samples ++ []) = r.openRows
    rw [begin_opened between synced, List.nil_append, List.append_nil, Reader.openRows, synced,
      ← samples]
    rfl
  | false =>
    have flushed : (r.begin_ call).1.decodeFlush.1 = (r.begin_ call).1 :=
      if_neg (by rw [frame.inSync, synced]; exact Bool.false_ne_true)
    rw [decodeAndGet_of_not_ready (by rw [decoded, flushed]; exact notReady), handed_decode,
      Reader.openRows, synced]
    rfl

end Control

/-! ### The residuals of a row -/

/-- The reader behind a residual: it was written at the index. -/
structure TokenDone (r : Reader) (dod : Int16) (result : Reader) : Prop
    extends TokenFrame r result where
  dodBuf : result.dodBuf = Function.update r.dodBuf r.currentChannel.toNat dod
  index : result.currentChannel = r.currentChannel + 1
  state : result.state = .dod

section Token

variable {r : Reader}

theorem decodeToken_plain (state : r.state = .dod) {byte : UInt8} (small : byte.toNat < 240) :
    r.decodeToken byte = r.writeDod (unzigzag byte.toUInt16) := by
  have end_ : virtualBitsEnd.toNat = 247 := rfl
  have start : virtualBitsStart.toNat = 240 := rfl
  have notEscape : ¬ byte > virtualBitsEnd := fun more => by
    have moreNat := UInt8.lt_iff_toNat_lt.mp more
    omega
  have notVirtual : ¬ byte > virtualBitsStart := fun more => by
    have moreNat := UInt8.lt_iff_toNat_lt.mp more
    omega
  rw [Reader.decodeToken, state]
  simp only [Reader.decodeDod, if_neg notEscape, if_neg notVirtual]

theorem decodeToken_virtual (state : r.state = .dod) {high : UInt8} (positive : 0 < high.toNat)
    (small : high.toNat < 8) : r.decodeToken (virtualBitsStart + high) =
      ({ r with
          state := .virtualBits
          stateRem := 1
          scratchBuf := Function.update r.scratchBuf 0 high }, []) := by
  have end_ : virtualBitsEnd.toNat = 247 := rfl
  have start : virtualBitsStart.toNat = 240 := rfl
  have sum : (virtualBitsStart + high).toNat = 240 + high.toNat := by
    rw [UInt8.toNat_add, start]
    omega
  have notEscape : ¬ virtualBitsStart + high > virtualBitsEnd := fun more => by
    have moreNat := UInt8.lt_iff_toNat_lt.mp more
    omega
  have virtual : virtualBitsStart + high > virtualBitsStart :=
    UInt8.lt_iff_toNat_lt.mpr (by omega)
  have rest : virtualBitsStart + high - virtualBitsStart = high := by
    rw [UInt8.add_comm, UInt8.add_sub_cancel]
  rw [Reader.decodeToken, state]
  simp only [Reader.decodeDod, if_neg notEscape, if_pos virtual, rest]

theorem decodeToken_escape (state : r.state = .dod) :
    r.decodeToken large16 = ({ r with state := .large16, stateRem := 2 }, []) := by
  rw [Reader.decodeToken, state]
  exact if_pos (by decide)

/-- The last byte of a residual of two or three bytes, whose high byte is in the scratch array. -/
theorem decodeByte_last {dod : Int16} {state : ReaderState}
    (long : state = .virtualBits ∨ state = .large16) (parsing : r.state ≠ .sample)
    {scratch : Nat → UInt8} {low : UInt8} (value : word (scratch 0) low = zigzag dod) :
    ∃ result, TokenDone r dod result ∧
      (({ r with state := state, stateRem := 1, scratchBuf := scratch } : Reader).decodeByte
        low).1 =
        if result.currentChannel = result.channels then result.emitSample else result := by
  let filled : Reader :=
    { r with state := state, stateRem := 1, scratchBuf := Function.update scratch 1 low }
  have token :
      ({ r with state := state, stateRem := 1, scratchBuf := scratch } : Reader).decodeToken low =
        filled.finishToken := by
    rcases long with rfl | rfl
    · rfl
    · have place : ((2 : UInt8) - 1).toNat = 1 := rfl
      simp only [Reader.decodeToken, Reader.decodeLarge16, place, filled]
  have zero : (1 : UInt8) - 1 = 0 := rfl
  have finished : filled.finishToken =
      ({ r with
          state := .dod
          stateRem := 0
          scratchBuf := Function.update scratch 1 low
          dodBuf := Function.update r.dodBuf r.currentChannel.toNat dod
          currentChannel := r.currentChannel + 1 }, [.dodWrite r.currentChannel.toNat]) := by
    have dodEq : ({ filled with stateRem := 0 } : Reader).scratchValue = dod := by
      rw [Reader.scratchValue]
      show unzigzag (word (scratch 0) low) = dod
      rw [value, unzigzag_zigzag]
    rw [Reader.finishToken]
    simp only [show filled.stateRem - 1 = 0 from zero, if_true, dodEq]
    rfl
  refine ⟨filled.finishToken.1, ?_, by rw [Reader.decodeByte, token]⟩
  rw [finished]
  exact ⟨⟨rfl, rfl, rfl, rfl, fun other => ReaderState.noConfusion other,
    fun other => absurd other parsing⟩, rfl, rfl, rfl⟩

/-- **A residual that is not `Misread`** is written as it was, and completes the row if it is the
last. -/
theorem run_residual (state : r.state = .dod) (more : r.currentChannel ≠ r.channels) {dod : Int16}
    (clear : ¬ Misread dod) : ∃ result, TokenDone r dod result ∧
      (run Reader.decodeByte r (residualBytes dod)).1 =
        if result.currentChannel = result.channels then result.emitSample else result := by
  have parsing : r.state ≠ .sample := by rw [state]; exact ReaderState.noConfusion
  rcases written clear with ⟨byte, bytes, small, value⟩ |
    ⟨high, low, bytes, positive, small, value⟩ | ⟨high, low, bytes, value⟩
  case one =>
    refine ⟨(r.writeDod dod).1, ⟨⟨rfl, rfl, rfl, rfl, Iff.rfl⟩, rfl, rfl, state⟩, ?_⟩
    rw [bytes, run_cons]
    show (r.decodeByte byte).1 = _
    simp only [Reader.decodeByte, decodeToken_plain state small, value, unzigzag_zigzag]
  case two =>
    have first : (r.decodeByte (virtualBitsStart + high)).1 =
        { r with
          state := .virtualBits
          stateRem := 1
          scratchBuf := Function.update r.scratchBuf 0 high } := by
      have token := decodeToken_virtual state positive small
      rw [decodeByte_more (by rw [token]; exact more), token]
    rw [bytes, run_cons, first]
    exact decodeByte_last (.inl rfl) parsing value
  case three =>
    have first : (r.decodeByte large16).1 = { r with state := .large16, stateRem := 2 } := by
      have token := decodeToken_escape state
      rw [decodeByte_more (by rw [token]; exact more), token]
    have second : (({ r with state := .large16, stateRem := 2 } : Reader).decodeByte high).1 =
        { r with
          state := .large16
          stateRem := 1
          scratchBuf := Function.update r.scratchBuf 0 high } := by
      have place : ((2 : UInt8) - 2).toNat = 0 := rfl
      have left : (2 : UInt8) - 1 = 1 := rfl
      have some_ : (1 : UInt8) ≠ 0 := by decide
      have token : ({ r with state := .large16, stateRem := 2 } : Reader).decodeToken high =
          ({ r with
              state := .large16
              stateRem := 1
              scratchBuf := Function.update r.scratchBuf 0 high }, []) := by
        simp only [Reader.decodeToken, Reader.decodeLarge16, Reader.finishToken, place, left,
          if_neg some_]
      rw [decodeByte_more (by rw [token]; exact more), token]
    rw [bytes, run_cons, first, run_cons, second]
    exact decodeByte_last (.inr rfl) parsing value

end Token

/-- The reader within a row: the first residuals are in `dod_buf`. -/
structure Partway (r : Reader) (dods : Nat → Int16) (count : Nat) (result : Reader) : Prop
    extends TokenFrame r result where
  dods : ∀ i < count, result.dodBuf i = dods i
  index : result.currentChannel.toNat = count
  state : result.state = .dod

/-- The reader behind a row: the row is in the block, and the channel states are those of the
writer. -/
structure RowRead (c : Nat) (w : Writer) (row : Nat → Int16) (r result : Reader) : Prop where
  channels : result.channels = r.channels
  inSync : result.inSync = r.inSync
  state : result.state = .dod
  index : result.currentChannel = 0
  ready : result.block.ready = r.block.ready
  capacity : result.block.capacity = r.block.capacity
  samples : result.block.samples = r.block.samples ++ (List.range c).map row
  ccs : ∀ i < c, result.ccs i = w.rowStates row c i

section Row

variable {c : Nat} {w : Writer} {row : Nat → Int16} {r : Reader}

/-- The first residuals of a row; the last one completes it. -/
theorem run_residuals (state : r.state = .dod) (index : r.currentChannel = 0)
    (channels : r.channels.toNat = c) (positive : 1 ≤ c)
    (clear : ∀ i < c, ¬ Misread (w.residual row i)) {count : Nat} (within : count ≤ c) :
    ∃ result, Partway r (w.residual row) count result ∧
      (run Reader.decodeByte r (w.rowBytes row count)).1 =
        if result.currentChannel = result.channels then result.emitSample else result := by
  induction count with
  | zero =>
    refine ⟨r, ⟨⟨rfl, rfl, rfl, rfl, Iff.rfl⟩, fun i before => absurd before (Nat.not_lt_zero i),
      by rw [index]; rfl, state⟩, ?_⟩
    have open_ : r.currentChannel ≠ r.channels := fun same => by
      rw [← same, index] at channels
      exact absurd channels.symm (Nat.ne_of_gt positive)
    rw [if_neg open_]
    rfl
  | succ count ih =>
    obtain ⟨before, partway, reached⟩ := ih (by omega)
    have open_ : before.currentChannel ≠ before.channels := fun same => by
      have sameNat := congrArg UInt8.toNat same
      rw [partway.index, partway.channels, channels] at sameNat
      omega
    obtain ⟨result, done, completed⟩ := run_residual partway.state open_ (clear count (by omega))
    rw [if_neg open_] at reached
    have below : before.currentChannel.toNat < before.channels.toNat := by
      rw [partway.index, partway.channels, channels]
      omega
    refine ⟨result, ⟨⟨done.channels.trans partway.channels, done.block.trans partway.block,
      done.ccs.trans partway.ccs, done.inSync.trans partway.inSync,
      done.parsing.trans partway.parsing⟩, fun i inside => ?_, ?_, done.state⟩, ?_⟩
    · rw [done.dodBuf, partway.index]
      rcases Nat.lt_succ_iff_lt_or_eq.mp inside with earlier | rfl
      · rw [Function.update_of_ne (Nat.ne_of_lt earlier), partway.dods i earlier]
      · rw [Function.update_self]
    · rw [done.index, index_succ below, partway.index]
    · rw [rowBytes_succ, run_append_fst, reached, completed]

/-- **A row** whose residuals are not `Misread` is decoded as it was pushed. -/
theorem run_row (state : r.state = .dod) (index : r.currentChannel = 0)
    (channels : r.channels.toNat = c) (positive : 1 ≤ c) (states : ∀ i < c, r.ccs i = w.ccs i)
    (room : c ≤ r.block.available) (clear : ∀ i < c, ¬ Misread (w.residual row i)) :
    RowRead c w row r (run Reader.decodeByte r (w.rowBytes row c)).1 := by
  obtain ⟨result, partway, completed⟩ := run_residuals state index channels positive clear le_rfl
  have last : result.currentChannel = result.channels := by
    rw [← UInt8.toNat_inj, partway.index, partway.channels, channels]
  have count : result.channels.toNat = c := by rw [partway.channels, channels]
  have decoded : ∀ i < c, dodDecode (result.ccs i) (result.dodBuf i) =
      ((dodEncode (w.ccs i) (row i)).1, row i) := by
    intro i inside
    rw [partway.ccs, states i inside, partway.dods i inside]
    exact dodDecode_dodEncode (w.ccs i) (row i)
  rw [completed, if_pos last, emitSample_room (by rw [count, partway.block]; exact room)]
  refine ⟨partway.channels, partway.inSync, partway.state, rfl, ?_, ?_, ?_, fun i inside => ?_⟩
  · show result.block.ready = r.block.ready
    rw [partway.block]
  · show result.block.capacity = r.block.capacity
    rw [partway.block]
  · show result.block.samples ++ result.row result.channels.toNat = _
    rw [partway.block, count]
    exact congrArg _ (List.map_congr_left fun i member => by
      rw [decoded i (List.mem_range.mp member)])
  · show result.rowStates result.channels.toNat i = _
    rw [Reader.rowStates, count, if_pos inside, decoded i inside, Writer.rowStates, if_pos inside]

end Row

/-! ### Resync blocks -/

/-- Four bytes of the channel states. -/
theorem stateBytes_getElem (ccs : Nat → ChannelState) {count i k : Nat} (inside : i < count)
    (one : k < 4) : ((List.range count).flatMap fun i => stateBytes (ccs i))[4 * i + k]? =
      (stateBytes (ccs i))[k]? := by
  induction count with
  | zero => exact absurd inside (Nat.not_lt_zero i)
  | succ count ih =>
    have length := stateBytes_length ccs count
    rw [List.range_succ, List.flatMap_append, List.flatMap_singleton]
    rcases Nat.lt_succ_iff_lt_or_eq.mp inside with earlier | rfl
    · rw [List.getElem?_append_left (by omega), ih earlier]
    · rw [List.getElem?_append_right (by omega), length, Nat.add_sub_cancel_left]

section Resync

variable {w : Writer}

theorem resyncs_resyncBlock {channels : UInt8} (few : w.channels ≤ 14)
    (count : channels.toNat = w.channels) {call : Call} (control : call.type = .control)
    (bytes : call.bytes = w.resyncBlock) : resyncs channels call = true := by
  have length := resyncBlock_length (few.trans (by decide))
  have expected : (expectedSize channels).toNat = 5 + 4 * channels.toNat :=
    expectedSize_toNat (by omega)
  have size : scratchSize = 64 := rfl
  have head : w.resyncBlock.head? = some resyncDod := rfl
  simp only [resyncs, wellFormed, control, bytes, head, length, expected, count, decide_true,
    Bool.true_and, decide_eq_true_eq]
  omega

/-- **A resync block carries the channel states of the writer.** -/
theorem scratchState_resyncBlock (few : w.channels ≤ 14) (r : Reader) {call : Call}
    (bytes : call.bytes = w.resyncBlock) (beyond : Nat → UInt8) {i : Nat}
    (inside : i < w.channels) :
    (r.stashed call).scratchState beyond i = w.ccs i := by
  have size : scratchSize = 64 := rfl
  have cell : ∀ k, (one : k < 4) → (r.stashed call).scratchAt beyond (4 + 4 * i + k) =
      (stateBytes (w.ccs i)).get ⟨k, one⟩ := by
    intro k one
    have total := resyncBytes_length (few.trans (by decide))
    have length : 4 + 4 * i + k < (call.bytes.tail ++ [call.past]).length := by
      rw [bytes, Writer.resyncBlock, List.tail_cons, List.length_append, total]
      omega
    have stored := Circular.store_apply_of_lt r.scratchBuf 0 length
    have read : (call.bytes.tail ++ [call.past])[4 + 4 * i + k]? = (stateBytes (w.ccs i))[k]? := by
      have counter : (counterBytes w.sampleCounter).length = 4 := rfl
      rw [bytes, Writer.resyncBlock, List.tail_cons, List.getElem?_append_left (by omega),
        Writer.resyncBytes, List.getElem?_append_right (by omega), counter,
        channelCount_toNat (few.trans (by decide)),
        show 4 + 4 * i + k - 4 = 4 * i + k by omega, stateBytes_getElem w.ccs inside one]
    rw [List.getElem?_eq_getElem length, List.getElem?_eq_getElem one, Option.some.injEq] at read
    rw [Nat.zero_add] at stored
    rw [Reader.scratchAt, Nat.mod_eq_of_lt (by omega), if_pos (by omega)]
    exact stored.trans read
  have first := cell 0 (by decide)
  have second := cell 1 (by decide)
  have third := cell 2 (by decide)
  have fourth := cell 3 (by decide)
  rw [show 4 + 4 * i + 0 = 4 + 4 * i by omega] at first
  rw [show 4 + 4 * i + 1 = 5 + 4 * i by omega] at second
  rw [show 4 + 4 * i + 2 = 6 + 4 * i by omega] at third
  rw [show 4 + 4 * i + 3 = 7 + 4 * i by omega] at fourth
  rw [Reader.scratchState, first, second, third, fourth]
  show (⟨(word ((w.ccs i).sample.toUInt16 >>> 8).toUInt8 (w.ccs i).sample.toUInt16.toUInt8).toInt16,
    (word ((w.ccs i).delta.toUInt16 >>> 8).toUInt8 (w.ccs i).delta.toUInt16.toUInt8).toInt16⟩ :
      ChannelState) = w.ccs i
  rw [word_bytes, word_bytes]
  rfl

/-- Four bytes carry the counter. -/
theorem counter_bytes (counter : UInt32) :
    (counter >>> 24).toUInt8.toUInt32 <<< 24 ||| (counter >>> 16).toUInt8.toUInt32 <<< 16 |||
      (counter >>> 8).toUInt8.toUInt32 <<< 8 ||| counter.toUInt8.toUInt32 = counter := by
  rw [← UInt32.toNat_inj]
  apply Nat.eq_of_testBit_eq
  intro i
  -- what the byte at the bit `k` contributes to the bit `i`
  have octet (k : Nat) :
      (decide (i ≥ k) && (decide (i - k < 8) && counter.toNat.testBit (k + (i - k)))) =
        (decide (k ≤ i ∧ i < k + 8) && counter.toNat.testBit i) := by
    by_cases le : k ≤ i
    · have room : i - k < 8 ↔ i < k + 8 := by omega
      simp only [ge_iff_le, le, true_and, decide_true, Bool.true_and, room, Nat.add_sub_of_le le]
    · simp only [ge_iff_le, le, false_and, decide_false, Bool.false_and]
  simp only [UInt32.toNat_or, UInt32.toNat_shiftLeft, UInt8.toNat_toUInt32, UInt32.toNat_toUInt8,
    UInt32.toNat_shiftRight, Nat.testBit_lor, Nat.testBit_mod_two_pow, Nat.testBit_shiftLeft,
    Nat.testBit_shiftRight, octet]
  by_cases bit : counter.toNat.testBit i = true
  · have below : i < 32 := by
      by_contra above
      have small := lt_of_lt_of_le counter.toNat_lt
        (Nat.pow_le_pow_right (by decide) (Nat.le_of_not_lt above))
      rw [Nat.testBit_eq_false_of_lt small] at bit
      cases bit
    simp only [bit, below, Bool.and_true, decide_true, Bool.true_and, Bool.or_eq_true,
      decide_eq_true_eq, UInt32.reduceToNat, Nat.reduceMod, Nat.reduceAdd, and_true]
    omega
  · simp only [bit, Bool.and_false, Bool.or_false]

/-- **A resync block carries the counter of the writer.** -/
theorem scratchCounter_resyncBlock (r : Reader) {call : Call}
    (bytes : call.bytes = w.resyncBlock) :
    (r.stashed call).scratchCounter = w.sampleCounter := by
  have cell : ∀ k, (one : k < 4) → (r.stashed call).scratchBuf k =
      (counterBytes w.sampleCounter).get ⟨k, one⟩ := by
    intro k one
    have total := resyncBytes_count w
    have length : k < (call.bytes.tail ++ [call.past]).length := by
      rw [bytes, Writer.resyncBlock, List.tail_cons, List.length_append, total]
      omega
    have stored := Circular.store_apply_of_lt r.scratchBuf 0 length
    have read : (call.bytes.tail ++ [call.past])[k]? = (counterBytes w.sampleCounter)[k]? := by
      have counter : (counterBytes w.sampleCounter).length = 4 := rfl
      rw [bytes, Writer.resyncBlock, List.tail_cons, List.getElem?_append_left (by omega),
        Writer.resyncBytes, List.getElem?_append_left (by omega)]
    rw [List.getElem?_eq_getElem length,
      List.getElem?_eq_getElem (l := counterBytes w.sampleCounter) one, Option.some.injEq] at read
    rw [Nat.zero_add] at stored
    exact stored.trans read
  rw [Reader.scratchCounter, cell 0 (by decide), cell 1 (by decide), cell 2 (by decide),
    cell 3 (by decide)]
  exact counter_bytes w.sampleCounter

end Resync

end ForgeDrive.Daq
