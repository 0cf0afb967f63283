/-
**The DAQ codec from end to end**: `Writer::pushSample`, `readNext`, `Reader::decode`,
`getSamples`.

Rows are pushed and chunks are read in any order; each chunk is decoded at once. Between two steps
the reader is behind the writer by a queue, so that the invariant is about the reader that will have
read it (`InStep`).

`lossless_of_clear`: while the writer writes no `Misread` residual, the reader hands out the rows
that were accepted. `not_lossless`: with one it need not.
-/

import ForgeDrive.Daq.Feeding

namespace ForgeDrive.Daq

open EventMachine (run Along Ahead)
open Circular (segment)
open El (RingFast)

/-! ### Sessions -/

/-- What a session begins with: rings and a block of allowed sizes, and memories with anything in
them. -/
structure Setup (c : Nat) where
  positive : 1 ≤ c
  few : c ≤ 14
  streamBuf : Nat → UInt8
  streamSize : UInt16
  streamPower : ∃ exponent ≤ 15, streamSize.toNat = 2 ^ exponent
  streamLarge : 16 * c < streamSize.toNat
  markBuf : Nat → ControlMark
  markSize : UInt16
  markPower : ∃ exponent ≤ 15, markSize.toNat = 2 ^ exponent
  markSlots : streamSize.toNat ≤ markSize.toNat
  writerCcs : Nat → ChannelState
  sampleCounter : UInt32
  syncPeriod : UInt8
  flags : UInt8
  scratchBuf : Nat → UInt8
  dodBuf : Nat → Int16
  readerCcs : Nat → ChannelState
  capacity : Nat
  rows : (syncPeriod.toNat + 1) * c ≤ capacity

/-- A writer and a reader. -/
structure Session where
  writer : Writer
  reader : Reader

/-- The beginning of a session. -/
def Setup.start {c : Nat} (setup : Setup c) : Session where
  writer := .new setup.streamBuf setup.streamSize setup.markBuf setup.markSize setup.writerCcs c
    setup.sampleCounter setup.syncPeriod setup.flags
  reader := .new setup.scratchBuf setup.dodBuf setup.readerCcs c c setup.capacity

/-- A call of `readNext`: the caller's buffer, large enough for a resync block, the indeterminate
value of `dist_to_mark`, and what is behind the scratch array of the reader then. -/
structure Read (c : Nat) where
  buf : Nat → UInt8
  size : Nat
  large : 4 * c + 5 ≤ size
  stale : UInt16
  beyond : Nat → UInt8

/-- What the caller does. -/
inductive Op (c : Nat)
  | push (row : Nat → Int16)
  | read (read : Read c)

/-- What goes in and comes out. -/
inductive Transfer
  | accepted (row : List Int16)
  | received (span : List Int16)
  deriving DecidableEq

/-- The samples of the rows for which `pushSample` returned `true`. -/
def accepted (events : List Transfer) : List Int16 :=
  events.flatMap fun
    | .accepted row => row
    | .received _ => []

/-- The samples that `getSamples` returned. -/
def received (events : List Transfer) : List Int16 :=
  events.flatMap fun
    | .accepted _ => []
    | .received span => span

/-- What `readNext` does for a read. -/
def Session.next {c : Nat} (s : Session) (read : Read c) : ReadResult :=
  s.writer.readNext read.buf read.size read.stale

/-- The chunk that `readNext` returned. -/
def ReadResult.call (result : ReadResult) (beyond : Nat → UInt8) : Call where
  bytes := segment result.buf 0 result.returned.toNat
  type := result.type
  past := result.buf result.returned.toNat
  beyond := beyond

/-- One step: a row is pushed, and the caller counts it, or a chunk is read and decoded. -/
def Session.step {c : Nat} (s : Session) : Op c → Session × List Transfer
  | .push row =>
    let pushed := s.writer.pushSample row
    ({ s with writer := { pushed.1 with sampleCounter := pushed.1.sampleCounter + 1 } },
      if pushed.2 then [.accepted ((List.range c).map row)] else [])
  | .read read =>
    let result := s.next read
    if result.returned = 0 then ({ s with writer := result.writer }, [])
    else
      let decoded := s.reader.decodeAndGet (result.call read.beyond)
      (⟨result.writer, decoded.1⟩, [.received (handed decoded.2)])

/-- `flush`. -/
def Session.flush (s : Session) : Session := { s with writer := s.writer.flush.1 }

/-- A drain ends here: one more read returns nothing. -/
def Session.Drained (c : Nat) (s : Session) : Prop := ∃ read : Read c, (s.next read).returned = 0

/-- **Lossless**: after a drain, a flush, and another drain, the reader has handed out the rows
that the writer has accepted. -/
def Lossless {c : Nat} (setup : Setup c) (ops : List (Op c)) : Prop :=
  ∀ drain : List (Read c),
    let before := run Session.step setup.start ops
    let after := run Session.step before.1.flush (drain.map Op.read)
    before.1.Drained c → before.1.writer.flush.2 = true → after.1.Drained c →
      received (before.2 ++ after.2) = accepted before.2

/-- The writer does not write a `Misread` residual. -/
def Clear {c : Nat} (s : Session) : Op c → Prop
  | .push row => s.writer.writesRow = true → ∀ i < c, ¬ Misread (s.writer.residual row i)
  | .read _ => True

/-! ### The reader behind the queue -/

/-- A call brings an item of the queue. -/
def Item.tag : Item → StreamType × List UInt8
  | .sample byte => (.sample, [byte])
  | .control bytes => (.control, bytes)

/-- The type and the bytes of a call. -/
def Call.tag (call : Call) : StreamType × List UInt8 := (call.type, call.bytes)

/-- **In step**: the reader that has read the whole queue, with what it has handed out and the block
that is open, has the accepted rows; within a block its channel states are those of the writer. -/
structure InStep (c capacity : Nat) (till : UInt8) (ccs : Nat → ChannelState)
    (sent got : List Int16) (r : Reader) : Prop where
  between : Between (UInt8.ofNat c) r
  size : r.block.capacity = capacity
  index : r.currentChannel = 0
  state : r.state = .dod ∨ r.state = .sample
  rows : got ++ r.openRows = sent
  synced : till ≠ 0 → r.inSync = true
  states : till ≠ 0 → ∀ i < c, (r.opened fun _ => 0).ccs i = ccs i
  room : r.openRows.length + c * till.toNat ≤ capacity

namespace InStep

variable {c capacity : Nat} {till : UInt8} {ccs : Nat → ChannelState} {sent got : List Int16}
  {r : Reader}

theorem count (few : c ≤ 14) (inStep : InStep c capacity till ccs sent got r) :
    r.channels.toNat = c := by
  rw [inStep.between.channels, UInt8.toNat_ofNat']
  omega

/-- Where the writer is between two blocks, its channel states do not count. -/
theorem pause (inStep : InStep c capacity till ccs sent got r) (states : Nat → ChannelState) :
    InStep c capacity 0 states sent got r := by
  have room := inStep.room
  exact ⟨inStep.between, inStep.size, inStep.index, inStep.state, inStep.rows,
    fun some_ => absurd rfl some_, fun some_ => absurd rfl some_, by
      show r.openRows.length + c * 0 ≤ capacity
      omega⟩

/-- **A resync block** is read, with the channel states behind the row that begins the block. -/
theorem resync (few : c ≤ 14) (inStep : InStep c capacity till ccs sent got r) {w : Writer}
    (channels : w.channels = c) {call : Call} (control : call.type = .control)
    (bytes : call.bytes = w.resyncBlock) (period : UInt8)
    (rows : (period.toNat + 1) * c ≤ capacity) :
    InStep c capacity period w.ccs (sent ++ (List.range c).map fun i => (w.ccs i).sample)
      (got ++ handed (r.decodeAndGet call).2) (r.decodeAndGet call).1 := by
  have between := inStep.between
  have count := inStep.count few
  have wellFormed_ := resyncs_resyncBlock (w := w) (by omega) (count.trans channels.symm) control
    bytes
  have frame := begin_frame r call
  have countBegun : (r.begin_ call).1.channels.toNat = c := by rw [frame.channels, count]
  obtain ⟨next, out⟩ := decodeAndGet_resync between (by omega) wellFormed_
  have states : ∀ i < c, ((r.begin_ call).1.stashed call).scratchState (fun _ => 0) i = w.ccs i :=
    fun i inside => scratchState_resyncBlock (by omega) _ bytes _ (by omega)
  have begun : (r.decodeAndGet call).1.openRows =
      (List.range c).map fun i => (w.ccs i).sample := by
    rw [next]
    show ((r.begin_ call).1.stashed call).syncSamples (fun _ => 0) (r.begin_ call).1.channels.toNat
      = _
    rw [countBegun]
    exact List.map_congr_left fun i member => by rw [states i (List.mem_range.mp member)]
  have length : (r.decodeAndGet call).1.openRows.length = c := by
    rw [begun, List.length_map, List.length_range]
  refine ⟨between.decodeAndGet, ?_, ?_, .inr ?_, ?_, fun _ => ?_, fun _ i inside => ?_, ?_⟩
  · rw [next]
    exact frame.capacity.trans inStep.size
  · rw [next]
    exact frame.index.trans inStep.index
  · rw [next]
    rfl
  · rw [out, inStep.rows, begun]
  · rw [next]
    rfl
  · rw [next]
    show ((r.begin_ call).1.stashed call).syncStates (fun _ => 0) (r.begin_ call).1.channels.toNat i
      = w.ccs i
    rw [countBegun, syncStates_of_lt _ _ inside, states i inside]
  · rw [length]
    linarith [Nat.add_mul period.toNat 1 c, Nat.mul_comm period.toNat c]

/-- The calls that bring sample bytes. -/
theorem samples_of_tags {calls : List Call} {bytes : List UInt8}
    (carried : calls.map Call.tag = (bytes.map Item.sample).map Item.tag) :
    (∀ call ∈ calls, call.type = .sample) ∧ calls.flatMap Call.bytes = bytes := by
  induction calls generalizing bytes with
  | nil =>
    cases bytes with
    | nil => exact ⟨fun _ member => absurd member List.not_mem_nil, rfl⟩
    | cons byte rest => exact absurd carried (List.cons_ne_nil _ _).symm
  | cons call calls ih =>
    cases bytes with
    | nil => exact absurd carried (List.cons_ne_nil _ _)
    | cons byte rest =>
      obtain ⟨first, later⟩ := List.cons.inj carried
      obtain ⟨samples, bytes⟩ := ih later
      have type : call.type = .sample := congrArg Prod.fst first
      have one : call.bytes = [byte] := congrArg Prod.snd first
      exact ⟨List.forall_mem_cons.mpr ⟨type, samples⟩, by rw [List.flatMap_cons, bytes, one]; rfl⟩

/-- The bytes of a row are not none. -/
theorem exists_some_of_row (positive : 1 ≤ c) {w : Writer} {row : Nat → Int16} {calls : List Call}
    (bytes : calls.flatMap Call.bytes = w.rowBytes row c) : ∃ call ∈ calls, call.bytes ≠ [] := by
  have length := (rowBytes_length w row c).1
  by_contra none_
  push Not at none_
  rw [← bytes, List.flatMap_eq_nil_iff.mpr none_, List.length_nil] at length
  omega

/-- **A row** is read. -/
theorem row (positive : 1 ≤ c) (few : c ≤ 14) {w : Writer}
    (inStep : InStep c capacity w.samplesTillSync w.ccs sent got r) (some_ : w.samplesTillSync ≠ 0)
    {row : Nat → Int16} (clear : ∀ i < c, ¬ Misread (w.residual row i)) {calls : List Call}
    (carried : calls.map Call.tag = ((w.rowBytes row c).map Item.sample).map Item.tag) :
    InStep c capacity (w.samplesTillSync - 1) (w.rowStates row c)
      (sent ++ (List.range c).map row) (got ++ handed (run Reader.decodeAndGet r calls).2)
      (run Reader.decodeAndGet r calls).1 := by
  obtain ⟨samples, bytes⟩ := samples_of_tags carried
  have between := inStep.between
  have count := inStep.count few
  have synced := inStep.synced some_
  have notEmpty := exists_some_of_row positive bytes
  obtain ⟨call, -, reads⟩ := run_opened between synced samples notEmpty
  obtain ⟨sameSamples, sameStates⟩ := opened_beyond (r := r) (by omega) (fun _ => 0) call.beyond
  obtain ⟨decoded, nothing⟩ := between.run_samples samples
  have openRows : r.openRows = (r.opened call.beyond).block.samples := by
    rw [Reader.openRows, synced, sameSamples]
    rfl
  -- the open reader
  have opened : (r.opened call.beyond).state = .dod ∧ (r.opened call.beyond).currentChannel = 0 ∧
      (r.opened call.beyond).channels = r.channels ∧ (r.opened call.beyond).inSync = true ∧
      (r.opened call.beyond).block.capacity = capacity := by
    rcases inStep.state with parsing | waiting
    · rw [opened_parsing (by rw [parsing]; exact ReaderState.noConfusion)]
      exact ⟨parsing, inStep.index, rfl, synced, inStep.size⟩
    · rw [opened_waiting waiting]
      exact ⟨rfl, inStep.index, rfl, synced, inStep.size⟩
  obtain ⟨state, index, channels, openSynced, size⟩ := opened
  have till : (w.samplesTillSync - 1).toNat + 1 = w.samplesTillSync.toNat := by
    have positiveTill : w.samplesTillSync.toNat ≠ 0 := fun zero => some_ (UInt8.toNat_inj.mp zero)
    have one : (1 : UInt8).toNat = 1 := rfl
    rw [UInt8.toNat_sub_of_le _ _ (UInt8.le_iff_toNat_le.mpr (by omega)), one]
    omega
  have room := inStep.room
  rw [← till, Nat.mul_add, Nat.mul_one] at room
  have read : RowRead c w row _ (run Reader.decodeByte _ (w.rowBytes row c)).1 :=
    run_row state index (by rw [channels, count]) positive
      (fun i inside => (sameStates i (by omega)).trans (inStep.states some_ i inside))
      (by rw [SampleBlock.available, size, ← openRows]; omega) clear
  rw [← bytes, ← reads, ← decoded] at read
  set result := (run Reader.decodeAndGet r calls).1 with resultDef
  have betweenNext : Between (UInt8.ofNat c) result :=
    EventMachine.run_invariant _ (Between (UInt8.ofNat c)) (fun _ _ kept => kept.decodeAndGet)
      between calls
  have parsing : result.state ≠ .sample := by rw [read.state]; exact ReaderState.noConfusion
  have syncedNext : result.inSync = true := read.inSync.trans openSynced
  have rowsNext : result.openRows = r.openRows ++ (List.range c).map row := by
    rw [Reader.openRows, syncedNext, opened_parsing parsing, openRows]
    exact read.samples
  refine ⟨betweenNext, read.capacity.trans size, read.index, .inl read.state, ?_,
    fun _ => syncedNext, fun _ i inside => ?_, ?_⟩
  · rw [nothing, List.append_nil, rowsNext, ← List.append_assoc, inStep.rows]
  · rw [opened_parsing parsing]
    exact read.ccs i inside
  · rw [rowsNext, List.length_append, List.length_map, List.length_range]
    omega

end InStep

/-! ### The steps of a session -/

/-- The writer's queue, and what the reader reaches when it has read it. -/
structure Flow (c : Nat) (w : Writer) (r : Reader) (Goal : Reader → List Int16 → Prop)
    (queue : List Item) : Prop where
  sends : Sends c w queue
  fits : ∀ block, .control block ∈ queue → block.length ≤ 4 * c + 5
  between : Between (UInt8.ofNat c) r
  ahead : Ahead Reader.decodeAndGet Call.tag (fun r events => Goal r (handed events)) r
    (queue.map Item.tag)

section Flow

variable {c : Nat} {w : Writer} {r : Reader} {Goal Next : Reader → List Int16 → Prop}
  {queue : List Item}

/-- The writer has appended to the queue. -/
theorem Flow.append (flow : Flow c w r Goal queue) {later : Writer} {items : List Item}
    (sends : Sends c later (queue ++ items))
    (fits : ∀ block, .control block ∈ items → block.length ≤ 4 * c + 5)
    (reads : ∀ r got calls, Goal r got → calls.map Call.tag = items.map Item.tag →
      Next (run Reader.decodeAndGet r calls).1
        (got ++ handed (run Reader.decodeAndGet r calls).2)) :
    Flow c later r Next (queue ++ items) := by
  refine ⟨sends, fun block member => ?_, flow.between, ?_⟩
  · exact (List.mem_append.mp member).elim (flow.fits block) (fits block)
  · rw [List.map_append]
    refine flow.ahead.append fun middle events calls goal carried => ?_
    rw [handed_append]
    exact reads middle (handed events) calls goal carried

/-- The reader reads the first items of the queue. -/
theorem Flow.drop {items rest : List Item} (flow : Flow c w r Goal (items ++ rest))
    {later : Writer} (sends : Sends c later rest) {call : Call} {calls : List Call}
    (carried : calls.map Call.tag = items.map Item.tag)
    (next : (r.decodeAndGet call).1 = (run Reader.decodeAndGet r calls).1)
    (out : handed (r.decodeAndGet call).2 = handed (run Reader.decodeAndGet r calls).2) :
    Flow c later (r.decodeAndGet call).1
      (fun final more => Goal final (handed (r.decodeAndGet call).2 ++ more)) rest := by
  have ahead := flow.ahead
  rw [List.map_append] at ahead
  have behind := ahead.drop carried
  rw [← next] at behind
  refine ⟨sends, fun block member => flow.fits block (List.mem_append_right _ member),
    flow.between.decodeAndGet, behind.mono fun final events goal => ?_⟩
  rw [handed_append, ← out] at goal
  exact goal

/-- What a read leaves of the writer. -/
structure Kept (w later : Writer) : Prop where
  till : later.samplesTillSync = w.samplesTillSync
  ccs : later.ccs = w.ccs
  period : later.syncPeriod = w.syncPeriod

theorem Committed.kept {rest : List Item} {later : Writer} (committed : Committed w rest later) :
    Kept w later := by
  rw [committed.same]
  exact ⟨rfl, rfl, rfl⟩

theorem Sends.committed (sends : Sends c w queue) {rest : List Item} {later : Writer}
    (committed : Committed w rest later) : Sends c later rest := by
  refine ⟨sends.positive, sends.few, ?_, ?_, committed.holds, fun flagged => ?_⟩
  · rw [committed.same]
    exact sends.channels
  · rw [committed.same]
    exact sends.reserve
  · rw [committed.kept.till]
    rcases committed.flags with same | cleared
    · rw [same] at flagged
      exact sends.paused flagged
    · have none_ : ~~~backpressure &&& backpressure = 0 := by decide
      rw [cleared, UInt8.and_assoc, none_, UInt8.and_zero] at flagged
      exact absurd rfl flagged

/-- **What one read does**: nothing, or it takes sample bytes or a control block from the front of
the queue, and the chunk carries them. -/
inductive FrontRead (w : Writer) (queue : List Item) (result : ReadResult) (beyond : Nat → UInt8) :
    Prop
  | nothing (returned : result.returned = 0) (same : result.writer = w)
  | samples (bytes : List UInt8) (rest : List Item) (split : queue = bytes.map .sample ++ rest)
      (returned : result.returned ≠ 0) (next : Committed w rest result.writer)
      (sample : (result.call beyond).type = .sample) (carried : (result.call beyond).bytes = bytes)
      (tags : (bytes.map (byteCall beyond)).map Call.tag = (bytes.map Item.sample).map Item.tag)
  | control (block : List UInt8) (rest : List Item) (split : queue = [.control block] ++ rest)
      (returned : result.returned ≠ 0) (next : Committed w rest result.writer)
      (tags : [result.call beyond].map Call.tag = [Item.control block].map Item.tag)

theorem Session.next_front {s : Session} (sends : Sends c s.writer queue)
    (fits : ∀ block, .control block ∈ queue → block.length ≤ 4 * c + 5) (read : Read c) :
    FrontRead s.writer queue (s.next read) read.beyond := by
  have large := read.large
  rcases readNext_spec sends.holds (by omega)
    (fun block member => (fits block member).trans large) read.buf read.stale with
    ⟨_, returned, same⟩ | ⟨bytes, rest, rfl, returned, type, chunk, next⟩ |
    ⟨block, rest, rfl, returned, type, chunk, next⟩
  · exact .nothing returned same
  · refine .samples bytes rest rfl returned next type chunk ?_
    rw [List.map_map, List.map_map]
    rfl
  · exact .control block rest rfl returned next
      (congrArg (fun tag => [tag]) (Prod.ext type chunk))

/-- **A read**: what it hands out is no longer ahead. -/
theorem Flow.read {s : Session} (flow : Flow c s.writer s.reader Goal queue) (read : Read c) :
    Kept s.writer (s.step (.read read)).1.writer ∧
      ∃ rest, Flow c (s.step (.read read)).1.writer (s.step (.read read)).1.reader
        (fun final more => Goal final (received (s.step (.read read)).2 ++ more)) rest := by
  have out : ∀ span, received [.received span] = span := fun span => List.append_nil span
  have stepped : (s.next read).returned ≠ 0 → s.step (.read read) =
      (⟨(s.next read).writer, (s.reader.decodeAndGet ((s.next read).call read.beyond)).1⟩,
        [.received (handed (s.reader.decodeAndGet ((s.next read).call read.beyond)).2)]) :=
    fun returned => if_neg returned
  cases Session.next_front flow.sends flow.fits read with
  | nothing returned same =>
    have nothing : s.step (.read read) = ({ s with writer := (s.next read).writer }, []) :=
      if_pos returned
    rw [nothing, same]
    exact ⟨⟨rfl, rfl, rfl⟩, queue, flow⟩
  | samples bytes rest split returned next sample carried tags =>
    subst split
    obtain ⟨states, spans⟩ := decodeAndGet_bytes flow.between sample
    rw [carried] at states spans
    rw [stepped returned]
    refine ⟨next.kept, rest, ?_⟩
    simp only [out]
    exact flow.drop (flow.sends.committed next) tags states spans
  | control block rest split returned next tags =>
    subst split
    have one := EventMachine.run_singleton Reader.decodeAndGet s.reader
      ((s.next read).call read.beyond)
    have states : (s.reader.decodeAndGet ((s.next read).call read.beyond)).1 =
        (run Reader.decodeAndGet s.reader [(s.next read).call read.beyond]).1 := by rw [one]
    have spans : handed (s.reader.decodeAndGet ((s.next read).call read.beyond)).2 =
        handed (run Reader.decodeAndGet s.reader [(s.next read).call read.beyond]).2 := by rw [one]
    rw [stepped returned]
    refine ⟨next.kept, rest, ?_⟩
    simp only [out]
    exact flow.drop (flow.sends.committed next) tags states spans

/-- Where a read returns nothing, nothing is ahead. -/
theorem Flow.drained {s : Session} (flow : Flow c s.writer s.reader Goal queue)
    (drained : s.Drained c) : Goal s.reader [] := by
  obtain ⟨read, nothing⟩ := drained
  have large := read.large
  rcases readNext_spec flow.sends.holds (by omega)
    (fun block member => (flow.fits block member).trans large) read.buf read.stale with
    ⟨rfl, _, _⟩ | ⟨_, _, _, returned, _, _, _⟩ | ⟨_, _, _, returned, _, _, _⟩
  · have ahead := flow.ahead
    rw [List.map_nil, EventMachine.ahead_nil] at ahead
    exact ahead
  · exact absurd nothing returned
  · exact absurd nothing returned

end Flow

/-! ### The run -/

theorem accepted_append (first second : List Transfer) :
    accepted (first ++ second) = accepted first ++ accepted second := List.flatMap_append

theorem received_append (first second : List Transfer) :
    received (first ++ second) = received first ++ received second := List.flatMap_append

/-- **The invariant of a session**: behind its queue, the reader is in step with the writer. -/
structure Linked {c : Nat} (setup : Setup c) (s : Session) (past : List Transfer) : Prop where
  period : s.writer.syncPeriod = setup.syncPeriod
  flow : ∃ queue, Flow c s.writer s.reader
    (fun r got => InStep c setup.capacity s.writer.samplesTillSync s.writer.ccs (accepted past)
      (received past ++ got) r) queue

section Run

variable {c : Nat} (setup : Setup c)

/-- The writer as constructed has nothing queued. -/
theorem Setup.sends : Sends c setup.start.writer [] := by
  have few := setup.few
  have valid := RingFast.new_valid setup.streamBuf setup.streamPower
  have validMarks := RingFast.new_valid setup.markBuf setup.markPower
  have reserve : setup.start.writer.reserve.toNat = 16 * c := by
    show (UInt8.ofNat (16 * c)).toNat = 16 * c
    rw [UInt8.toNat_ofNat']
    omega
  have holds : Holds setup.start.writer.stream setup.start.writer.marks [] :=
    ⟨valid, validMarks, setup.markSlots, RingFast.new_contents setup.streamBuf _,
      RingFast.new_contents setup.markBuf _, fun _ member => absurd member List.not_mem_nil,
      fun _ member => absurd member List.not_mem_nil⟩
  exact ⟨setup.positive, few, rfl, reserve, holds, fun _ => rfl⟩

/-- The reader as constructed is between two calls. -/
theorem Setup.between : Between (UInt8.ofNat c) setup.start.reader := by
  have positive := setup.positive
  have few := setup.few
  have channels : (UInt8.ofNat c).toNat = c := by
    rw [UInt8.toNat_ofNat']
    omega
  have room : c ≤ setup.capacity :=
    (Nat.le_mul_of_pos_left c (Nat.succ_pos _)).trans setup.rows
  exact ⟨by omega, by rw [channels]; exact room, if_pos rfl, rfl⟩

/-- Nothing was sent, and nothing is open. -/
theorem Setup.inStep : InStep c setup.capacity setup.start.writer.samplesTillSync
    setup.start.writer.ccs [] [] setup.start.reader :=
  ⟨setup.between, rfl, rfl, .inl rfl, rfl, fun some_ => absurd rfl some_,
    fun some_ => absurd rfl some_, Nat.zero_le _⟩

theorem linked_start : Linked setup setup.start [] := by
  refine ⟨rfl, [], setup.sends, fun _ member => absurd member List.not_mem_nil, setup.between, ?_⟩
  rw [List.map_nil, EventMachine.ahead_nil]
  exact setup.inStep

variable {setup} {s : Session} {past : List Transfer}

/-- The sample counter is the caller's. -/
theorem Sends.counted {w : Writer} {queue : List Item} (sends : Sends c w queue)
    (counter : UInt32) : Sends c { w with sampleCounter := counter } queue :=
  ⟨sends.positive, sends.few, sends.channels, sends.reserve, sends.holds, sends.paused⟩

theorem Linked.push (linked : Linked setup s past) (row : Nat → Int16)
    (clear : Clear s (Op.push (c := c) row)) :
    Linked setup (s.step (Op.push (c := c) row)).1 (past ++ (s.step (Op.push (c := c) row)).2) := by
  obtain ⟨queue, flow⟩ := linked.flow
  have few := setup.few
  have positive := setup.positive
  have channels := flow.sends.channels
  have stepped : (s.step (Op.push (c := c) row)).2 =
      if (s.writer.pushSample row).2 then [.accepted ((List.range c).map row)] else [] := rfl
  have sent : accepted (past ++ [.accepted ((List.range c).map row)]) =
      accepted past ++ (List.range c).map row := by
    rw [accepted_append]
    exact congrArg _ (List.append_nil _)
  have got_ : received (past ++ [.accepted ((List.range c).map row)]) = received past := by
    rw [received_append]
    exact List.append_nil _
  rcases flow.sends.push row with ⟨returned, sends, till, period⟩ |
    ⟨returned, sends, till, period, states⟩ | ⟨returned, writes, some_, sends, till, period, states⟩
  case refused =>
    rw [stepped, returned, if_neg Bool.false_ne_true, List.append_nil]
    refine ⟨period.trans linked.period, queue, sends.counted _, flow.fits, flow.between,
      flow.ahead.mono fun final events goal => ?_⟩
    show InStep c setup.capacity (s.writer.pushSample row).1.samplesTillSync _ _ _ final
    rw [till]
    exact goal.pause _
  case resync =>
    have sample : ∀ i < c, ((s.writer.skipped row).ccs i).sample = row i :=
      fun i inside => skipped_sample _ row (by omega)
    have length := resyncBlock_length (w := s.writer.skipped row) (by
      show s.writer.channels ≤ 255
      omega)
    have count : (s.writer.skipped row).channels = c := channels
    have moved : (s.writer.skipped row).ccs = s.writer.rowStates row c := by
      rw [← channels]
      rfl
    rw [stepped, returned, if_pos rfl]
    refine ⟨period.trans linked.period, _, flow.append (sends.counted _) (fun block member => ?_)
      fun r got calls goal carried => ?_⟩
    · rw [Item.control.inj (List.mem_singleton.mp member), length]
      omega
    · obtain ⟨call, rfl, one⟩ := List.map_eq_singleton_iff.mp carried
      have next := goal.resync few count (congrArg Prod.fst one) (congrArg Prod.snd one)
        setup.syncPeriod setup.rows
      rw [List.map_congr_left fun i member => sample i (List.mem_range.mp member), moved, ← states,
        ← linked.period, ← till, List.append_assoc] at next
      rw [sent, got_, EventMachine.run_singleton]
      exact next
  case written =>
    rw [stepped, returned, if_pos rfl]
    refine ⟨period.trans linked.period, _, flow.append (sends.counted _) (fun block member => ?_)
      fun r got calls goal carried => ?_⟩
    · obtain ⟨byte, -, other⟩ := List.mem_map.mp member
      exact Item.noConfusion other
    · have next := goal.row positive few some_ (clear writes) carried
      rw [← states, ← till, List.append_assoc] at next
      rw [sent, got_]
      exact next

theorem Linked.read (linked : Linked setup s past) (read : Read c) :
    Linked setup (s.step (.read read)).1 (past ++ (s.step (.read read)).2) := by
  obtain ⟨queue, flow⟩ := linked.flow
  obtain ⟨kept, rest, behind⟩ := flow.read read
  have nothing : accepted (s.step (.read read)).2 = [] := by
    simp only [Session.step]
    split <;> rfl
  refine ⟨kept.period.trans linked.period, rest, ?_⟩
  rw [kept.till, kept.ccs, accepted_append, nothing, List.append_nil, received_append]
  simp only [List.append_assoc]
  exact behind

/-- Behind a FLUSH: the reader that has read the whole queue has handed out all. -/
def Closed (c : Nat) (sent : List Int16) (s : Session) (past : List Transfer) : Prop :=
  ∃ queue, Flow c s.writer s.reader (fun _ got => received past ++ got = sent) queue

theorem Linked.flush (linked : Linked setup s past) (flushed : s.writer.flush.2 = true) :
    Closed c (accepted past) s.flush past := by
  obtain ⟨queue, flow⟩ := linked.flow
  have few := setup.few
  have sends := flow.sends.flush flushed
  refine ⟨_, flow.append sends (fun block member => ?_) fun r got calls goal carried => ?_⟩
  · rw [Item.control.inj (List.mem_singleton.mp member)]
    exact Nat.le_add_left 1 _
  · obtain ⟨call, rfl, one⟩ := List.map_eq_singleton_iff.mp carried
    have count := goal.count few
    have out := decodeAndGet_flush goal.between (by omega) (congrArg Prod.fst one)
      (congrArg Prod.snd one)
    rw [EventMachine.run_singleton, out, ← List.append_assoc]
    exact goal.rows

theorem Closed.read {sent : List Int16} (closed : Closed c sent s past) (read : Read c) :
    Closed c sent (s.step (.read read)).1 (past ++ (s.step (.read read)).2) := by
  obtain ⟨queue, flow⟩ := closed
  obtain ⟨-, rest, behind⟩ := flow.read read
  refine ⟨rest, ?_⟩
  rw [received_append]
  simp only [List.append_assoc]
  exact behind

/-- A drain reads, and does nothing else. -/
theorem along_drain (s : Session) (drain : List (Read c)) :
    Along Session.step (fun _ op => ∃ read, op = .read read) s (drain.map Op.read) := by
  induction drain generalizing s with
  | nil => trivial
  | cons read rest ih => exact ⟨⟨read, rfl⟩, ih _⟩

/-- **When the codec is lossless.** For every channel count from 1 to 14, every sync period, rings
and block of allowed sizes, and every order of rows and reads: if the writer writes no `Misread`
residual, the reader hands out, row by row and in order, the rows that the writer has accepted. -/
theorem lossless_of_clear (setup : Setup c) (ops : List (Op c))
    (clear : Along Session.step Clear setup.start ops) : Lossless setup ops := by
  intro drain before after _ flushed drained
  have linked : Linked setup before.1 ([] ++ before.2) :=
    EventMachine.run_history Session.step (Linked setup)
      (fun s op past clear linked => by
        cases op with
        | push row => exact linked.push row clear
        | read read => exact linked.read read) (linked_start setup) clear
  rw [List.nil_append] at linked
  have closed : Closed c (accepted before.2) after.1 (before.2 ++ after.2) :=
    EventMachine.run_history Session.step (Closed c (accepted before.2))
      (fun s op past reads closed => by
        obtain ⟨read, rfl⟩ := reads
        exact closed.read read) (linked.flush flushed) (along_drain _ drain)
  obtain ⟨queue, flow⟩ := closed
  have all := flow.drained drained
  rwa [List.append_nil] at all

end Run

/-! ### A session of one channel -/

/-- One channel, rings of 32 bytes, a resync block every second row. -/
def oneChannel : Setup 1 where
  positive := by decide
  few := by decide
  streamBuf := fun _ => 0
  streamSize := 32
  streamPower := ⟨5, by decide, rfl⟩
  streamLarge := by decide
  markBuf := fun _ => ⟨0, 0⟩
  markSize := 32
  markPower := ⟨5, by decide, rfl⟩
  markSlots := by decide
  writerCcs := fun _ => ⟨0, 0⟩
  sampleCounter := 0
  syncPeriod := 1
  flags := 0
  scratchBuf := fun _ => 0
  dodBuf := fun _ => 0
  readerCcs := fun _ => ⟨0, 0⟩
  capacity := 2
  rows := by decide

/-- A read into nine bytes. -/
def nineBytes : Read 1 := ⟨fun _ => 0, 9, by decide, 0, fun _ => 0⟩

/-- Two rows of one sample, and a drain. -/
def twoRows (first second : Int16) : List (Op 1) :=
  [.push fun _ => first, .push fun _ => second, .read nineBytes, .read nineBytes]

/-- A second difference of `300`. -/
theorem lossless_of_clear_row : Lossless oneChannel (twoRows 0 300) :=
  lossless_of_clear oneChannel (twoRows 0 300)
    ⟨show _ → ∀ i < 1, _ by decide +kernel, show _ → ∀ i < 1, _ by decide +kernel, trivial, trivial,
      trivial⟩

/-- **A row that comes out wrong**: one channel, a second difference of `124`. It is written as
`240, 248`, and the reader takes the `240` for a residual of its own, `120`. -/
theorem not_lossless : ¬ ∀ {c : Nat} (setup : Setup c) (ops : List (Op c)), Lossless setup ops := by
  intro all
  have same := all oneChannel (twoRows 0 124) [nineBytes] ⟨nineBytes, by decide +kernel⟩
    (by decide +kernel) ⟨nineBytes, by decide +kernel⟩
  exact absurd same (by decide +kernel)

end ForgeDrive.Daq
