/-
**The time stamps of the blocks**: the sample counter that a block is handed out with.

The counter travels in the resync block, the rows as residuals, and the reader applies a resync block
one call later. The input rows are numbered from zero, refused rows included; a block is stamped right
if its rows are the input rows from its counter on (`Stamped`).

`stamped_of_clear`: while the writer writes no `Misread` residual, every block is, in every order of
rows, flushes and reads. `not_timeStamped`: with one it need not.
-/

import ForgeDrive.Daq.Lossless
import ForgeDrive.Daq.WriterUse

namespace ForgeDrive.Daq

open EventMachine (run Along Ahead)
open El (RingFast)

/-! ### The property -/

/-- What the caller does. -/
inductive Act (c : Nat)
  | push (row : Nat → Int16)
  | flush
  | read (read : Read c)

/-- What goes in, be it accepted or not, and what comes out: the counter of the block, and the span
that `getSamples` returns. -/
inductive Stamp
  | input (row : List Int16)
  | output (counter : UInt32) (span : List Int16)
  deriving DecidableEq

/-- The input rows, in order. -/
def inputs (past : List Stamp) : List (List Int16) :=
  past.flatMap fun
    | .input row => [row]
    | .output _ _ => []

/-- The span is made of the input rows from a number on, which the counter is modulo `2 ^ 32`. -/
def Stamped (rows : List (List Int16)) (counter : UInt32) (span : List Int16) : Prop :=
  ∃ first count, first + count ≤ rows.length ∧ counter = UInt32.ofNat first ∧
    span = ((rows.drop first).take count).flatten

/-- **Every block is time-stamped.** -/
def TimeStamped (past : List Stamp) : Prop :=
  ∀ counter span, .output counter span ∈ past → span ≠ [] → Stamped (inputs past) counter span

/-- A call of `decode`, with `getSamples` called after it if the block is ready. -/
def Reader.decodeStamped (r : Reader) (call : Call) : Reader × List Stamp :=
  let decoded := r.decode call
  if decoded.1.block.ready then
    (decoded.1.getSamples.1, [.output decoded.1.block.counter decoded.1.block.samples])
  else (decoded.1, [])

/-- One step: a row is pushed, and the caller counts it, or the writer is flushed, or a chunk is read
and decoded. -/
def Session.act {c : Nat} (s : Session) : Act c → Session × List Stamp
  | .push row =>
    let pushed := s.writer.pushSample row
    ({ s with writer := { pushed.1 with sampleCounter := pushed.1.sampleCounter + 1 } },
      [.input ((List.range c).map row)])
  | .flush => (s.flush, [])
  | .read read =>
    let result := s.next read
    if result.returned = 0 then ({ s with writer := result.writer }, [])
    else
      let decoded := s.reader.decodeStamped (result.call read.beyond)
      (⟨result.writer, decoded.1⟩, decoded.2)

/-- The writer does not write a `Misread` residual. -/
def Unmixed {c : Nat} (s : Session) : Act c → Prop
  | .push row => s.writer.writesRow = true → ∀ i < c, ¬ Misread (s.writer.residual row i)
  | .flush => True
  | .read _ => True

section Stamped

variable {rows : List (List Int16)} {counter : UInt32} {span : List Int16}

theorem inputs_append (first second : List Stamp) :
    inputs (first ++ second) = inputs first ++ inputs second := List.flatMap_append

/-- Later rows do not count. -/
theorem take_later {first count : Nat} (within : first + count ≤ rows.length)
    (more : List (List Int16)) :
    ((rows ++ more).drop first).take count = (rows.drop first).take count := by
  rw [List.drop_append_of_le_length (by omega), List.take_append_of_le_length]
  rw [List.length_drop]
  omega

theorem Stamped.later (stamped : Stamped rows counter span) (more : List (List Int16)) :
    Stamped (rows ++ more) counter span := by
  obtain ⟨first, count, within, same, rfl⟩ := stamped
  refine ⟨first, count, ?_, same, by rw [take_later within]⟩
  rw [List.length_append]
  omega

/-- All rows from a number on, and one more. -/
theorem flatten_concat {first count : Nat} (all : first + count = rows.length)
    (row : List Int16) : (((rows ++ [row]).drop first).take (count + 1)).flatten =
      ((rows.drop first).take count).flatten ++ row := by
  have length : (rows.drop first).length = count := by
    rw [List.length_drop]
    omega
  rw [List.drop_append_of_le_length (by omega), List.take_of_length_le (by simp [length]),
    List.take_of_length_le (le_of_eq length), List.flatten_append, List.flatten_singleton]

end Stamped

/-! ### What the reader hands out -/

/-- The counter of the block that is open. -/
def Reader.openCounter (r : Reader) : UInt32 := (r.opened fun _ => 0).block.counter

section Outputs

variable {channels : UInt8} {r : Reader} {call : Call}

theorem decodeStamped_fst (r : Reader) (call : Call) :
    (r.decodeStamped call).1 = (r.decodeAndGet call).1 := by
  rw [Reader.decodeStamped, Reader.decodeAndGet]
  simp only
  split <;> rfl

theorem run_stamped_fst (r : Reader) (calls : List Call) :
    (run Reader.decodeStamped r calls).1 = (run Reader.decodeAndGet r calls).1 :=
  EventMachine.run_related Reader.decodeStamped Reader.decodeAndGet Eq
    (fun r other call same => by rw [same, decodeStamped_fst]) rfl calls

/-- The restart takes the counter from the scratch array. -/
theorem restarted_counter (r : Reader) (beyond : Nat → UInt8) :
    (r.restarted beyond).block.counter = r.scratchCounter := rfl

theorem opened_counter (r : Reader) (beyond : Nat → UInt8) :
    (r.opened beyond).block.counter = r.openCounter := by
  by_cases waiting : r.state = .sample
  · rw [Reader.openCounter, opened_waiting waiting, opened_waiting waiting, restarted_counter,
      restarted_counter]
  · rw [Reader.openCounter, opened_parsing waiting, opened_parsing waiting]

theorem opened_samples (few : r.channels.toNat ≤ 14) (synced : r.inSync = true)
    (beyond : Nat → UInt8) : (r.opened beyond).block.samples = r.openRows := by
  rw [Reader.openRows, synced, (opened_beyond few beyond fun _ => 0).1]
  rfl

/-- Nothing comes out after a sample chunk. -/
theorem Between.stamped_sample (between : Between channels r) (sample : call.type = .sample) :
    (r.decodeStamped call).2 = [] := by
  have same := between.decodeAndGet_sample sample
  have next : Between channels (r.decodeAndGet call).1 := between.decodeAndGet
  have notReady := next.ready
  rw [same] at notReady
  rw [Reader.decodeStamped]
  simp only [notReady]
  rfl

theorem Between.run_stamped_samples (between : Between channels r) {calls : List Call}
    (samples : ∀ call ∈ calls, call.type = .sample) :
    (run Reader.decodeStamped r calls).2 = [] := by
  induction calls generalizing r with
  | nil => rfl
  | cons call rest ih =>
    rw [List.forall_mem_cons] at samples
    rw [EventMachine.run_cons, between.stamped_sample samples.1, decodeStamped_fst]
    exact ih between.decodeAndGet samples.2

/-- What comes out of a reader that has made its block ready. -/
theorem stamped_of_ready {ready : Bool} (few : r.channels.toNat ≤ 14)
    (between : Between channels r) (same : (r.decode call).1.block.ready = ready)
    (synced : ready = true → r.inSync = true)
    (samples : (r.decode call).1.block.samples = (r.begin_ call).1.block.samples)
    (counter : (r.decode call).1.block.counter = (r.begin_ call).1.block.counter) :
    (r.decodeStamped call).2 = if ready then [.output r.openCounter r.openRows] else [] := by
  rw [Reader.decodeStamped]
  simp only [same]
  cases ready with
  | false => rfl
  | true =>
    have opened := begin_opened between (synced rfl) call
    rw [if_pos rfl, if_pos rfl, samples, counter, opened, opened_counter,
      opened_samples few (synced rfl)]

/-- **A resync block** lets the open block out, if there is one. -/
theorem decodeStamped_resync (between : Between channels r) (few : r.channels.toNat ≤ 14)
    (wellFormed_ : resyncs r.channels call = true) :
    (r.decodeStamped call).2 =
      if r.inSync then [.output r.openCounter r.openRows] else [] := by
  obtain ⟨begun, notReady⟩ := between.begin_ call
  have frame := begin_frame r call
  have decoded := decode_resync wellFormed_ begun
  refine stamped_of_ready few between ?_ id (by rw [decoded]; rfl) (by rw [decoded]; rfl)
  rw [decoded]
  show (if (r.begin_ call).1.inSync then true else (r.begin_ call).1.block.ready) = r.inSync
  rw [frame.inSync, notReady]
  cases r.inSync <;> rfl

/-- **A FLUSH** lets the open block out, if there is one, and leaves it open. -/
theorem decodeStamped_flush (between : Between channels r) (few : r.channels.toNat ≤ 14)
    (control : call.type = .control) (bytes : call.bytes = [flushCode]) :
    (r.decodeStamped call).2 = (if r.inSync then [.output r.openCounter r.openRows] else []) ∧
      (r.decodeAndGet call).1 = { (r.begin_ call).1 with
        block := { (r.begin_ call).1.block with ready := false } } := by
  obtain ⟨begun, notReady⟩ := between.begin_ call
  have frame := begin_frame r call
  have some_ : call.bytes ≠ [] := by rw [bytes]; exact List.cons_ne_nil _ _
  have decoded := decode_of_begun some_ begun
  rw [decodeBody_flush _ control bytes] at decoded
  have flushed : (r.decode call).1 = { (r.begin_ call).1 with
      block := { (r.begin_ call).1.block with ready := r.inSync } } := by
    rw [decoded]
    by_cases synced : r.inSync = true
    · rw [synced]
      exact if_pos (frame.inSync.trans synced)
    · rw [eq_false_of_ne_true synced, ← notReady]
      exact if_neg (by rwa [frame.inSync])
  refine ⟨stamped_of_ready few between ?_ id (by rw [flushed]) (by rw [flushed]), ?_⟩
  · rw [flushed]
  · rw [decodeAndGet_state, flushed]

theorem decodeByte_counter (r : Reader) (byte : UInt8) :
    (r.decodeByte byte).1.block.counter = r.block.counter := by
  have token := (decodeToken_frame r byte).block
  by_cases last : (r.decodeToken byte).1.currentChannel = r.channels
  · rcases Nat.lt_or_ge r.block.available r.channels.toNat with full | room
    · rw [decodeByte_full last full, token]
    · rw [decodeByte_room last room]
      show (r.decodeToken byte).1.block.counter = r.block.counter
      rw [token]
  · rw [decodeByte_more last, token]

/-- **Sample chunks** leave the counter alone. -/
theorem Between.run_counter (between : Between channels r) (synced : r.inSync = true)
    {calls : List Call} (samples : ∀ call ∈ calls, call.type = .sample)
    (some_ : ∃ call ∈ calls, call.bytes ≠ []) :
    (run Reader.decodeAndGet r calls).1.openCounter = r.openCounter := by
  obtain ⟨call, -, reads⟩ := run_opened between synced samples some_
  obtain ⟨decoded, -⟩ := between.run_samples samples
  have parsing : (r.opened call.beyond).state ≠ .sample := by
    by_cases waiting : r.state = .sample
    · rw [opened_waiting waiting]
      exact ReaderState.noConfusion
    · rwa [opened_parsing waiting]
  have kept : ∀ bytes, (run Reader.decodeByte (r.opened call.beyond) bytes).1.state ≠ .sample ∧
      (run Reader.decodeByte (r.opened call.beyond) bytes).1.block.counter = r.openCounter :=
    EventMachine.run_invariant Reader.decodeByte
      (fun r' : Reader => r'.state ≠ .sample ∧ r'.block.counter = r.openCounter)
      (fun r' byte kept => ⟨fun state => kept.1 ((decodeByte_frame r' byte).parsing.mp state),
        (decodeByte_counter r' byte).trans kept.2⟩) ⟨parsing, opened_counter r call.beyond⟩
  obtain ⟨stillParsing, counter⟩ := kept (calls.flatMap Call.bytes)
  rw [decoded, reads, Reader.openCounter, opened_parsing stillParsing, counter]

end Outputs

/-! ### The reader that has read the queue -/

/-- **In step and stamped**: within a block, its rows are the input rows from its counter on, up to
the last input row. -/
structure Timed (c capacity : Nat) (till : UInt8) (ccs : Nat → ChannelState)
    (rows : List (List Int16)) (r : Reader) : Prop where
  inStep : InStep c capacity till ccs r.openRows [] r
  stamped : r.inSync = true → ∃ first count, first + count ≤ rows.length ∧
    r.openCounter = UInt32.ofNat first ∧ r.openRows = ((rows.drop first).take count).flatten ∧
    (till ≠ 0 → first + count = rows.length)

/-- The outputs are stamped. -/
def OutputsStamped (rows : List (List Int16)) (outputs : List Stamp) : Prop :=
  ∀ counter span, .output counter span ∈ outputs → Stamped rows counter span

section Timed

variable {c capacity : Nat} {till : UInt8} {ccs : Nat → ChannelState}
  {rows : List (List Int16)} {r : Reader} {call : Call}

/-- Being in step is about the block that is open, whatever was handed out before. -/
theorem InStep.anew {sent got : List Int16} (inStep : InStep c capacity till ccs sent got r) :
    InStep c capacity till ccs r.openRows [] r :=
  ⟨inStep.between, inStep.size, inStep.index, inStep.state, List.nil_append _, inStep.synced,
    inStep.states, inStep.room⟩

/-- What a control block lets out is stamped. -/
theorem Timed.output (timed : Timed c capacity till ccs rows r) :
    OutputsStamped rows (if r.inSync then [.output r.openCounter r.openRows] else []) := by
  intro counter span member
  cases synced : r.inSync with
  | false =>
    rw [synced] at member
    exact absurd member List.not_mem_nil
  | true =>
    rw [synced] at member
    obtain ⟨rfl, rfl⟩ := Stamp.output.inj (List.mem_singleton.mp member)
    obtain ⟨first, count, within, same, span, -⟩ := timed.stamped synced
    exact ⟨first, count, within, same, span⟩

/-- A row that is refused: the block ends. -/
theorem Timed.pause (timed : Timed c capacity till ccs rows r) (states : Nat → ChannelState)
    (more : List (List Int16)) : Timed c capacity 0 states (rows ++ more) r := by
  refine ⟨timed.inStep.pause states, fun synced => ?_⟩
  obtain ⟨first, count, within, same, span, -⟩ := timed.stamped synced
  refine ⟨first, count, ?_, same, by rw [take_later within, span], fun some_ => absurd rfl some_⟩
  rw [List.length_append]
  omega

/-- **A resync block** begins a block with the row that comes with it. -/
theorem Timed.resync (few : c ≤ 14) (timed : Timed c capacity till ccs rows r) {w : Writer}
    (channels : w.channels = c) (control : call.type = .control)
    (bytes : call.bytes = w.resyncBlock) (counted : w.sampleCounter = UInt32.ofNat rows.length)
    (period : UInt8) (room : (period.toNat + 1) * c ≤ capacity) :
    OutputsStamped rows (r.decodeStamped call).2 ∧
      Timed c capacity period w.ccs
        (rows ++ [(List.range c).map fun i => (w.ccs i).sample]) (r.decodeAndGet call).1 := by
  have inStep := timed.inStep
  have between := inStep.between
  have count := inStep.count few
  have wellFormed_ := resyncs_resyncBlock (by omega) (count.trans channels.symm) control bytes
  have next := inStep.resync few channels control bytes period room
  obtain ⟨state, out⟩ := decodeAndGet_resync between (by omega) wellFormed_
  have opens := next.rows
  rw [out, List.nil_append, List.append_cancel_left_eq] at opens
  refine ⟨?_, next.anew, fun _ => ⟨rows.length, 1, ?_, ?_, ?_, fun _ => ?_⟩⟩
  · rw [decodeStamped_resync between (by omega) wellFormed_]
    exact timed.output
  · rw [List.length_append]
    exact le_rfl
  · rw [state, ← counted, ← scratchCounter_resyncBlock (r.begin_ call).1 bytes]
    rfl
  · rw [opens, List.drop_append_of_le_length le_rfl, List.drop_length, List.nil_append,
      List.take_of_length_le (by simp), List.flatten_singleton]
  · rw [List.length_append]
    rfl

/-- **A row** goes to the end of the block. -/
theorem Timed.row (positive : 1 ≤ c) (few : c ≤ 14) {w : Writer}
    (timed : Timed c capacity w.samplesTillSync w.ccs rows r) (some_ : w.samplesTillSync ≠ 0)
    {row : Nat → Int16} (clear : ∀ i < c, ¬ Misread (w.residual row i)) {calls : List Call}
    (carried : calls.map Call.tag = ((w.rowBytes row c).map Item.sample).map Item.tag) :
    (run Reader.decodeStamped r calls).2 = [] ∧
      Timed c capacity (w.samplesTillSync - 1) (w.rowStates row c)
        (rows ++ [(List.range c).map row]) (run Reader.decodeAndGet r calls).1 := by
  have inStep := timed.inStep
  have between := inStep.between
  have synced := inStep.synced some_
  obtain ⟨samples, bytes⟩ := InStep.samples_of_tags carried
  obtain ⟨-, nothing⟩ := between.run_samples samples
  have notEmpty := InStep.exists_some_of_row positive bytes
  have next := inStep.row positive few some_ clear carried
  have grown := next.rows
  rw [nothing, List.append_nil, List.nil_append] at grown
  obtain ⟨first, count, -, same, span, all⟩ := timed.stamped synced
  refine ⟨between.run_stamped_samples samples, next.anew, fun _ =>
    ⟨first, count + 1, ?_, ?_, ?_, fun _ => ?_⟩⟩
  · rw [List.length_append, List.length_singleton, ← all some_, Nat.add_assoc]
  · rw [between.run_counter synced samples notEmpty, same]
  · rw [grown, span, flatten_concat (all some_)]
  · rw [List.length_append, List.length_singleton, ← all some_, Nat.add_assoc]

/-- **A FLUSH** lets the block out, and the reader keeps it. -/
theorem Timed.flush (few : c ≤ 14) (timed : Timed c capacity till ccs rows r)
    (control : call.type = .control) (bytes : call.bytes = [flushCode]) :
    OutputsStamped rows (r.decodeStamped call).2 ∧
      Timed c capacity 0 ccs rows (r.decodeAndGet call).1 := by
  have inStep := timed.inStep
  have between := inStep.between
  have count := inStep.count few
  have frame := begin_frame r call
  obtain ⟨out, state⟩ := decodeStamped_flush between (by omega) control bytes
  have synced : (r.decodeAndGet call).1.inSync = r.inSync := by
    rw [state]
    exact frame.inSync
  have parsing : r.inSync = true → (r.decodeAndGet call).1.state = .dod := by
    intro synced
    rw [state, begin_opened between synced]
    rcases inStep.state with dod | waiting
    · rw [opened_parsing (by rw [dod]; exact ReaderState.noConfusion)]
      exact dod
    · rw [opened_waiting waiting]
      rfl
  have open_ : (r.decodeAndGet call).1.openRows = r.openRows := by
    rw [Reader.openRows, synced]
    cases inSync : r.inSync with
    | false =>
      rw [Reader.openRows, inSync]
      rfl
    | true =>
      rw [if_pos rfl, opened_parsing (by rw [parsing inSync]; exact ReaderState.noConfusion),
        state, ← opened_samples (by omega) inSync call.beyond, begin_opened between inSync]
  have counter : r.inSync = true → (r.decodeAndGet call).1.openCounter = r.openCounter := by
    intro inSync
    rw [Reader.openCounter, opened_parsing (by
      rw [parsing inSync]
      exact ReaderState.noConfusion), state, ← opened_counter r call.beyond,
      begin_opened between inSync]
  have room := inStep.room
  refine ⟨by rw [out]; exact timed.output, ⟨between.decodeAndGet, ?_, ?_, ?_, List.nil_append _,
    fun some_ => absurd rfl some_, fun some_ => absurd rfl some_, ?_⟩, fun inSync => ?_⟩
  · rw [state]
    exact frame.capacity.trans inStep.size
  · rw [state]
    exact frame.index.trans inStep.index
  · cases inSync : r.inSync with
    | true => exact .inl (parsing inSync)
    | false =>
      rw [state, begin_of_unsynced inSync]
      exact inStep.state
  · rw [open_]
    show r.openRows.length + c * 0 ≤ capacity
    omega
  · rw [synced] at inSync
    obtain ⟨first, number, within, same, span, -⟩ := timed.stamped inSync
    exact ⟨first, number, within, by rw [counter inSync, same], by rw [open_, span],
      fun some_ => absurd rfl some_⟩

end Timed

/-! ### The steps of a session -/

/-- The writer's queue, and what the reader reaches and lets out when it has read it. -/
structure Course (c : Nat) (w : Writer) (r : Reader) (Goal : Reader → List Stamp → Prop)
    (queue : List Item) : Prop where
  sends : Sends c w queue
  fits : ∀ block, .control block ∈ queue → block.length ≤ 4 * c + 5
  between : Between (UInt8.ofNat c) r
  ahead : Ahead Reader.decodeStamped Call.tag Goal r (queue.map Item.tag)

section Course

variable {c : Nat} {w : Writer} {r : Reader} {Goal Next : Reader → List Stamp → Prop}
  {queue : List Item}

/-- The writer has appended to the queue. -/
theorem Course.append (course : Course c w r Goal queue) {later : Writer} {items : List Item}
    (sends : Sends c later (queue ++ items))
    (fits : ∀ block, .control block ∈ items → block.length ≤ 4 * c + 5)
    (reads : ∀ r outputs calls, Goal r outputs → calls.map Call.tag = items.map Item.tag →
      Next (run Reader.decodeStamped r calls).1
        (outputs ++ (run Reader.decodeStamped r calls).2)) :
    Course c later r Next (queue ++ items) := by
  refine ⟨sends, fun block member => ?_, course.between, ?_⟩
  · exact (List.mem_append.mp member).elim (course.fits block) (fits block)
  · rw [List.map_append]
    exact course.ahead.append reads

/-- The reader reads the first items of the queue. -/
theorem Course.drop {items rest : List Item} (course : Course c w r Goal (items ++ rest))
    {later : Writer} (sends : Sends c later rest) {call : Call} {calls : List Call}
    (carried : calls.map Call.tag = items.map Item.tag)
    (next : (r.decodeStamped call).1 = (run Reader.decodeStamped r calls).1)
    (out : (r.decodeStamped call).2 = (run Reader.decodeStamped r calls).2) :
    Course c later (r.decodeStamped call).1
      (fun final more => Goal final ((r.decodeStamped call).2 ++ more)) rest := by
  have ahead := course.ahead
  rw [List.map_append] at ahead
  have behind := ahead.drop carried
  rw [← next, ← out] at behind
  refine ⟨sends, fun block member => course.fits block (List.mem_append_right _ member), ?_, behind⟩
  rw [decodeStamped_fst]
  exact course.between.decodeAndGet

/-- **A read**: what it lets out is no longer ahead. -/
theorem Course.read {s : Session} (course : Course c s.writer s.reader Goal queue)
    (read : Read c) :
    Kept s.writer (s.act (.read read)).1.writer ∧
      (s.act (.read read)).1.writer.sampleCounter = s.writer.sampleCounter ∧
      ∃ rest, Course c (s.act (.read read)).1.writer (s.act (.read read)).1.reader
        (fun final more => Goal final ((s.act (.read read)).2 ++ more)) rest := by
  have stepped : (s.next read).returned ≠ 0 → s.act (.read read) =
      (⟨(s.next read).writer, (s.reader.decodeStamped ((s.next read).call read.beyond)).1⟩,
        (s.reader.decodeStamped ((s.next read).call read.beyond)).2) :=
    fun returned => if_neg returned
  cases Session.next_front course.sends course.fits read with
  | nothing returned same =>
    have nothing : s.act (.read read) = ({ s with writer := (s.next read).writer }, []) :=
      if_pos returned
    rw [nothing, same]
    exact ⟨⟨rfl, rfl, rfl⟩, rfl, queue, course⟩
  | samples bytes rest split returned next sample carried tags =>
    subst split
    obtain ⟨states, -⟩ := decodeAndGet_bytes course.between sample
    rw [carried] at states
    have nothing := course.between.stamped_sample sample
    have all : ∀ call ∈ bytes.map (byteCall read.beyond), call.type = .sample := by
      intro call member
      obtain ⟨byte, -, rfl⟩ := List.mem_map.mp member
      rfl
    have nothingAhead := course.between.run_stamped_samples all
    rw [stepped returned]
    refine ⟨next.kept, ?_, rest, course.drop (course.sends.committed next) tags ?_ ?_⟩
    · show (s.next read).writer.sampleCounter = _
      rw [next.same]
    · rw [decodeStamped_fst, run_stamped_fst]
      exact states
    · exact nothing.trans nothingAhead.symm
  | control block rest split returned next tags =>
    subst split
    have one := EventMachine.run_singleton Reader.decodeStamped s.reader
      ((s.next read).call read.beyond)
    rw [stepped returned]
    refine ⟨next.kept, ?_, rest, course.drop (course.sends.committed next) tags
      (congrArg Prod.fst one.symm) (congrArg Prod.snd one.symm)⟩
    show (s.next read).writer.sampleCounter = _
    rw [next.same]

end Course

/-! ### The run -/

/-- **The invariant of a session**: what came out is stamped, and behind its queue the reader is timed
with the writer, having let out stamped blocks only. -/
structure Timely {c : Nat} (setup : Setup c) (s : Session) (past : List Stamp) : Prop where
  period : s.writer.syncPeriod = setup.syncPeriod
  counted : s.writer.sampleCounter = UInt32.ofNat (inputs past).length
  outputs : OutputsStamped (inputs past) past
  course : ∃ queue, Course c s.writer s.reader
    (fun r outputs => OutputsStamped (inputs past) outputs ∧
      Timed c setup.capacity s.writer.samplesTillSync s.writer.ccs (inputs past) r) queue

section Run

variable {c : Nat} {setup : Setup c} {s : Session} {past : List Stamp}

theorem OutputsStamped.later {rows : List (List Int16)} {outputs : List Stamp}
    (stamped : OutputsStamped rows outputs) (more : List (List Int16)) :
    OutputsStamped (rows ++ more) outputs :=
  fun counter span member => (stamped counter span member).later more

theorem OutputsStamped.append {rows : List (List Int16)} {first second : List Stamp}
    (stampedFirst : OutputsStamped rows first) (stampedSecond : OutputsStamped rows second) :
    OutputsStamped rows (first ++ second) :=
  fun counter span member => (List.mem_append.mp member).elim (stampedFirst counter span)
    (stampedSecond counter span)

theorem timely_start (setup : Setup c) : Timely setup setup.start [] := by
  have none_ : OutputsStamped [] [] := fun _ _ member => absurd member List.not_mem_nil
  refine ⟨rfl, rfl, none_, [], setup.sends, fun _ member => absurd member List.not_mem_nil,
    setup.between, ?_⟩
  rw [List.map_nil, EventMachine.ahead_nil]
  exact ⟨none_, setup.inStep, fun synced => Bool.noConfusion synced⟩

/-- The caller counts every row. -/
theorem counted_succ (rows : List (List Int16)) (row : List Int16) {counter : UInt32}
    (counted : counter = UInt32.ofNat rows.length) :
    counter + 1 = UInt32.ofNat (rows ++ [row]).length := by
  rw [counted, List.length_append, List.length_singleton, UInt32.ofNat_add]
  rfl

/-- **A row goes in**, and the caller counts it: what is left to show is what is ahead. -/
theorem Timely.pushed (timely : Timely setup s past) (row : Nat → Int16)
    (period : (s.writer.pushSample row).1.syncPeriod = s.writer.syncPeriod)
    (course : ∃ queue, Course c (s.act (Act.push (c := c) row)).1.writer s.reader
      (fun r outputs => OutputsStamped (inputs past ++ [(List.range c).map row]) outputs ∧
        Timed c setup.capacity (s.writer.pushSample row).1.samplesTillSync
          (s.writer.pushSample row).1.ccs (inputs past ++ [(List.range c).map row]) r) queue) :
    Timely setup (s.act (Act.push (c := c) row)).1
      (past ++ (s.act (Act.push (c := c) row)).2) := by
  have rows : inputs (past ++ (s.act (Act.push (c := c) row)).2) =
      inputs past ++ [(List.range c).map row] := inputs_append _ _
  have counter : (s.writer.pushSample row).1.sampleCounter = s.writer.sampleCounter := by
    rw [Writer.pushSample, encodeRow_encoded]
    cases s.writer.startsBlock <;> cases s.writer.writesRow <;> rfl
  refine ⟨period.trans timely.period, ?_, ?_, ?_⟩
  · rw [rows]
    exact counted_succ _ _ (counter.trans timely.counted)
  · rw [rows]
    exact (timely.outputs.later _).append fun counter span member =>
      Stamp.noConfusion (List.mem_singleton.mp member)
  · rw [rows]
    exact course

theorem Timely.push (timely : Timely setup s past) (row : Nat → Int16)
    (clear : Unmixed s (Act.push (c := c) row)) :
    Timely setup (s.act (Act.push (c := c) row)).1
      (past ++ (s.act (Act.push (c := c) row)).2) := by
  obtain ⟨queue, course⟩ := timely.course
  have few := setup.few
  have positive := setup.positive
  have channels := course.sends.channels
  rcases course.sends.push row with ⟨_, sends, till, period⟩ |
    ⟨_, sends, till, period, states⟩ | ⟨_, writes, some_, sends, till, period, states⟩
  case refused =>
    refine timely.pushed row period ⟨queue, sends.counted _, course.fits, course.between, ?_⟩
    refine course.ahead.mono fun final events goal => ⟨goal.1.later _, ?_⟩
    rw [till]
    exact goal.2.pause _ _
  case resync =>
    have sample : ∀ i < c, ((s.writer.skipped row).ccs i).sample = row i :=
      fun i inside => skipped_sample _ row (by omega)
    have length : (s.writer.skipped row).resyncBlock.length =
        5 + 4 * (s.writer.skipped row).channels := resyncBlock_length (by
      show s.writer.channels ≤ 255
      omega)
    have count : (s.writer.skipped row).channels = c := channels
    have moved : (s.writer.skipped row).ccs = s.writer.rowStates row c := by
      rw [← channels]
      rfl
    refine timely.pushed row period ⟨_, course.append (sends.counted _) (fun block member => ?_)
      fun r outputs calls goal carried => ?_⟩
    · rw [Item.control.inj (List.mem_singleton.mp member), length]
      omega
    · obtain ⟨call, rfl, one⟩ := List.map_eq_singleton_iff.mp carried
      obtain ⟨out, next⟩ := goal.2.resync few count (congrArg Prod.fst one)
        (congrArg Prod.snd one) timely.counted setup.syncPeriod setup.rows
      rw [List.map_congr_left fun i member => sample i (List.mem_range.mp member), moved, ← states,
        ← timely.period, ← till, ← decodeStamped_fst] at next
      rw [EventMachine.run_singleton]
      exact ⟨(goal.1.later _).append (out.later _), next⟩
  case written =>
    refine timely.pushed row period ⟨_, course.append (sends.counted _) (fun block member => ?_)
      fun r outputs calls goal carried => ?_⟩
    · obtain ⟨byte, -, other⟩ := List.mem_map.mp member
      exact Item.noConfusion other
    · obtain ⟨nothing, next⟩ := goal.2.row positive few some_ (clear writes) carried
      rw [← states, ← till, ← run_stamped_fst] at next
      rw [nothing, List.append_nil]
      exact ⟨goal.1.later _, next⟩

theorem Timely.flush (timely : Timely setup s past) :
    Timely setup (s.act (Act.flush (c := c))).1 (past ++ (s.act (Act.flush (c := c))).2) := by
  obtain ⟨queue, course⟩ := timely.course
  show Timely setup s.flush (past ++ [])
  rw [List.append_nil]
  cases flushed : s.writer.flush.2 with
  | false =>
    have same : s.flush = s := by
      rw [Writer.flush] at flushed
      split at flushed
      case isTrue full => rw [Session.flush, Writer.flush, if_pos full]
      case isFalse => exact Bool.noConfusion flushed
    rw [same]
    exact timely
  | true =>
    have sends := course.sends.flush flushed
    have fields : s.writer.flush.1.samplesTillSync = 0 ∧ s.writer.flush.1.ccs = s.writer.ccs ∧
        s.writer.flush.1.syncPeriod = s.writer.syncPeriod ∧
        s.writer.flush.1.sampleCounter = s.writer.sampleCounter := by
      rw [Writer.flush] at flushed ⊢
      split at flushed
      case isTrue => exact Bool.noConfusion flushed
      case isFalse room =>
        rw [if_neg room]
        exact ⟨rfl, rfl, rfl, rfl⟩
    obtain ⟨till, ccs, period, counter⟩ := fields
    refine ⟨period.trans timely.period, counter.trans timely.counted, timely.outputs, _,
      course.append sends (fun block member => ?_) fun r outputs calls goal carried => ?_⟩
    · rw [Item.control.inj (List.mem_singleton.mp member)]
      exact Nat.le_add_left 1 _
    · obtain ⟨call, rfl, one⟩ := List.map_eq_singleton_iff.mp carried
      obtain ⟨out, next⟩ := goal.2.flush setup.few (congrArg Prod.fst one) (congrArg Prod.snd one)
      show _ ∧ Timed c setup.capacity s.writer.flush.1.samplesTillSync s.writer.flush.1.ccs _ _
      rw [EventMachine.run_singleton, till, ccs, decodeStamped_fst]
      exact ⟨goal.1.append out, next⟩

theorem Timely.read (timely : Timely setup s past) (read : Read c) :
    Timely setup (s.act (.read read)).1 (past ++ (s.act (.read read)).2) := by
  obtain ⟨queue, course⟩ := timely.course
  obtain ⟨kept, counter, rest, behind⟩ := course.read read
  have nothing : inputs (s.act (.read read)).2 = [] := by
    simp only [Session.act]
    split
    · rfl
    · simp only [Reader.decodeStamped]
      split <;> rfl
  have out : OutputsStamped (inputs past) (s.act (.read read)).2 := by
    intro counter span member
    -- what has come out was ahead before
    have all := behind.ahead
    obtain ⟨calls, carried⟩ : ∃ calls : List Call, calls.map Call.tag = rest.map Item.tag := by
      refine ⟨rest.map fun item => ⟨item.tag.2, item.tag.1, 0, fun _ => 0⟩, ?_⟩
      rw [List.map_map]
      rfl
    exact (all calls carried).1 counter span (List.mem_append_left _ member)
  refine ⟨kept.period.trans timely.period, ?_, ?_, rest, ?_⟩
  · rw [inputs_append, nothing, List.append_nil]
    exact counter.trans timely.counted
  · rw [inputs_append, nothing, List.append_nil]
    exact timely.outputs.append out
  · rw [kept.till, kept.ccs, inputs_append, nothing, List.append_nil]
    exact ⟨behind.sends, behind.fits, behind.between, behind.ahead.mono fun final more goal =>
      ⟨fun counter span member =>
        goal.1 counter span (List.mem_append_right _ member), goal.2⟩⟩

/-- **When every block is time-stamped.** For every channel count from 1 to 14, every sync period,
rings and block of allowed sizes, and every order of rows, flushes and reads: if the writer writes no
`Misread` residual, every span that comes out is made of the input rows from its counter on. -/
theorem stamped_of_clear (setup : Setup c) (acts : List (Act c))
    (clear : Along Session.act Unmixed setup.start acts) :
    TimeStamped (run Session.act setup.start acts).2 := by
  have timely := EventMachine.run_history Session.act (Timely setup)
    (fun s act past clear timely => by
      cases act with
      | push row => exact timely.push row clear
      | flush => exact timely.flush
      | read read => exact timely.read read) (timely_start setup) clear
  rw [List.nil_append] at timely
  exact fun counter span member _ => timely.outputs counter span member

end Run

/-- Two rows of one sample, read, flushed and read. -/
def twoRowsFlushed (first second : Int16) : List (Act 1) :=
  [.push fun _ => first, .push fun _ => second, .read nineBytes, .read nineBytes, .flush,
    .read nineBytes]

/-- A second difference of `300`. -/
theorem stamped_of_clear_row :
    TimeStamped (run Session.act oneChannel.start (twoRowsFlushed 0 300)).2 :=
  stamped_of_clear oneChannel (twoRowsFlushed 0 300)
    ⟨show _ → ∀ i < 1, _ by decide +kernel, show _ → ∀ i < 1, _ by decide +kernel, trivial, trivial,
      trivial, trivial, trivial⟩

/-- **A block whose rows are not the input rows**: a second difference of `124` comes out as `120`,
and the block is stamped with the number of the row before it. -/
theorem not_timeStamped : ¬ ∀ {c : Nat} (setup : Setup c) (acts : List (Act c)),
    TimeStamped (run Session.act setup.start acts).2 := by
  intro all
  have stamped : TimeStamped (run Session.act oneChannel.start (twoRowsFlushed 0 124)).2 :=
    all oneChannel _
  have come : (run Session.act oneChannel.start (twoRowsFlushed 0 124)).2 =
      [.input [0], .input [124], .output 0 [0, 120]] := by decide +kernel
  rw [come] at stamped
  obtain ⟨first, count, -, -, span⟩ := stamped 0 [0, 120] (by decide) (by decide)
  have member : (120 : Int16) ∈ (([[0], [124]].drop first).take count).flatten := by
    rw [← show inputs [.input [0], .input [124], .output 0 [0, 120]] = [[0], [124]] from rfl,
      ← span]
    decide
  obtain ⟨row, taken, member⟩ := List.mem_flatten.mp member
  have input : row ∈ [[0], [(124 : Int16)]] := List.drop_subset _ _ (List.take_subset _ _ taken)
  rw [List.mem_cons, List.mem_singleton] at input
  rcases input with rfl | rfl
  · exact absurd member (by decide)
  · exact absurd member (by decide)

end ForgeDrive.Daq
