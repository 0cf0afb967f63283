/-
**Where the parser writes.**

`Stream.writes` lists the array elements that one turn of the loop of `process` writes, in the order
of the source; `processByte_header_unwritten` and `processByte_payload_unwritten`: it leaves out no
element that the turn changes. The index guards of the three states are kept together by one
invariant (`InBuffers`): a header is read at an index below its size, and the payload position never
passes the capacity, neither after an error path has reset it and the code below has moved it again.

`processByte_inBuffers` is the step, `process_staysInside` the run: however the bytes are cut into
chunks, the parser stays inside its buffers, and no frame is longer than the payload buffer.
-/

import ForgeDrive.Abf.Receive

namespace ForgeDrive.Abf

open Circular (segment)

/-- A write to an element of one of the two arrays of the receiver. -/
inductive Write
  | header (index : Nat)
  | payload (index : Nat)
  deriving DecidableEq, Repr

/-- The write is to an element of its array. -/
def Write.Inside (capacity : Nat) : Write → Prop
  | .header index => index < headerSize
  | .payload index => index < capacity

/-- The writes of `case State::READ_PAYLOAD`: one byte, where the position is behind the test for a
`0x00`. -/
def Stream.payloadWrites (s : Stream) (data : Stream → UInt8) : List Write :=
  if s.rxPos < (s.header 2).toNat then
    let s := (s.checkByte data).1
    if s.rxPos < s.rxCapacity then [.payload s.rxPos] else []
  else []

/-- The writes of one turn of the loop of `process`. -/
def Stream.writes (s : Stream) (data : Stream → UInt8) : List Write :=
  match s.state with
  | .huntSync => if data s = syncByte then [.header 0] else []
  | .readHeader => [.header s.headerPos]
  | .readPayload => s.payloadWrites data
  | .validate => []

/-! ### Nothing else is written -/

section Unwritten

variable {s : Stream} {data : Stream → UInt8} {i : Nat}

theorem checkHeader_header (s : Stream) : s.checkHeader.1.header = s.header := by
  unfold Stream.checkHeader
  split <;> rfl

theorem checkHeader_rxPayload (s : Stream) : s.checkHeader.1.rxPayload = s.rxPayload := by
  unfold Stream.checkHeader
  split <;> rfl

theorem checkByte_header (s : Stream) (data : Stream → UInt8) :
    (s.checkByte data).1.header = s.header := by
  unfold Stream.checkByte
  split <;> rfl

theorem checkByte_rxPayload (s : Stream) (data : Stream → UInt8) :
    (s.checkByte data).1.rxPayload = s.rxPayload := by
  unfold Stream.checkByte
  split <;> rfl

theorem storeByte_header (s : Stream) (data : Stream → UInt8) :
    (s.storeByte data).1.header = s.header := by
  unfold Stream.storeByte
  split
  · split <;> rfl
  · rfl

theorem storeByte_rxPayload_unwritten (s : Stream) (data : Stream → UInt8)
    (unwritten : ¬ (s.rxPos < s.rxCapacity ∧ i = s.rxPos)) :
    (s.storeByte data).1.rxPayload i = s.rxPayload i := by
  unfold Stream.storeByte
  by_cases room : s.rxPos < s.rxCapacity
  · have elsewhere : i ≠ s.rxPos := fun same => unwritten ⟨room, same⟩
    rw [if_pos room]
    split <;> exact Function.update_of_ne elsewhere _ _
  · rw [if_neg room]
    rfl

theorem deliver_header (s : Stream) : s.deliver.1.header = s.header := by
  unfold Stream.deliver
  split <;> rfl

theorem deliver_rxPayload (s : Stream) : s.deliver.1.rxPayload = s.rxPayload := by
  unfold Stream.deliver
  split <;> rfl

/-- A header byte that is not among the writes keeps its value. -/
theorem processByte_header_unwritten (unwritten : .header i ∉ s.writes data) :
    (s.processByte data).1.header i = s.header i := by
  unfold Stream.processByte
  unfold Stream.writes at unwritten
  cases state : s.state with
  | huntSync =>
    rw [state] at unwritten
    simp only [Stream.huntSync]
    by_cases sync : data s = syncByte
    · simp only [if_pos sync, List.mem_singleton, Write.header.injEq] at unwritten ⊢
      exact Function.update_of_ne unwritten _ _
    · rw [if_neg sync]
  | readHeader =>
    rw [state] at unwritten
    simp only [List.mem_singleton, Write.header.injEq] at unwritten
    simp only [Stream.readHeader]
    split
    · rw [checkHeader_header]
      exact Function.update_of_ne unwritten _ _
    · exact Function.update_of_ne unwritten _ _
  | readPayload =>
    have taken : (s.takePayload data).1.header = s.header := by
      rw [Stream.takePayload, storeByte_header, checkByte_header]
    simp only [Stream.readPayload, deliver_header]
    split
    · rw [taken]
    · rfl
  | validate => rfl

/-- A byte of the payload buffer that is not among the writes keeps its value. -/
theorem processByte_payload_unwritten (unwritten : .payload i ∉ s.writes data) :
    (s.processByte data).1.rxPayload i = s.rxPayload i := by
  unfold Stream.processByte
  unfold Stream.writes at unwritten
  cases state : s.state with
  | huntSync =>
    simp only [Stream.huntSync]
    split <;> rfl
  | readHeader =>
    simp only [Stream.readHeader]
    split
    · rw [checkHeader_rxPayload]
    · rfl
  | readPayload =>
    rw [state] at unwritten
    simp only [Stream.readPayload, deliver_rxPayload]
    by_cases inside : s.rxPos < (s.header 2).toNat
    · simp only [Stream.payloadWrites, if_pos inside] at unwritten
      rw [if_pos inside, Stream.takePayload, storeByte_rxPayload_unwritten, checkByte_rxPayload]
      rintro ⟨room, same⟩
      rw [if_pos room, same] at unwritten
      exact unwritten List.mem_cons_self
    · rw [if_neg inside]
  | validate => rfl

end Unwritten

/-! ### The invariant -/

/-- The positions are inside their arrays: the next header byte goes to one of the five elements,
and the payload position is at most the capacity. -/
structure InBuffers (s : Stream) : Prop where
  header : s.state = .readHeader → s.headerPos < headerSize
  payload : s.rxPos ≤ s.rxCapacity

/-- The writes are inside, and a frame handed over is not longer than the payload buffer. -/
structure StepInside (capacity : Nat) (writes : List Write) (events : List Event) : Prop where
  write : ∀ write ∈ writes, write.Inside capacity
  frame : ∀ serviceId payload, .onFrame serviceId payload ∈ events → payload.length ≤ capacity

section Step

variable {s : Stream} (data : Stream → UInt8)

theorem InBuffers.new (buffer : Nat → UInt8) (bufferSize : UInt8) :
    InBuffers (Stream.new buffer bufferSize) :=
  ⟨fun reading => State.noConfusion reading, Nat.zero_le _⟩

/-- A receiver that does not read a header, and whose payload position is inside. -/
theorem InBuffers.of_state (other : s.state ≠ .readHeader) (inside : s.rxPos ≤ s.rxCapacity) :
    InBuffers s := ⟨fun reading => absurd reading other, inside⟩

theorem reset_inBuffers (s : Stream) : InBuffers s.reset :=
  .of_state State.noConfusion (Nat.zero_le _)

theorem huntSync_inBuffers (inside : InBuffers s) : InBuffers (s.huntSync data).1 := by
  unfold Stream.huntSync
  split
  · exact ⟨fun _ => (by decide : 1 < headerSize), inside.payload⟩
  · exact inside

/-- The last byte of a header starts a payload; any other leaves room for one more. -/
theorem readHeader_inBuffers (inside : InBuffers s) (reading : s.state = .readHeader) :
    InBuffers (s.readHeader data).1 := by
  have below := inside.header reading
  simp only [Stream.readHeader]
  split
  · exact .of_state State.noConfusion (Nat.zero_le _)
  · refine ⟨fun _ => ?_, inside.payload⟩
    show s.headerPos + 1 < 5
    have : s.headerPos < 5 := below
    omega

theorem checkByte_state_ne (reading : s.state = .readPayload) :
    (s.checkByte data).1.state ≠ .readHeader := by
  unfold Stream.checkByte
  split
  · exact State.noConfusion
  · rw [reading]
    exact State.noConfusion

/-- A byte is stored only below the capacity, so the position behind it is at most the capacity. -/
theorem storeByte_rxPos_le (s : Stream) :
    (s.storeByte data).1.rxPos ≤ (s.storeByte data).1.rxCapacity := by
  unfold Stream.storeByte
  by_cases room : s.rxPos < s.rxCapacity
  · rw [if_pos room]
    split <;> exact room
  · rw [if_neg room]
    exact Nat.zero_le _

theorem storeByte_state_ne (other : s.state ≠ .readHeader) :
    (s.storeByte data).1.state ≠ .readHeader := by
  unfold Stream.storeByte
  split
  · split <;> exact other
  · exact State.noConfusion

/-- The state before the second `if` of `case State::READ_PAYLOAD`. -/
theorem takePayload_inBuffers (reading : s.state = .readPayload) :
    InBuffers (s.takePayload data).1 :=
  .of_state (storeByte_state_ne data (checkByte_state_ne data reading)) (storeByte_rxPos_le data _)

theorem deliver_inBuffers (inside : InBuffers s) : InBuffers s.deliver.1 := by
  unfold Stream.deliver
  split
  · exact reset_inBuffers s
  · exact inside

/-- A frame is handed over when the position has reached its length, which is then inside. -/
theorem deliver_frame_le (inside : InBuffers s) {serviceId : UInt8} {payload : List UInt8}
    (delivered : .onFrame serviceId payload ∈ s.deliver.2) : payload.length ≤ s.rxCapacity := by
  unfold Stream.deliver at delivered
  split at delivered
  · rename_i complete
    obtain ⟨-, rfl⟩ := Event.onFrame.inj (List.mem_singleton.mp delivered)
    rw [Circular.segment_length, ← complete]
    exact inside.payload
  · cases delivered

theorem takePayload_no_frame (s : Stream) (serviceId : UInt8) (payload : List UInt8) :
    .onFrame serviceId payload ∉ (s.takePayload data).2 := by
  have checked : Event.onFrame serviceId payload ∉ (s.checkByte data).2 := by
    unfold Stream.checkByte
    split <;> simp
  have stored : ∀ t : Stream, Event.onFrame serviceId payload ∉ (t.storeByte data).2 := by
    intro t
    unfold Stream.storeByte
    split
    · split <;> simp
    · simp
  rw [Stream.takePayload, List.mem_append]
  exact not_or_intro checked (stored _)

/-- **One turn of the loop** keeps the positions inside their arrays. -/
theorem processByte_inBuffers (inside : InBuffers s) : InBuffers (s.processByte data).1 := by
  unfold Stream.processByte
  cases state : s.state with
  | huntSync => exact huntSync_inBuffers data inside
  | readHeader => exact readHeader_inBuffers data inside state
  | readPayload =>
    simp only [Stream.readPayload]
    split
    · exact deliver_inBuffers (takePayload_inBuffers data state)
    · exact deliver_inBuffers inside
  | validate => exact inside

theorem writes_inside (inside : InBuffers s) :
    ∀ write ∈ s.writes data, write.Inside s.rxCapacity := by
  unfold Stream.writes
  cases state : s.state with
  | huntSync =>
    intro write member
    simp only [] at member
    split at member
    · rw [List.mem_singleton.mp member]
      exact (by decide : 0 < headerSize)
    · cases member
  | readHeader =>
    intro write member
    rw [List.mem_singleton.mp member]
    exact inside.header state
  | readPayload =>
    intro write member
    simp only [Stream.payloadWrites] at member
    split at member
    · split at member
      · rename_i room
        rw [List.mem_singleton.mp member]
        exact room.trans_eq (checkByte_rxCapacity s data)
      · cases member
    · cases member
  | validate => exact List.forall_mem_nil _

/-- No frame of one turn of the loop is longer than the payload buffer. -/
theorem processByte_frame_le (inside : InBuffers s) {serviceId : UInt8} {payload : List UInt8}
    (emitted : .onFrame serviceId payload ∈ (s.processByte data).2) :
    payload.length ≤ s.rxCapacity := by
  unfold Stream.processByte at emitted
  cases state : s.state with
  | huntSync =>
    simp only [state, Stream.huntSync] at emitted
    split at emitted <;> cases emitted
  | readHeader =>
    simp only [state, Stream.readHeader, Stream.checkHeader] at emitted
    split at emitted
    · split at emitted
      · cases List.mem_singleton.mp emitted
      · cases emitted
    · cases emitted
  | readPayload =>
    simp only [state, Stream.readPayload] at emitted
    rcases List.mem_append.mp emitted with taken | delivered
    · split at taken
      · exact absurd taken (takePayload_no_frame data s _ _)
      · cases taken
    · split at delivered
      · have le := deliver_frame_le (takePayload_inBuffers data state) delivered
        have capacity : (s.takePayload data).1.rxCapacity = s.rxCapacity :=
          (storeByte_rxCapacity _ _).trans (checkByte_rxCapacity s data)
        exact le.trans_eq capacity
      · exact deliver_frame_le inside delivered
  | validate =>
    rw [state] at emitted
    cases emitted

/-- **One turn of the loop** writes inside the arrays. -/
theorem processByte_inside (inside : InBuffers s) :
    StepInside s.rxCapacity (s.writes data) (s.processByte data).2 :=
  ⟨writes_inside data inside, fun _ _ emitted => processByte_frame_le data inside emitted⟩

end Step

/-! ### Whole runs -/

/-- The receiver after some chunks and the first bytes of the next. -/
def Stream.fed (start : Stream) (chunks : List (List UInt8)) (bytes : List UInt8) : Stream :=
  ((EventMachine.run Stream.process start chunks).1.process bytes).1

/-- **The parser stays inside its buffers** while it is fed these chunks: at every byte of every
chunk it writes inside the two arrays and hands over no frame longer than the payload buffer
(`step`), and before and after every byte its position is at most the capacity (`position`). -/
structure StaysInside (start : Stream) (chunks : List (List UInt8)) : Prop where
  step : ∀ before bytes byte rest after, chunks = before ++ (bytes ++ byte :: rest) :: after →
    StepInside start.rxCapacity ((start.fed before bytes).writes fun _ => byte)
      ((start.fed before bytes).processOne byte).2
  position : ∀ before bytes rest after, chunks = before ++ (bytes ++ rest) :: after →
    (start.fed before bytes).rxPos ≤ start.rxCapacity

theorem fed_eq (start : Stream) (chunks : List (List UInt8)) (bytes : List UInt8) :
    start.fed chunks bytes = (start.process (chunks.flatten ++ bytes)).1 := by
  rw [Stream.fed, process_append]
  exact congrArg (fun run => (run.1.process bytes).1)
    (EventMachine.run_chunks Stream.processOne start chunks)

theorem fed_inBuffers {start : Stream} (inside : InBuffers start) (chunks : List (List UInt8))
    (bytes : List UInt8) : InBuffers (start.fed chunks bytes) := by
  rw [fed_eq]
  exact EventMachine.run_invariant Stream.processOne InBuffers
    (fun _ _ holds => processByte_inBuffers _ holds) inside _

theorem fed_rxCapacity (start : Stream) (chunks : List (List UInt8)) (bytes : List UInt8) :
    (start.fed chunks bytes).rxCapacity = start.rxCapacity := by
  rw [fed_eq]
  exact process_rxCapacity start _

/-- **From construction on, for every capacity and however the bytes are cut into chunks, the parser
stays inside its buffers.** -/
theorem process_staysInside (buffer : Nat → UInt8) (bufferSize : UInt8)
    (chunks : List (List UInt8)) : StaysInside (Stream.new buffer bufferSize) chunks := by
  constructor
  · intro before bytes byte rest after _
    rw [← fed_rxCapacity (Stream.new buffer bufferSize) before bytes]
    exact processByte_inside _ (fed_inBuffers (.new buffer bufferSize) before bytes)
  · intro before bytes rest after _
    rw [← fed_rxCapacity (Stream.new buffer bufferSize) before bytes]
    exact (fed_inBuffers (.new buffer bufferSize) before bytes).payload

end ForgeDrive.Abf
