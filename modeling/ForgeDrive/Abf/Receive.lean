/-
**What the receiver does, step by step and over whole runs of bytes.**

One lemma for each way a byte can be taken (`processOne_…`), and from them the runs the results
about streams are put together from: a header (`process_header`), the bytes of a payload
(`process_payload_open`, `process_payload_whole`), and bytes that are skipped while hunting
(`process_skip`).
-/

import ForgeDrive.Abf.Frame

namespace ForgeDrive.Abf

open ZeroStuffing
open Circular (segment store)

/-! ### Feeding -/

@[simp] theorem process_nil (s : Stream) : s.process [] = (s, []) := rfl

theorem process_cons (s : Stream) (byte : UInt8) (rest : List UInt8) :
    s.process (byte :: rest) = (((s.processOne byte).1.process rest).1,
      (s.processOne byte).2 ++ ((s.processOne byte).1.process rest).2) := rfl

theorem process_append (s : Stream) (first second : List UInt8) :
    s.process (first ++ second) = (((s.process first).1.process second).1,
      (s.process first).2 ++ ((s.process first).1.process second).2) :=
  EventMachine.run_append _ _ _ _

/-! ### Hunting -/

theorem processOne_sync {s : Stream} (hunt : s.state = .huntSync) :
    s.processOne 0 = ({ s with
      state := .readHeader, header := Function.update s.header 0 syncByte, headerPos := 1 }, []) := by
  simp only [Stream.processOne, Stream.processByte, hunt, Stream.huntSync]
  rfl

theorem processOne_skip {s : Stream} (hunt : s.state = .huntSync) {byte : UInt8}
    (nonzero : byte ≠ 0) : s.processOne byte = (s, []) := by
  simp only [Stream.processOne, Stream.processByte, hunt, Stream.huntSync]
  exact if_neg nonzero

/-- A hunting receiver skips everything up to the next zero. -/
theorem process_skip {s : Stream} (hunt : s.state = .huntSync) {bytes : List UInt8}
    (nonzero : ∀ byte ∈ bytes, byte ≠ 0) : s.process bytes = (s, []) := by
  induction bytes with
  | nil => rfl
  | cons byte rest ih =>
    rw [process_cons, processOne_skip hunt (nonzero byte List.mem_cons_self),
      ih fun other member => nonzero other (List.mem_cons_of_mem _ member)]
    rfl

/-! ### Headers -/

theorem processOne_header {s : Stream} (reading : s.state = .readHeader)
    (open_ : s.headerPos ≠ 4) (byte : UInt8) :
    s.processOne byte = ({ s with
      header := Function.update s.header s.headerPos byte, headerPos := s.headerPos + 1 }, []) := by
  simp only [Stream.processOne, Stream.processByte, reading, Stream.readHeader, open_, if_false]

/-- The bytes of a header before the last are stored, silently. -/
theorem process_header_open {s : Stream} (reading : s.state = .readHeader) {bytes : List UInt8}
    (missing : s.headerPos + bytes.length ≤ 4) :
    (s.process bytes).1.state = .readHeader ∧
      (s.process bytes).1.headerPos = s.headerPos + bytes.length ∧ (s.process bytes).2 = [] := by
  induction bytes generalizing s with
  | nil => exact ⟨reading, rfl, rfl⟩
  | cons byte rest ih =>
    rw [List.length_cons] at missing
    rw [process_cons, processOne_header reading (by omega) byte]
    obtain ⟨state, position, silent⟩ := ih
      (s := { s with header := Function.update s.header s.headerPos byte,
                     headerPos := s.headerPos + 1 }) reading (by show _ + 1 + _ ≤ 4; omega)
    refine ⟨state, ?_, silent⟩
    rw [position, List.length_cons]
    show s.headerPos + 1 + rest.length = s.headerPos + (rest.length + 1)
    omega

/-- A sync byte and up to three more bytes. -/
theorem process_sync_open {s : Stream} (hunt : s.state = .huntSync) {read : List UInt8}
    (missing : read.length ≤ 3) :
    (s.process (0 :: read)).1.state = .readHeader ∧
      (s.process (0 :: read)).1.headerPos = read.length + 1 ∧ (s.process (0 :: read)).2 = [] := by
  rw [process_cons, processOne_sync hunt]
  obtain ⟨state, position, silent⟩ := process_header_open (s := { s with
    state := .readHeader, header := Function.update s.header 0 syncByte, headerPos := 1 }) rfl
    (show 1 + read.length ≤ 4 by omega)
  exact ⟨state, position.trans (Nat.add_comm _ _), silent⟩

/-- The header array after a whole header was read. -/
def fullHeader (header : Nat → UInt8) (serviceId payloadLen code crc : UInt8) : Nat → UInt8 :=
  Function.update (Function.update (Function.update (Function.update (Function.update header
    0 syncByte) 1 serviceId) 2 payloadLen) 3 code) 4 crc

/-- The receiver at the start of a payload, whatever the checksum was. -/
def Stream.startPayload (s : Stream) (serviceId payloadLen code crc : UInt8) : Stream :=
  { s with
    header := fullHeader s.header serviceId payloadLen code crc
    rxNextZero := code
    rxPos := 0
    state := .readPayload
    headerPos := if headerCrc serviceId payloadLen code = crc then 5 else 1 }

/-- **A header**: five bytes take a hunting receiver to the start of the payload; a wrong checksum is
reported, and changes only the header position it is left with. -/
theorem process_header {s : Stream} (hunt : s.state = .huntSync)
    (serviceId payloadLen code crc : UInt8) :
    s.process [0, serviceId, payloadLen, code, crc] =
      (s.startPayload serviceId payloadLen code crc,
        if headerCrc serviceId payloadLen code = crc then []
        else [.onError .headerCrcMismatch]) := by
  rw [process_cons, processOne_sync hunt]
  rw [process_cons, processOne_header rfl (by simp)]
  rw [process_cons, processOne_header rfl (by simp)]
  rw [process_cons, processOne_header rfl (by simp)]
  rw [process_cons, process_nil]
  by_cases good : headerCrc serviceId payloadLen code = crc
  · simp [Stream.processOne, Stream.processByte, Stream.readHeader, Stream.checkHeader,
      Stream.startPayload, fullHeader, good]
  · simp [Stream.processOne, Stream.processByte, Stream.readHeader, Stream.checkHeader,
      Stream.startPayload, fullHeader, good, Stream.reset]

/-! ### Payloads -/

/-- One payload byte stored, its zero restored. -/
def Stream.accept (s : Stream) (byte : UInt8) : Stream :=
  if s.rxNextZero = 1 then { s.storePayload 0 with rxNextZero := byte }
  else { s.storePayload byte with rxNextZero := s.rxNextZero - 1 }

/-- Payload bytes stored one after the other. -/
def Stream.acceptAll (s : Stream) (bytes : List UInt8) : Stream :=
  { s with
    rxPayload := store s.rxPayload s.rxPos (unstuff byteCode s.rxNextZero bytes)
    rxPos := s.rxPos + bytes.length
    rxNextZero := countdownAfter byteCode s.rxNextZero bytes }

theorem acceptAll_nil (s : Stream) : s.acceptAll [] = s := by
  simp only [Stream.acceptAll, unstuff, Circular.store_nil, countdownAfter, List.length_nil,
    Nat.add_zero]

theorem acceptAll_cons (s : Stream) (byte : UInt8) (rest : List UInt8) :
    (s.accept byte).acceptAll rest = s.acceptAll (byte :: rest) := by
  have atOne : byteCode.code 1 = 1 := rfl
  unfold Stream.accept Stream.acceptAll
  by_cases restore : s.rxNextZero = 1
  · simp only [restore, if_true, Stream.storePayload, unstuff, countdownAfter, atOne,
      Circular.store_cons, List.length_cons, byteCode_zero, Nat.add_assoc, Nat.add_comm 1]
  · simp only [restore, if_false, Stream.storePayload, unstuff, countdownAfter, atOne,
      Circular.store_cons, List.length_cons, byteCode_next, Nat.add_assoc, Nat.add_comm 1]

@[simp] theorem accept_state (s : Stream) (byte : UInt8) : (s.accept byte).state = s.state := by
  unfold Stream.accept; split <;> rfl

@[simp] theorem accept_header (s : Stream) (byte : UInt8) : (s.accept byte).header = s.header := by
  unfold Stream.accept; split <;> rfl

@[simp] theorem accept_rxPos (s : Stream) (byte : UInt8) :
    (s.accept byte).rxPos = s.rxPos + 1 := by
  unfold Stream.accept; split <;> rfl

@[simp] theorem accept_rxCapacity (s : Stream) (byte : UInt8) :
    (s.accept byte).rxCapacity = s.rxCapacity := by
  unfold Stream.accept; split <;> rfl

theorem checkByte_of_ne (s : Stream) {byte : UInt8} (nonzero : byte ≠ 0) :
    (s.checkByte fun _ => byte) = (s, []) := if_neg nonzero

theorem checkByte_zero (s : Stream) :
    (s.checkByte fun _ => 0) = (s.reset, [.onError .payloadIncomplete]) := rfl

theorem storeByte_room {s : Stream} (room : s.rxPos < s.rxCapacity) (byte : UInt8) :
    (s.storeByte fun _ => byte) = (s.accept byte, []) := by
  unfold Stream.storeByte Stream.accept
  rw [if_pos room]
  split <;> rfl

theorem storeByte_full {s : Stream} (full : s.rxCapacity ≤ s.rxPos) (byte : UInt8) :
    (s.storeByte fun _ => byte) = (s.reset, [.onError .rxBufferSmall]) :=
  if_neg (Nat.not_lt.mpr full)

/-- In a payload with bytes missing: test the byte, store it, deliver if complete. -/
theorem processOne_readPayload {s : Stream} (reading : s.state = .readPayload)
    (inside : s.rxPos < (s.header 2).toNat) (byte : UInt8) :
    s.processOne byte =
      let taken := s.takePayload fun _ => byte
      (taken.1.deliver.1, taken.2 ++ taken.1.deliver.2) := by
  simp only [Stream.processOne, Stream.processByte, reading, Stream.readPayload, inside, if_true]

/-- What follows the storing of a byte: the frame is delivered if that was its last one. -/
theorem processOne_payload {s : Stream} (reading : s.state = .readPayload)
    (inside : s.rxPos < (s.header 2).toNat) (room : s.rxPos < s.rxCapacity) {byte : UInt8}
    (nonzero : byte ≠ 0) : s.processOne byte = (s.accept byte).deliver := by
  rw [processOne_readPayload reading inside, Stream.takePayload, checkByte_of_ne s nonzero,
    storeByte_room room]
  rfl

/-- The frame handed over when a payload is complete. -/
def Stream.frame (s : Stream) : Event :=
  .onFrame (s.header 1) (segment s.rxPayload 0 (s.header 2).toNat)

theorem deliver_open {s : Stream} (missing : s.rxPos ≠ (s.header 2).toNat) :
    s.deliver = (s, []) := if_neg missing

theorem deliver_complete {s : Stream} (complete : s.rxPos = (s.header 2).toNat) :
    s.deliver = (s.reset, [s.frame]) := if_pos complete

/-- **Payload bytes before the last** are stored, silently. -/
theorem process_payload_open {s : Stream} (reading : s.state = .readPayload) {bytes : List UInt8}
    (inside : s.rxPos + bytes.length < (s.header 2).toNat)
    (room : s.rxPos + bytes.length ≤ s.rxCapacity) (nonzero : ∀ byte ∈ bytes, byte ≠ 0) :
    s.process bytes = (s.acceptAll bytes, []) := by
  induction bytes generalizing s with
  | nil => rw [acceptAll_nil, process_nil]
  | cons byte rest ih =>
    rw [List.length_cons] at inside room
    rw [process_cons, processOne_payload reading (by omega) (by omega)
      (nonzero byte List.mem_cons_self), deliver_open (by rw [accept_rxPos, accept_header]; omega)]
    rw [ih (by rw [accept_state, reading]) (by rw [accept_rxPos, accept_header]; omega)
      (by rw [accept_rxPos, accept_rxCapacity]; omega)
      fun other member => nonzero other (List.mem_cons_of_mem _ member)]
    rw [acceptAll_cons, List.nil_append]

/-- **The bytes that complete a payload**: one frame, and the receiver hunts again. -/
theorem process_payload_whole {s : Stream} (reading : s.state = .readPayload) {bytes : List UInt8}
    (some_ : bytes ≠ []) (complete : s.rxPos + bytes.length = (s.header 2).toNat)
    (room : (s.header 2).toNat ≤ s.rxCapacity) (nonzero : ∀ byte ∈ bytes, byte ≠ 0) :
    s.process bytes = ((s.acceptAll bytes).reset, [(s.acceptAll bytes).frame]) := by
  induction bytes generalizing s with
  | nil => exact absurd rfl some_
  | cons byte rest ih =>
    rw [List.length_cons] at complete
    have byteNonzero := nonzero byte List.mem_cons_self
    rw [process_cons, processOne_payload reading (by omega) (by omega) byteNonzero]
    by_cases last : rest = []
    · subst last
      rw [deliver_complete (by rw [accept_rxPos, accept_header]; exact complete), process_nil,
        ← acceptAll_cons, acceptAll_nil]
      rfl
    · have more : 0 < rest.length := List.length_pos_iff.mpr last
      rw [deliver_open (by rw [accept_rxPos, accept_header]; omega)]
      rw [ih (by rw [accept_state, reading]) last (by rw [accept_rxPos, accept_header]; omega)
        (by rw [accept_header, accept_rxCapacity]; exact room)
        fun other member => nonzero other (List.mem_cons_of_mem _ member)]
      rw [acceptAll_cons, List.nil_append]

/-! ### Payloads that end badly -/

/-- A zero inside a payload: the parser is reset and reports, and then takes the zero as the first
byte of a payload all the same. -/
theorem processOne_zero {s : Stream} (reading : s.state = .readPayload)
    (inside : s.rxPos < (s.header 2).toNat) (room : 0 < s.rxCapacity) :
    s.processOne 0 = ((s.reset.accept 0).deliver.1,
      .onError .payloadIncomplete :: (s.reset.accept 0).deliver.2) := by
  rw [processOne_readPayload reading inside, Stream.takePayload, checkByte_zero,
    storeByte_room (s := s.reset) room]
  rfl

/-- A zero inside a payload, with a receiver that has no payload buffer. -/
theorem processOne_zero_noRoom {s : Stream} (reading : s.state = .readPayload)
    (inside : s.rxPos < (s.header 2).toNat) (noRoom : s.rxCapacity = 0) :
    s.processOne 0 = (s.reset, [.onError .payloadIncomplete, .onError .rxBufferSmall]) := by
  rw [processOne_readPayload reading inside, Stream.takePayload, checkByte_zero,
    storeByte_full (s := s.reset) noRoom.le]
  have undelivered : s.reset.deliver = (s.reset, []) :=
    deliver_open (Nat.ne_of_lt (Nat.zero_lt_of_lt inside))
  show (s.reset.deliver.1, _ ++ s.reset.deliver.2) = _
  rw [undelivered]
  rfl

/-- A byte that no longer fits the payload buffer. -/
theorem processOne_full {s : Stream} (reading : s.state = .readPayload)
    (inside : s.rxPos < (s.header 2).toNat) (full : s.rxCapacity ≤ s.rxPos) {byte : UInt8}
    (nonzero : byte ≠ 0) : s.processOne byte = (s.reset, [.onError .rxBufferSmall]) := by
  rw [processOne_readPayload reading inside, Stream.takePayload, checkByte_of_ne s nonzero,
    storeByte_full full]
  have undelivered : s.reset.deliver = (s.reset, []) :=
    deliver_open (Nat.ne_of_lt (Nat.zero_lt_of_lt inside))
  show (s.reset.deliver.1, _ ++ s.reset.deliver.2) = _
  rw [undelivered]
  rfl

/-- After a header that declares an empty payload the next byte, whatever it is, is dropped and an
empty frame is delivered. -/
theorem processOne_empty {s : Stream} (reading : s.state = .readPayload)
    (complete : s.rxPos = (s.header 2).toNat) (byte : UInt8) :
    s.processOne byte = (s.reset, [s.frame]) := by
  have outside : ¬ s.rxPos < (s.header 2).toNat := by omega
  simp only [Stream.processOne, Stream.processByte, reading, Stream.readPayload, outside, if_false,
    deliver_complete complete, List.nil_append]

/-! ### What no byte changes -/

theorem deliver_rxCapacity (s : Stream) : s.deliver.1.rxCapacity = s.rxCapacity := by
  unfold Stream.deliver; split <;> rfl

theorem checkByte_rxCapacity (s : Stream) (data : Stream → UInt8) :
    (s.checkByte data).1.rxCapacity = s.rxCapacity := by
  unfold Stream.checkByte; split <;> rfl

theorem storeByte_rxCapacity (s : Stream) (data : Stream → UInt8) :
    (s.storeByte data).1.rxCapacity = s.rxCapacity := by
  unfold Stream.storeByte
  split
  · split <;> rfl
  · rfl

theorem checkHeader_rxCapacity (s : Stream) : s.checkHeader.1.rxCapacity = s.rxCapacity := by
  unfold Stream.checkHeader; split <;> rfl

theorem processByte_rxCapacity (s : Stream) (data : Stream → UInt8) :
    (s.processByte data).1.rxCapacity = s.rxCapacity := by
  unfold Stream.processByte
  split
  · unfold Stream.huntSync
    split <;> rfl
  · simp only [Stream.readHeader]
    split
    · exact checkHeader_rxCapacity _
    · rfl
  · simp only [Stream.readPayload]
    split
    · exact (deliver_rxCapacity _).trans ((storeByte_rxCapacity _ _).trans
        (checkByte_rxCapacity s data))
    · exact deliver_rxCapacity s
  · rfl

theorem process_rxCapacity (s : Stream) (bytes : List UInt8) :
    (s.process bytes).1.rxCapacity = s.rxCapacity :=
  EventMachine.run_invariant Stream.processOne (fun t => t.rxCapacity = s.rxCapacity)
    (fun t _ same => (processByte_rxCapacity t _).trans same) rfl bytes

end ForgeDrive.Abf
