/-
**Which frames are delivered, and what the header checksum has to do with it.**

`Position` says where in the stream a receiver is after any bytes: hunting, in a header, or in the
payload of a header read since it last hunted. From it `onFrame_origin`: a frame is delivered only
at the byte that completes the payload of such a header (`Completes`) — the checksum does not enter,
because the state that `reset()` leaves after a mismatch is assigned over in the same turn.

`checksHeaders_iff`: the receiver delivers no frame with a bad header checksum exactly in the
streams in which no header with a wrong checksum is followed by bytes that complete its payload.
-/

import ForgeDrive.Abf.RoundTrip
import Mathlib.Data.List.Induction
import Mathlib.Data.List.Infix

namespace ForgeDrive.Abf

open ZeroStuffing
open Circular (segment)

/-- The receiver hunts for a sync byte after these bytes. -/
def Hunting (start : Stream) (bytes : List UInt8) : Prop :=
  (start.process bytes).1.state = .huntSync

/-- The callbacks made when `byte` is consumed after the bytes `before`. -/
def eventsAt (start : Stream) (before : List UInt8) (byte : UInt8) : List Event :=
  ((start.process before).1.processOne byte).2

/-- These bytes, fed after a header that declares `payloadLen` bytes, complete its payload. A
declared length of `0` is completed by any byte, and a length of `1` by a zero too: the zero resets
the parser, and is then stored as the first byte of a payload of length one. -/
def Completes (capacity payloadLen : Nat) (taken : List UInt8) : Prop :=
  (payloadLen = 0 ∧ taken.length = 1) ∨ (payloadLen = 1 ∧ taken.length = 1 ∧ 1 ≤ capacity) ∨
    (2 ≤ payloadLen ∧ taken.length = payloadLen ∧ payloadLen ≤ capacity ∧ ∀ byte ∈ taken, byte ≠ 0)

/-! ### Where the receiver is -/

/-- The receiver's position in the stream: hunting, in a header, or in a payload. -/
inductive Position (start : Stream) : List UInt8 → Prop
  | hunting {before : List UInt8} (hunt : Hunting start before) : Position start before
  | header {earlier read : List UInt8} (hunt : Hunting start earlier) (missing : read.length ≤ 3) :
      Position start (earlier ++ 0 :: read)
  | payload {earlier taken : List UInt8} (serviceId payloadLen code crc : UInt8)
      (hunt : Hunting start earlier)
      (inside : taken.length < payloadLen.toNat ∨ payloadLen = 0 ∧ taken = [])
      (room : taken.length ≤ start.rxCapacity) (nonzero : ∀ byte ∈ taken, byte ≠ 0) :
      Position start (earlier ++ [0, serviceId, payloadLen, code, crc] ++ taken)

/-- The receiver inside a payload, with the bytes `taken` consumed since the header. -/
def Stream.inPayload (s : Stream) (serviceId payloadLen code crc : UInt8) (taken : List UInt8) :
    Stream :=
  (s.startPayload serviceId payloadLen code crc).acceptAll taken

section InPayload

variable (s : Stream) (serviceId payloadLen code crc : UInt8) (taken : List UInt8)

@[simp] theorem inPayload_state :
    (s.inPayload serviceId payloadLen code crc taken).state = .readPayload := rfl

@[simp] theorem inPayload_rxPos :
    (s.inPayload serviceId payloadLen code crc taken).rxPos = taken.length := Nat.zero_add _

@[simp] theorem inPayload_rxCapacity :
    (s.inPayload serviceId payloadLen code crc taken).rxCapacity = s.rxCapacity := rfl

@[simp] theorem inPayload_header_two :
    (s.inPayload serviceId payloadLen code crc taken).header 2 = payloadLen := rfl

@[simp] theorem inPayload_header_one :
    (s.inPayload serviceId payloadLen code crc taken).header 1 = serviceId := rfl

end InPayload

section Steps

variable {start : Stream} {earlier taken : List UInt8} {serviceId payloadLen code crc : UInt8}

theorem process_header_fst (hunt : Hunting start earlier) :
    (start.process (earlier ++ [0, serviceId, payloadLen, code, crc])).1 =
      (start.process earlier).1.startPayload serviceId payloadLen code crc := by
  rw [process_append]
  exact congrArg Prod.fst (process_header hunt serviceId payloadLen code crc)

/-- The state in a payload. -/
theorem process_inPayload (hunt : Hunting start earlier)
    (inside : taken.length < payloadLen.toNat ∨ payloadLen = 0 ∧ taken = [])
    (room : taken.length ≤ start.rxCapacity) (nonzero : ∀ byte ∈ taken, byte ≠ 0) :
    (start.process (earlier ++ [0, serviceId, payloadLen, code, crc] ++ taken)).1 =
      (start.process earlier).1.inPayload serviceId payloadLen code crc taken := by
  have capacity := process_rxCapacity start earlier
  rw [process_append, process_header_fst hunt]
  rcases inside with inside | ⟨-, rfl⟩
  · have opened := process_payload_open
      (s := (start.process earlier).1.startPayload serviceId payloadLen code crc) rfl
      (lt_of_eq_of_lt (Nat.zero_add _) inside)
      ((Nat.zero_add _).trans_le (room.trans capacity.ge)) nonzero
    exact congrArg Prod.fst opened
  · exact (acceptAll_nil _).symm

/-- Behind a header the receiver is in its payload, even in one of length zero. -/
theorem inside_nil (payloadLen : UInt8) :
    ([] : List UInt8).length < payloadLen.toNat ∨ payloadLen = 0 ∧ ([] : List UInt8) = [] := by
  rcases Nat.eq_zero_or_pos payloadLen.toNat with zero | positive
  · exact .inr ⟨UInt8.toNat_inj.mp zero, rfl⟩
  · exact .inl positive

/-- All along a payload the receiver is in it. -/
theorem process_inPayload_upTo (hunt : Hunting start earlier)
    (inside : taken.length < payloadLen.toNat ∨ payloadLen = 0 ∧ taken = [])
    (room : taken.length ≤ start.rxCapacity) (nonzero : ∀ byte ∈ taken, byte ≠ 0)
    {fed : List UInt8} (isPrefix : fed <+: taken) :
    (start.process (earlier ++ [0, serviceId, payloadLen, code, crc] ++ fed)).1 =
      (start.process earlier).1.inPayload serviceId payloadLen code crc fed := by
  have le := isPrefix.length_le
  have insideFed : fed.length < payloadLen.toNat ∨ payloadLen = 0 ∧ fed = [] := by
    rcases inside with inside | ⟨zero, rfl⟩
    · exact .inl (lt_of_le_of_lt le inside)
    · exact .inr ⟨zero, List.prefix_nil.mp isPrefix⟩
  exact process_inPayload hunt insideFed (le.trans room)
    fun other member => nonzero other (isPrefix.subset member)

/-- The last byte of a header reports a wrong checksum. -/
theorem eventsAt_crc (hunt : Hunting start earlier) :
    eventsAt start (earlier ++ [0, serviceId, payloadLen, code]) crc =
      if headerCrc serviceId payloadLen code = crc then []
      else [.onError .headerCrcMismatch] := by
  have header := congrArg Prod.snd (process_header hunt serviceId payloadLen code crc)
  have silent : ((start.process earlier).1.process [0, serviceId, payloadLen, code]).2 = [] :=
    (process_sync_open hunt (show [serviceId, payloadLen, code].length ≤ 3 from le_rfl)).2.2
  rw [show [0, serviceId, payloadLen, code, crc] = [0, serviceId, payloadLen, code] ++ [crc] from
    rfl, process_append, silent, List.nil_append, process_cons, process_nil, List.append_nil]
    at header
  rw [eventsAt, process_append]
  exact header

/-- The bytes of a header before the last report nothing. -/
theorem eventsAt_header (hunt : Hunting start earlier) {read : List UInt8}
    (missing : read.length < 3) (byte : UInt8) :
    eventsAt start (earlier ++ 0 :: read) byte = [] := by
  obtain ⟨reading, position, -⟩ :=
    process_sync_open hunt (show read.length ≤ 3 from Nat.le_of_lt missing)
  rw [eventsAt, process_append, processOne_header reading (by omega)]

/-- A hunting receiver makes no callback. -/
theorem eventsAt_hunting {before : List UInt8} (hunt : Hunting start before) (byte : UInt8) :
    eventsAt start before byte = [] := by
  by_cases sync : byte = 0
  · rw [sync, eventsAt, processOne_sync hunt]
  · rw [eventsAt, processOne_skip hunt sync]

/-- No frame among these callbacks. -/
def NoFrame (events : List Event) : Prop :=
  ∀ serviceId payload, Event.onFrame serviceId payload ∉ events

/-- **One byte in a payload** either completes it, and then a frame of the declared service and
length is delivered and the receiver hunts; or it delivers nothing, and the receiver hunts or stays
in the payload. -/
inductive PayloadStep (capacity : Nat) (serviceId payloadLen : UInt8) (taken : List UInt8)
    (byte : UInt8) (result : Stream × List Event) : Prop
  | completes (complete : Completes capacity payloadLen.toNat (taken ++ [byte]))
      (hunt : result.1.state = .huntSync)
      (delivers : ∃ errors payload, NoFrame errors ∧ payload.length = payloadLen.toNat ∧
        result.2 = errors ++ [.onFrame serviceId payload])
  | drops (incomplete : ¬ Completes capacity payloadLen.toNat (taken ++ [byte]))
      (hunt : result.1.state = .huntSync) (noFrame : NoFrame result.2)
  | continues (incomplete : ¬ Completes capacity payloadLen.toNat (taken ++ [byte]))
      (inside : (taken ++ [byte]).length < payloadLen.toNat)
      (room : (taken ++ [byte]).length ≤ capacity) (nonzero : byte ≠ 0)
      (silent : result.2 = [])

theorem noFrame_errors (errors : List Err) : NoFrame (errors.map .onError) := by
  intro serviceId payload member
  obtain ⟨error, -, same⟩ := List.mem_map.mp member
  cases same

theorem noFrame_nil : NoFrame [] := noFrame_errors []

/-- Delivering a complete frame after some errors were reported. -/
theorem PayloadStep.of_deliver {capacity : Nat} {byte : UInt8} {s : Stream} (errors : List Event)
    (complete : Completes capacity payloadLen.toNat (taken ++ [byte])) (noFrame : NoFrame errors)
    (service : s.header 1 = serviceId) (declared : s.header 2 = payloadLen)
    (position : s.rxPos = payloadLen.toNat) :
    PayloadStep capacity serviceId payloadLen taken byte (s.deliver.1, errors ++ s.deliver.2) := by
  have delivered := deliver_complete (s := s) (by rw [position, declared])
  refine .completes complete (by rw [delivered]; rfl)
    ⟨errors, segment s.rxPayload 0 payloadLen.toNat, noFrame, Circular.segment_length _ _ _, ?_⟩
  rw [delivered, Stream.frame, service, declared]

/-- A byte of a payload that is not a zero. -/
theorem payloadStep_nonzero {s : Stream} (inside : taken.length < payloadLen.toNat)
    (room : taken.length ≤ s.rxCapacity) (nonzero : ∀ other ∈ taken, other ≠ 0) {byte : UInt8}
    (byteNonzero : byte ≠ 0) :
    PayloadStep s.rxCapacity serviceId payloadLen taken byte
      ((s.inPayload serviceId payloadLen code crc taken).processOne byte) := by
  have length : (taken ++ [byte]).length = taken.length + 1 := by simp
  have insideState : (s.inPayload serviceId payloadLen code crc taken).rxPos <
      ((s.inPayload serviceId payloadLen code crc taken).header 2).toNat := by
    rw [inPayload_rxPos, inPayload_header_two]
    exact inside
  rcases Nat.lt_or_ge taken.length s.rxCapacity with free | full
  · rw [processOne_payload rfl insideState (by rw [inPayload_rxPos]; exact free) byteNonzero]
    by_cases last : taken.length + 1 = payloadLen.toNat
    · have allNonzero : ∀ other ∈ taken ++ [byte], other ≠ 0 := by
        intro other member
        rcases List.mem_append.mp member with member | member
        · exact nonzero other member
        · rw [List.mem_singleton.mp member]
          exact byteNonzero
      have complete : Completes s.rxCapacity payloadLen.toNat (taken ++ [byte]) := by
        rcases Nat.lt_or_ge payloadLen.toNat 2 with one | two
        · exact .inr (.inl ⟨by omega, by omega, by omega⟩)
        · exact .inr (.inr ⟨two, length.trans last, by omega, allNonzero⟩)
      exact .of_deliver [] complete noFrame_nil (by simp) (by simp)
        (by rw [accept_rxPos, inPayload_rxPos, last])
    · rw [deliver_open (by rw [accept_rxPos, accept_header, inPayload_rxPos]; exact last)]
      refine .continues ?_ ?_ ?_ byteNonzero rfl
      · unfold Completes
        omega
      · omega
      · omega
  · rw [processOne_full rfl insideState (by rw [inPayload_rxPos]; exact full) byteNonzero]
    refine .drops ?_ rfl (noFrame_errors [.rxBufferSmall])
    unfold Completes
    omega

/-- A zero inside a payload. -/
theorem payloadStep_zero {s : Stream} (inside : taken.length < payloadLen.toNat) :
    PayloadStep s.rxCapacity serviceId payloadLen taken 0
      ((s.inPayload serviceId payloadLen code crc taken).processOne 0) := by
  set t := s.inPayload serviceId payloadLen code crc taken with tDef
  have length : (taken ++ [0]).length = taken.length + 1 := by simp
  have insideState : t.rxPos < (t.header 2).toNat := by
    rw [tDef, inPayload_rxPos, inPayload_header_two]
    exact inside
  have hasZero : ¬ ∀ other ∈ taken ++ [0], other ≠ 0 :=
    fun all => all 0 (List.mem_append_right _ List.mem_cons_self) rfl
  rcases Nat.eq_zero_or_pos s.rxCapacity with noRoom | someRoom
  · rw [processOne_zero_noRoom rfl insideState noRoom]
    refine .drops ?_ rfl (noFrame_errors [.payloadIncomplete, .rxBufferSmall])
    unfold Completes
    omega
  · rw [processOne_zero rfl insideState someRoom]
    by_cases single : payloadLen.toNat = 1
    · exact .of_deliver [.onError .payloadIncomplete]
        (.inr (.inl ⟨single, by omega, someRoom⟩)) (noFrame_errors [.payloadIncomplete])
        (by rw [accept_header]; rfl) (by rw [accept_header]; rfl)
        (by rw [accept_rxPos]; exact single.symm)
    · rw [deliver_open (by rw [accept_rxPos, accept_header]; exact Ne.symm single)]
      refine .drops ?_ ((accept_state _ _).trans rfl) (noFrame_errors [.payloadIncomplete])
      rintro (⟨empty, -⟩ | ⟨one, -⟩ | ⟨-, -, -, nonzero⟩)
      · omega
      · exact single one
      · exact hasZero nonzero

/-- **One byte in a payload.** -/
theorem payloadStep (s : Stream)
    (inside : taken.length < payloadLen.toNat ∨ payloadLen = 0 ∧ taken = [])
    (room : taken.length ≤ s.rxCapacity) (nonzero : ∀ other ∈ taken, other ≠ 0) (byte : UInt8) :
    PayloadStep s.rxCapacity serviceId payloadLen taken byte
      ((s.inPayload serviceId payloadLen code crc taken).processOne byte) := by
  rcases inside with inside | ⟨rfl, rfl⟩
  · by_cases zero : byte = 0
    · rw [zero]
      exact payloadStep_zero inside
    · exact payloadStep_nonzero inside room nonzero zero
  · rw [processOne_empty rfl rfl]
    exact .completes (.inl ⟨rfl, rfl⟩) rfl
      ⟨[], [], noFrame_nil, rfl, rfl⟩

/-- The same step, seen from the start of the stream. -/
theorem payloadStep_at (code crc : UInt8) (hunt : Hunting start earlier)
    (inside : taken.length < payloadLen.toNat ∨ payloadLen = 0 ∧ taken = [])
    (room : taken.length ≤ start.rxCapacity) (nonzero : ∀ other ∈ taken, other ≠ 0) (byte : UInt8) :
    PayloadStep start.rxCapacity serviceId payloadLen taken byte
      ((start.process (earlier ++ [0, serviceId, payloadLen, code, crc] ++ taken)).1.processOne
        byte) := by
  have capacity := process_rxCapacity start earlier
  rw [process_inPayload hunt inside room nonzero, ← capacity]
  exact payloadStep _ inside (room.trans capacity.ge) nonzero byte

end Steps

/-! ### Every receiver has a position -/

section Positions

variable {start : Stream}

theorem hunting_concat {before : List UInt8} {byte : UInt8}
    (hunt : ((start.process before).1.processOne byte).1.state = .huntSync) :
    Hunting start (before ++ [byte]) := by
  rw [Hunting, process_append]
  exact hunt

/-- One more byte. -/
theorem Position.concat {before : List UInt8} (position : Position start before) (byte : UInt8) :
    Position start (before ++ [byte]) := by
  cases position with
  | hunting hunt =>
    by_cases sync : byte = 0
    · rw [sync]
      exact .header hunt (show ([] : List UInt8).length ≤ 3 from Nat.zero_le _)
    · exact .hunting (hunting_concat (by rw [processOne_skip hunt sync]; exact hunt))
  | @header earlier read hunt missing =>
    rw [List.append_assoc, List.cons_append]
    match read, missing with
    | [], _ => exact .header hunt (show [byte].length ≤ 3 from Nat.le_of_ble_eq_true rfl)
    | [first], _ =>
      exact .header hunt (show [first, byte].length ≤ 3 from Nat.le_of_ble_eq_true rfl)
    | [first, second], _ => exact .header hunt (show [first, second, byte].length ≤ 3 from le_rfl)
    | [serviceId, payloadLen, code], _ =>
      have begun : Position start _ := .payload serviceId payloadLen code byte hunt
        (inside_nil payloadLen) (Nat.zero_le _) (fun _ member => by cases member)
      rw [List.append_nil] at begun
      exact begun
  | @payload earlier taken serviceId payloadLen code crc hunt inside room nonzero =>
    rcases payloadStep_at code crc hunt inside room nonzero byte with
      ⟨-, next, -⟩ | ⟨-, next, -⟩ | ⟨-, insideNext, roomNext, byteNonzero, -⟩
    · exact .hunting (hunting_concat next)
    · exact .hunting (hunting_concat next)
    · rw [List.append_assoc]
      refine .payload serviceId payloadLen code crc hunt (.inl insideNext) roomNext ?_
      intro other member
      rcases List.mem_append.mp member with member | member
      · exact nonzero other member
      · rw [List.mem_singleton.mp member]
        exact byteNonzero

/-- **After any bytes the receiver has a position in the stream.** -/
theorem position (fresh : start.state = .huntSync) (bytes : List UInt8) : Position start bytes := by
  induction bytes using List.reverseRecOn with
  | nil => exact .hunting fresh
  | append_singleton bytes byte ih => exact ih.concat byte

end Positions

/-! ### Headers with a wrong checksum -/

/-- **A frame with a bad header checksum is never delivered.** Every frame completes a payload whose
header was consumed in five consecutive bytes, with a good checksum (`framed`); and after a
checksum mismatch no frame is delivered until another header is begun (`dropped`). -/
structure ChecksHeaders (start : Stream) (bytes : List UInt8) : Prop where
  framed : ∀ before byte after serviceId payload, bytes = before ++ byte :: after →
    .onFrame serviceId payload ∈ eventsAt start before byte →
    ∃ earlier code crc taken,
      before = earlier ++ [0, serviceId, UInt8.ofNat payload.length, code, crc] ++ taken ∧
        Hunting start earlier ∧
        (∀ fed, fed <+: taken → (start.process (earlier ++
          [0, serviceId, UInt8.ofNat payload.length, code, crc] ++ fed)).1.state = .readPayload) ∧
        crc = headerCrc serviceId (UInt8.ofNat payload.length) code
  dropped : ∀ before crc between byte after, bytes = before ++ crc :: (between ++ byte :: after) →
    .onError .headerCrcMismatch ∈ eventsAt start before crc →
    (∀ begun, begun <+: between →
      (start.process (before ++ crc :: begun)).1.state ≠ .readHeader) →
    NoFrame (eventsAt start (before ++ crc :: between) byte)

/-- No header with a wrong checksum is followed by bytes that complete its payload. -/
def NoBadHeaderCompleted (start : Stream) (bytes : List UInt8) : Prop :=
  ∀ earlier serviceId payloadLen code crc taken after,
    bytes = earlier ++ [0, serviceId, payloadLen, code, crc] ++ taken ++ after →
    Hunting start earlier → headerCrc serviceId payloadLen code ≠ crc →
    ¬ Completes start.rxCapacity payloadLen.toNat taken

section Headers

variable {start : Stream}

/-- The last byte of a completed payload, and the bytes before it. -/
theorem Completes.split {capacity : Nat} {payloadLen : UInt8} {taken : List UInt8}
    (complete : Completes capacity payloadLen.toNat taken) :
    ∃ init last, taken = init ++ [last] ∧
      (init.length < payloadLen.toNat ∨ payloadLen = 0 ∧ init = []) ∧
      init.length ≤ capacity ∧ ∀ other ∈ init, other ≠ 0 := by
  rcases taken.eq_nil_or_concat' with rfl | ⟨init, last, rfl⟩
  · rcases complete with ⟨_, length⟩ | ⟨_, length, _⟩ | ⟨two, length, _⟩
    · cases length
    · cases length
    · rw [List.length_nil] at length
      omega
  · have length : (init ++ [last]).length = init.length + 1 := by simp
    refine ⟨init, last, rfl, ?_, ?_, ?_⟩
    · rcases complete with ⟨zero, one⟩ | ⟨one, single, _⟩ | ⟨_, whole, _, _⟩
      · exact .inr ⟨UInt8.toNat_inj.mp zero, List.length_eq_zero_iff.mp (by omega)⟩
      · exact .inl (by omega)
      · exact .inl (by omega)
    · rcases complete with ⟨_, one⟩ | ⟨_, single, _⟩ | ⟨_, whole, room, _⟩ <;> omega
    · rcases complete with ⟨_, one⟩ | ⟨_, single, _⟩ | ⟨_, _, _, nonzero⟩
      · rw [List.length_eq_zero_iff.mp (show init.length = 0 by omega)]
        exact fun _ member => by cases member
      · rw [List.length_eq_zero_iff.mp (show init.length = 0 by omega)]
        exact fun _ member => by cases member
      · exact fun other member => nonzero other (List.mem_append_left _ member)

/-- Where a frame comes from: the byte completes the payload of a header consumed before. -/
theorem onFrame_origin (fresh : start.state = .huntSync) {before : List UInt8} {byte : UInt8}
    {serviceId : UInt8} {payload : List UInt8}
    (emitted : .onFrame serviceId payload ∈ eventsAt start before byte) :
    ∃ earlier code crc taken,
      before = earlier ++ [0, serviceId, UInt8.ofNat payload.length, code, crc] ++ taken ∧
        Hunting start earlier ∧
        (∀ fed, fed <+: taken → (start.process (earlier ++
          [0, serviceId, UInt8.ofNat payload.length, code, crc] ++ fed)).1.state = .readPayload) ∧
        Completes start.rxCapacity (UInt8.ofNat payload.length).toNat (taken ++ [byte]) := by
  cases position fresh before with
  | hunting hunt =>
    rw [eventsAt_hunting hunt] at emitted
    cases emitted
  | @header earlier read hunt missing =>
    exfalso
    match read, missing with
    | [], _ | [_], _ | [_, _], _ =>
      rw [eventsAt_header hunt (by simp)] at emitted
      cases emitted
    | [service, payloadLen, code], _ =>
      rw [eventsAt_crc hunt] at emitted
      split at emitted
      · cases emitted
      · cases List.mem_singleton.mp emitted
  | @payload earlier taken service payloadLen code crc hunt inside room nonzero =>
    rcases payloadStep_at code crc hunt inside room nonzero byte with
      ⟨complete, -, errors, delivered, noFrame, length, events⟩ | ⟨-, -, noFrame⟩ |
      ⟨-, -, -, -, silent⟩
    · rw [eventsAt, events] at emitted
      rcases List.mem_append.mp emitted with member | member
      · exact absurd member (noFrame _ _)
      · obtain ⟨rfl, rfl⟩ := Event.onFrame.inj (List.mem_singleton.mp member)
        have declared : UInt8.ofNat payload.length = payloadLen := by
          rw [length, UInt8.ofNat_toNat]
        rw [declared]
        refine ⟨earlier, code, crc, taken, rfl, hunt, fun fed isPrefix => ?_, complete⟩
        rw [process_inPayload_upTo hunt inside room nonzero isPrefix]
        rfl
    · exact absurd emitted (noFrame _ _)
    · rw [eventsAt, silent] at emitted
      cases emitted

/-- Only a header reports a checksum mismatch. -/
theorem readPayload_no_mismatch {s : Stream} (reading : s.state = .readPayload) (byte : UInt8) :
    Event.onError .headerCrcMismatch ∉ (s.processOne byte).2 := by
  have checked : Event.onError .headerCrcMismatch ∉ (s.checkByte fun _ => byte).2 := by
    unfold Stream.checkByte
    split <;> simp
  have stored : ∀ t : Stream, Event.onError .headerCrcMismatch ∉ (t.storeByte fun _ => byte).2 := by
    intro t
    unfold Stream.storeByte
    split
    · split <;> simp
    · simp
  have delivered : ∀ t : Stream, Event.onError .headerCrcMismatch ∉ t.deliver.2 := by
    intro t
    unfold Stream.deliver
    split <;> simp
  simp only [Stream.processOne, Stream.processByte, reading, Stream.readPayload]
  split
  · simp only [Stream.takePayload, List.mem_append, checked, stored, delivered, or_self,
      not_false_eq_true]
  · simp only [List.mem_append, List.not_mem_nil, delivered, or_self, not_false_eq_true]

/-- Where a mismatch is reported: at the last byte of a header whose checksum is wrong. -/
theorem mismatch_origin (fresh : start.state = .huntSync) {before : List UInt8} {crc : UInt8}
    (reported : .onError .headerCrcMismatch ∈ eventsAt start before crc) :
    ∃ earlier serviceId payloadLen code,
      before = earlier ++ [0, serviceId, payloadLen, code] ∧ Hunting start earlier ∧
        headerCrc serviceId payloadLen code ≠ crc := by
  cases position fresh before with
  | hunting hunt =>
    rw [eventsAt_hunting hunt] at reported
    cases reported
  | @header earlier read hunt missing =>
    match read, missing with
    | [], _ | [_], _ | [_, _], _ =>
      rw [eventsAt_header hunt (by simp)] at reported
      cases reported
    | [serviceId, payloadLen, code], _ =>
      refine ⟨earlier, serviceId, payloadLen, code, rfl, hunt, fun good => ?_⟩
      rw [eventsAt_crc hunt, if_pos good] at reported
      cases reported
  | @payload earlier taken serviceId payloadLen code crc' hunt inside room nonzero =>
    rw [eventsAt, process_inPayload hunt inside room nonzero] at reported
    exact absurd reported (readPayload_no_mismatch rfl crc)

/-- After a header, as long as no other header is begun, the receiver is in its payload or hunts. -/
theorem inPayload_or_hunting {earlier : List UInt8} {serviceId payloadLen code crc : UInt8}
    (hunt : Hunting start earlier) (fed : List UInt8)
    (noHeader : ∀ begun, begun <+: fed → (start.process
      (earlier ++ [0, serviceId, payloadLen, code, crc] ++ begun)).1.state ≠ .readHeader) :
    Hunting start (earlier ++ [0, serviceId, payloadLen, code, crc] ++ fed) ∨
      ((fed.length < payloadLen.toNat ∨ payloadLen = 0 ∧ fed = []) ∧
        fed.length ≤ start.rxCapacity ∧ ∀ other ∈ fed, other ≠ 0) := by
  induction fed using List.reverseRecOn with
  | nil =>
    refine .inr ⟨?_, Nat.zero_le _, fun _ member => by cases member⟩
    rcases Nat.eq_zero_or_pos payloadLen.toNat with zero | positive
    · exact .inr ⟨UInt8.toNat_inj.mp zero, rfl⟩
    · exact .inl positive
  | append_singleton fed byte ih =>
    have noHeaderNow := noHeader (fed ++ [byte]) (List.prefix_refl _)
    rw [← List.append_assoc] at noHeaderNow ⊢
    rcases ih fun begun isPrefix => noHeader begun (isPrefix.trans (List.prefix_append _ _)) with
      hunting | ⟨inside, room, nonzero⟩
    · left
      by_cases sync : byte = 0
      · rw [process_append, sync, process_cons, processOne_sync hunting] at noHeaderNow
        exact absurd rfl noHeaderNow
      · exact hunting_concat (by rw [processOne_skip hunting sync]; exact hunting)
    · rcases payloadStep_at code crc hunt inside room nonzero byte with
        ⟨-, next, -⟩ | ⟨-, next, -⟩ | ⟨-, insideNext, roomNext, byteNonzero, -⟩
      · exact .inl (hunting_concat next)
      · exact .inl (hunting_concat next)
      · refine .inr ⟨.inl insideNext, roomNext, fun other member => ?_⟩
        rcases List.mem_append.mp member with member | member
        · exact nonzero other member
        · rw [List.mem_singleton.mp member]
          exact byteNonzero

end Headers

/-- **When the header checksum protects the receiver**: from construction on, for every byte
sequence, no frame with a bad header checksum is delivered if and only if no header with a wrong
checksum is followed by bytes that complete its payload. -/
theorem checksHeaders_iff (buffer : Nat → UInt8) (bufferSize : UInt8) (bytes : List UInt8) :
    ChecksHeaders (Stream.new buffer bufferSize) bytes ↔
      NoBadHeaderCompleted (Stream.new buffer bufferSize) bytes := by
  set start := Stream.new buffer bufferSize
  have fresh : start.state = .huntSync := rfl
  constructor
  · intro checks earlier serviceId payloadLen code crc taken after split hunt bad complete
    obtain ⟨init, last, rfl, inside, room, nonzero⟩ := complete.split
    have reported : .onError .headerCrcMismatch ∈
        eventsAt start (earlier ++ [0, serviceId, payloadLen, code]) crc := by
      rw [eventsAt_crc hunt, if_neg bad]
      exact List.mem_cons_self
    have together : ∀ fed : List UInt8, earlier ++ [0, serviceId, payloadLen, code] ++ crc :: fed =
        earlier ++ [0, serviceId, payloadLen, code, crc] ++ fed := fun fed => by simp
    have quiet := checks.dropped _ crc init last after (by rw [split]; simp) reported
      fun begun isPrefix => by
        rw [together, process_inPayload_upTo hunt inside room nonzero isPrefix, inPayload_state]
        exact State.noConfusion
    rcases payloadStep_at code crc hunt inside room nonzero last with
      ⟨-, -, errors, payload, -, -, events⟩ | ⟨incomplete, -, -⟩ | ⟨incomplete, -, -, -, -⟩
    · rw [together, eventsAt, events] at quiet
      exact quiet _ _ (List.mem_append_right _ List.mem_cons_self)
    · exact incomplete complete
    · exact incomplete complete
  · intro noBad
    constructor
    · intro before byte after serviceId payload split emitted
      obtain ⟨earlier, code, crc, taken, rfl, hunt, consumed, complete⟩ :=
        onFrame_origin fresh emitted
      refine ⟨earlier, code, crc, taken, rfl, hunt, consumed, ?_⟩
      by_contra bad
      refine noBad earlier serviceId _ code crc (taken ++ [byte]) after ?_ hunt (Ne.symm bad)
        complete
      rw [split]
      simp
    · intro before crc between byte after split reported noHeader serviceId payload emitted
      obtain ⟨earlier, service, payloadLen, code, rfl, hunt, bad⟩ :=
        mismatch_origin fresh reported
      have together : ∀ fed : List UInt8, earlier ++ [0, service, payloadLen, code] ++ crc :: fed =
          earlier ++ [0, service, payloadLen, code, crc] ++ fed := fun fed => by simp
      simp only [together] at noHeader emitted
      rcases inPayload_or_hunting hunt between noHeader with hunting | ⟨inside, room, nonzero⟩
      · rw [eventsAt_hunting hunting] at emitted
        cases emitted
      · rcases payloadStep_at code crc hunt inside room nonzero byte with
          ⟨complete, -, -⟩ | ⟨-, -, noFrame⟩ | ⟨-, -, -, -, silent⟩
        · refine noBad earlier service payloadLen code crc (between ++ [byte]) after ?_ hunt bad
            complete
          rw [split]
          simp
        · exact noFrame _ _ emitted
        · rw [eventsAt, silent] at emitted
          cases emitted

/-- A frame whose header was corrupted on the way, as in the repository's own test: the mismatch is
reported, and the frame is delivered. -/
theorem checksHeaders_corrupted :
    ¬ ∀ (buffer : Nat → UInt8) (bufferSize : UInt8) (bytes : List UInt8),
      ChecksHeaders (Stream.new buffer bufferSize) bytes := by
  intro always
  have checks := always (fun _ => 0) 255 [0, 0x44, 4, 5, 0x18, 1, 2, 3, 4]
  exact checks.dropped [0, 0x44, 4, 5] 0x18 [1, 2, 3] 4 [] rfl (by decide +kernel)
    (by
      intro begun isPrefix
      rw [← List.mem_inits] at isPrefix
      revert begun
      decide +kernel)
    0x44 [1, 2, 3, 4] (by decide +kernel)

end ForgeDrive.Abf
